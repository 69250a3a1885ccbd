import RouteScaffold.Proofs.Json.Pointer
import RouteScaffold.Proofs.Synthesis.Bodies
import RouteScaffold.Proofs.Synthesis.Unresolved

/-!
# Looking up and pointing

A reference into a table of the components is followed in two ways.  Strict checks take it as a pointer and walk with it
from the root of the tree; scaffolds are made by looking its name up in the table that was read from the tree.  For a
name without slashes and tildes, which is one token of the pointer and stands for itself, both find the same
(`lookups_agree`): a schema is what the pointer leads to, and a parameter or a request body is read from it.  Where the
pointer leads nowhere, because the components, the table or the name is missing, nothing is looked up either.

A description is needed for this: a document could be read from arrays, in which a pointer does not find the tables.
-/

namespace RouteScaffold

open Document (Components Parameter ReadFrom RequestBody Table readTable)
open Json (IsPlain pointerOf)

/-! ## Pointers into tables -/

/-- The names that the pointer of a reference into a table goes through. -/
def Document.Table.way (table : Table) (name : String) : List (List Char) :=
  ["components".toList, table.key.toList, name.toList]

theorem start_append (table : Table) (name : String) :
    (table.start ++ name).toList = '#' :: pointerOf (table.way name) := by
  have hway : pointerOf (table.way name) =
      '/' :: ("components".toList ++ '/' :: (table.key.toList ++ '/' :: name.toList)) := by
    simp only [Table.way, Json.pointerOf_cons]
    rw [show pointerOf [] = [] from rfl, List.append_nil]
  rw [hway, String.toList_append]
  cases table <;> rfl

theorem isPlain_of_mem_way {table : Table} {name : String} (h : IsPlain name.toList) :
    ∀ piece ∈ table.way name, IsPlain piece := by
  have hcomponents : IsPlain "components".toList := ⟨by decide, by decide⟩
  have hkey : IsPlain table.key.toList := by cases table <;> exact ⟨by decide, by decide⟩
  intro piece hpiece
  simp only [Table.way, List.mem_cons, List.not_mem_nil, or_false] at hpiece
  rcases hpiece with rfl | rfl | rfl
  · exact hcomponents
  · exact hkey
  · exact h

/-- The pointer of a reference to a plain name goes by key to the table, and from there to the name. -/
theorem pointer?_way (tree : Json) (table : Table) {name : String} (h : IsPlain name.toList) :
    tree.pointer? (pointerOf (table.way name)) =
      (tree.get? "components").bind fun components =>
        (components.get? table.key).bind fun found => found.child? name.toList := by
  have hcomponents : Json.tokenIndex? "components".toList = none := by decide
  have hkey : Json.tokenIndex? table.key.toList = none := by cases table <;> decide
  rw [Json.pointer?_of_isPlain (isPlain_of_mem_way h)]
  simp only [Table.way, Json.descend?, Json.child?_of_tokenIndex?_eq_none hcomponents,
    Json.child?_of_tokenIndex?_eq_none hkey, String.ofList_toList, Option.bind_fun_some]

namespace OpenApi

/-- What a reference points at: the text after its number sign is a pointer from the root. -/
def target? (root : Json) (reference : String) : Option Json :=
  match reference.toList with
  | '#' :: pointer => root.pointer? pointer
  | _ => none

theorem target?_of_toList_eq {reference : String} {pointer : List Char} (h : reference.toList = '#' :: pointer)
    (root : Json) : target? root reference = root.pointer? pointer := by
  rw [target?, h]
  rfl

theorem target?_eq_some {root child : Json} {reference : String} :
    target? root reference = some child ↔
      ∃ pointer, reference.toList = '#' :: pointer ∧ root.pointer? pointer = some child := by
  constructor
  · intro h
    rw [target?] at h
    split at h
    · rename_i pointer hpointer
      exact ⟨pointer, hpointer, h⟩
    · cases h
  · rintro ⟨pointer, hpointer, hchild⟩
    rw [target?_of_toList_eq hpointer, hchild]

/-- Strict checks accept a reference when it points at something. -/
theorem referenceViolation_eq_none_iff {root : Json} {reference : String} :
    referenceViolation root reference = none ↔ ∃ child, target? root reference = some child := by
  simp only [target?_eq_some, referenceViolation]
  split
  · rename_i pointer hpointer
    simp only [hpointer, List.cons.injEq, true_and, exists_eq_left', ← Option.isSome_iff_exists]
    split <;> simp_all
  · rename_i hother
    simp only [reduceCtorEq, false_iff]
    rintro ⟨child, pointer, hpointer, -⟩
    exact hother pointer hpointer

theorem target?_start_append (root : Json) (table : Table) (name : String) :
    target? root (table.start ++ name) = root.pointer? (pointerOf (table.way name)) :=
  target?_of_toList_eq (start_append table name) root

/-! ## Entries of tables -/

section

variable {root : Json} {description : Description} {document : Document} {α : Type}
  {read : Json → Except Json.Mismatch α} {get : Components → List (String × α)} {name : String}

/-- What a table has under a plain name is read from what the reference to the name points at, and there is something
in the one when there is in the other. -/
theorem rel_target? (table : Table)
    (hfills : Document.Fills Document.componentsFields table.key get (readTable read)) (hempty : get {} = [])
    (hdistinct : root.Distinct) (hdescribe : describe root = .ok description)
    (hread : Document.read root = .ok document) (hplain : IsPlain name.toList) :
    Option.Rel (fun child value => read child = .ok value) (target? root (table.start ++ name))
      ((get document.components).lookup name) := by
  rw [target?_start_append, pointer?_way root table hplain]
  rcases components_of_read hdistinct hdescribe hread with
    ⟨hnone, hdefault⟩ | ⟨parts, hfound, -, hcomponents⟩
  · rw [hnone, hdefault, hempty]
    exact .none
  · rw [hfound, Option.bind_some]
    have hfrom := hfills.readFrom (hdistinct.get? hfound) hcomponents
    cases hentries : (Json.obj parts).get? table.key with
    | none =>
        rw [hentries] at hfrom
        rw [show get document.components = [] from hfrom.trans hempty]
        exact .none
    | some entries =>
        rw [hentries] at hfrom
        obtain ⟨members, rfl, hall⟩ := Document.forall₂_of_readTable hfrom
        rw [Option.bind_some, Json.child?, String.ofList_toList]
        exact Document.lookup_rel_of_forall₂ (R := fun _ child value => read child = .ok value) hall name

end

/-- A tree that is taken as it is does not change. -/
theorem eq_of_rel_ok {found taken : Option Json}
    (h : Option.Rel (fun child value => (.ok child : Except Json.Mismatch Json) = .ok value) found taken) :
    taken = found :=
  (eq_of_rel h fun _ _ hsame => Except.ok.inj hsame).symm

/-- A table is not looked into for a reference that does not start as those into the table do. -/
theorem lookup_eq_none_of_not_start {α : Type} {start reference : String} (table : List (String × α))
    (h : ¬ start.toList <+: reference.toList) :
    ((Text.afterStart? start reference).bind fun name => table.lookup name) = none := by
  rw [Text.afterStart?, if_neg (by simpa using h), Option.bind_none]

/-- Looking up a name in the tables of some components and pointing at it in a tree find the same. -/
structure LooksUp (root : Json) (components : Components) (name : String) : Prop where
  schema : components.schema? ("#/components/schemas/" ++ name) =
    target? root ("#/components/schemas/" ++ name)
  parameter : Option.Rel (fun child parameter => Parameter.read child = .ok parameter)
    (target? root ("#/components/parameters/" ++ name))
    (components.parameter? ("#/components/parameters/" ++ name))
  requestBody : Option.Rel (fun child body => RequestBody.read child = .ok body)
    (target? root ("#/components/requestBodies/" ++ name))
    (components.requestBody? ("#/components/requestBodies/" ++ name))

/-- For a name without slashes and tildes looking up and pointing find the same.  A reference that does not start as
those into a table do is never found there. -/
theorem lookups_agree {root : Json} {description : Description} {document : Document}
    (hdistinct : root.Distinct) (hdescribe : describe root = .ok description)
    (hread : Document.read root = .ok document) :
    (∀ name : String, '/' ∉ name.toList → '~' ∉ name.toList → LooksUp root document.components name) ∧
      ∀ reference : String,
        (¬ "#/components/schemas/".toList <+: reference.toList →
          document.components.schema? reference = none) ∧
        (¬ "#/components/parameters/".toList <+: reference.toList →
          document.components.parameter? reference = none) ∧
        (¬ "#/components/requestBodies/".toList <+: reference.toList →
          document.components.requestBody? reference = none) := by
  refine ⟨fun name hslash htilde => ?_, fun reference => ⟨?_, ?_, ?_⟩⟩
  · have hplain := Json.isPlain_of_not_mem hslash htilde
    refine ⟨?_, ?_, ?_⟩
    · have hrel := rel_target? .schemas Document.fills_schemas rfl hdistinct hdescribe hread hplain
      rw [Components.schema?, Text.afterStart?_append, Option.bind_some]
      exact eq_of_rel_ok hrel
    · rw [Components.parameter?, Text.afterStart?_append, Option.bind_some]
      exact rel_target? .parameters Document.fills_sharedParameters rfl hdistinct hdescribe hread hplain
    · rw [Components.requestBody?, Text.afterStart?_append, Option.bind_some]
      exact rel_target? .requestBodies Document.fills_requestBodies rfl hdistinct hdescribe hread hplain
  · exact lookup_eq_none_of_not_start _
  · exact lookup_eq_none_of_not_start _
  · exact lookup_eq_none_of_not_start _

/-! ## A name that could be an index

The components have a schema and a parameter of the name `0`, and no table of request bodies. -/

def indexedJson : Json :=
  .obj [("openapi", .str "3.0.0"), ("info", .obj [("title", .str ""), ("version", .str "")]),
    ("paths", .obj []), ("components", .obj [
      ("schemas", .obj [("", .obj []), ("0", .obj [("type", .str "object")])]),
      ("parameters", .obj [("0", looseParameter)])])]

def indexedDocument : Document where
  title := ""
  version := ""
  components := { schemas := [("", .obj []), ("0", .obj [("type", .str "object")])]
                  parameters := [("0", { name := "id", location := .path, schema := some (.obj []) })] }

/-- The name is found by its key, and nothing where there is no table. -/
theorem lookups_agree_indexed :
    indexedJson.Distinct ∧ describe indexedJson = .ok (Description.ofTree indexedJson) ∧
      Document.read indexedJson = .ok indexedDocument ∧ '/' ∉ "0".toList ∧ '~' ∉ "0".toList ∧
        LooksUp indexedJson indexedDocument.components "0" ∧
          ¬ "#/components/schemas/".toList <+: "#/definitions/0".toList ∧
            indexedDocument.components.schema? "#/definitions/0" = none := by
  have hdistinct : indexedJson.Distinct := by simp [indexedJson, looseParameter]
  have hcheck : checkDescription indexedJson = .ok () := by cbv
  have hread : Document.read indexedJson = .ok indexedDocument := rfl
  have hslash : '/' ∉ "0".toList := by decide
  have htilde : '~' ∉ "0".toList := by decide
  have hstart : ¬ "#/components/schemas/".toList <+: "#/definitions/0".toList := by decide
  obtain ⟨hnames, hothers⟩ := lookups_agree hdistinct (describe_of_check hcheck) hread
  exact ⟨hdistinct, describe_of_check hcheck, hread, hslash, htilde, hnames "0" hslash htilde, hstart,
    (hothers "#/definitions/0").1 hstart⟩

end OpenApi

end RouteScaffold
