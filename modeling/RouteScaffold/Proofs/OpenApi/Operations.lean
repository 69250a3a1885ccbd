import RouteScaffold.Proofs.OpenApi.Normal

/-!
# Operations in both models

Strict checks see the operations of a description, and scaffolds are made from those of a document.
Both are read from one tree: a description asks for each method whether something stands under its
name, and a document goes through the keys of a path and takes those that are names of methods.  On the
paths that start with a slash both find the same (`operations_agree`): the same templates in the same
order, and on each of them that is no reference operations for the same methods.  Null in the place of an
operation, which a description takes for a missing key, is not read as a document at all.

The two orders of the operations differ: a description has them as the methods are declared, a document
as they stand in the tree.  So the operations of a document can be told from the keys of the tree alone
(`operationKeys_of_read`), those of paths that strict checks do not see among them.
-/

namespace RouteScaffold.OpenApi

open Document (Operation PathItem readTable)
open Json (Distinct)

/-! ## Tables in both views -/

/-- A table of a record has the members that are under its key, each read by itself. -/
theorem forall₂_membersAt {σ α : Type} {fields : List (Document.Field σ)} {key : String}
    {get : σ → List (String × α)} {read : Json → Except Json.Mismatch α}
    (hfills : Document.Fills fields key get (readTable read)) {record : String} {draft filled : σ}
    {members : List (String × Json)} (hdistinct : Distinct (.obj members))
    (hread : Document.Field.fillRecord record fields draft (.obj members) = .ok filled)
    (hdraft : get draft = []) :
    List.Forall₂ (fun member entry => member.1 = entry.1 ∧ read member.2 = .ok entry.2)
      (membersAt (.obj members) key) (get filled) := by
  have hfrom := hfills.readFrom hdistinct hread
  rw [membersAt]
  cases htable : (Json.obj members).get? key with
  | none =>
      rw [htable] at hfrom
      rw [show get filled = [] from hfrom.trans hdraft]
      exact .nil
  | some table =>
      rw [htable] at hfrom
      obtain ⟨entries, rfl, hentries⟩ := Document.forall₂_of_readTable hfrom
      exact hentries

/-- The paths of a document are read from the members under the key for them, one by one. -/
theorem paths_of_read {tree : Json} {description : Description} {document : Document}
    (hdistinct : tree.Distinct) (hdescribe : describe tree = .ok description)
    (hread : Document.read tree = .ok document) :
    List.Forall₂ (fun member path => member.1 = path.1 ∧ PathItem.read member.2 = .ok path.2)
      (membersAt tree "paths") document.paths := by
  obtain ⟨⟨members, rfl⟩, -⟩ := exists_members_of_describe hdescribe
  exact forall₂_membersAt Document.fills_paths hdistinct hread rfl

/-! ## Methods in both views -/

section

variable {tree : Json} {item : PathItem} {method : Method}

theorem mem_methods_of_read (hdistinct : tree.Distinct) (hread : PathItem.read tree = .ok item) :
    method ∈ item.operations.map (·.1) ↔ ∃ operation, tree.get? method.name = some operation := by
  obtain ⟨members, rfl, -⟩ := Document.fold_of_read hread
  rw [Document.methods_of_read hdistinct hread, List.mem_filterMap]
  constructor
  · rintro ⟨⟨key, operation⟩, hmember, hmethod⟩
    obtain rfl := Document.name_of_ofName? hmethod
    exact ⟨operation, lookup_of_mem (Json.distinct_obj.mp hdistinct).1 hmember⟩
  · rintro ⟨operation, hoperation⟩
    exact ⟨_, mem_of_lookup hoperation, Document.ofName?_name method⟩

/-- Null is not read as an operation. -/
theorem get?_ne_null_of_read (hread : PathItem.read tree = .ok item) :
    tree.get? method.name ≠ some .null := by
  intro hnull
  obtain ⟨members, rfl, -, hmethods⟩ := (Document.accepts_pathItem tree).mp ⟨item, hread⟩
  exact Document.not_isRecord_null (hmethods method .null (mem_of_lookup hnull))

theorem presentAt_eq_some {key : String} {child : Json} :
    presentAt tree key = some child ↔ tree.get? key = some child ∧ child ≠ .null := by
  rw [presentAt]
  split
  · rename_i hnull
    simp only [hnull, Option.some.injEq, false_iff, not_and, not_not, reduceCtorEq]
    exact fun h => h.symm
  · rename_i hne
    refine ⟨fun h => ⟨h, ?_⟩, And.left⟩
    rintro rfl
    exact hne h

/-- An operation of a description is what stands under the name of its method. -/
theorem exists_of_mem_described {described : DescribedOperation}
    (h : (method, described) ∈ (DescribedPath.ofTree tree).operations) :
    ∃ child, presentAt tree method.name = some child ∧ described = .ofTree child := by
  obtain ⟨other, -, hother⟩ := List.mem_filterMap.mp h
  obtain ⟨child, hchild, hsame⟩ := Option.map_eq_some_iff.mp hother
  cases hsame
  exact ⟨child, hchild, rfl⟩

/-- The methods of a description come in the order of all methods. -/
theorem methods_ofTree (tree : Json) : (DescribedPath.ofTree tree).operations.map (·.1) =
    Method.all.filter fun method => (presentAt tree method.name).isSome := by
  rw [DescribedPath.ofTree, List.map_filterMap, ← List.filterMap_eq_filter]
  refine List.filterMap_congr fun method _ => ?_
  cases hpresent : presentAt tree method.name <;> simp [Option.guard, hpresent]

/-- The methods of a description are declared once each. -/
theorem nodup_methods (tree : Json) : ((DescribedPath.ofTree tree).operations.map (·.1)).Nodup := by
  rw [methods_ofTree]
  exact List.Nodup.filter _ (by decide)

theorem mem_methods_of_describe (hpresent : tree.get? method.name ≠ some .null) :
    method ∈ (DescribedPath.ofTree tree).operations.map (·.1) ↔
      ∃ operation, tree.get? method.name = some operation := by
  constructor
  · intro hmem
    obtain ⟨⟨other, described⟩, hentry, rfl⟩ := List.mem_map.mp hmem
    obtain ⟨operation, hoperation, -⟩ := exists_of_mem_described hentry
    exact ⟨operation, (presentAt_eq_some.mp hoperation).1⟩
  · rintro ⟨operation, hoperation⟩
    refine List.mem_map.mpr ⟨_, mem_operations_of_get? hoperation ?_, rfl⟩
    rintro rfl
    exact hpresent hoperation

/-- A path item has operations for the same methods in both models. -/
theorem methods_perm (hdistinct : tree.Distinct) (hread : PathItem.read tree = .ok item) :
    (item.operations.map (·.1)).Perm ((DescribedPath.ofTree tree).operations.map (·.1)) := by
  have hnodup : (item.operations.map (·.1)).Nodup := by
    obtain ⟨members, rfl, -⟩ := Document.fold_of_read hread
    have hmethods : item.operations.map (·.1) = (members.map (·.1)).filterMap Method.ofName? := by
      rw [Document.methods_of_read hdistinct hread, List.filterMap_map]
      rfl
    rw [hmethods]
    refine (Json.distinct_obj.mp hdistinct).1.filterMap fun first second method hfirst hsecond => ?_
    exact (Document.name_of_ofName? hfirst).symm.trans (Document.name_of_ofName? hsecond)
  refine (List.perm_ext_iff_of_nodup hnodup (nodup_methods tree)).mpr fun method => ?_
  rw [mem_methods_of_read hdistinct hread, mem_methods_of_describe (get?_ne_null_of_read hread)]

end

/-! ## Paths in both models -/

/-- A path of a document and one of a description with the same template and, unless it is a reference
in the description, operations for the same methods. -/
def SameOperations (path : String × PathItem) (described : String × OrReference DescribedPath) :
    Prop :=
  path.1 = described.1 ∧ ∀ item, described.2 = .item item →
    (path.2.operations.map (·.1)).Perm (item.operations.map (·.1))

theorem sameOperations_of_read {member : String × Json} {path : String × PathItem}
    (hdistinct : member.2.Distinct) (htemplate : member.1 = path.1)
    (hread : PathItem.read member.2 = .ok path.2) :
    SameOperations path (member.1, viewReference DescribedPath.ofTree member.2) := by
  refine ⟨htemplate.symm, fun item hitem => ?_⟩
  dsimp only at hitem
  rw [viewReference] at hitem
  split at hitem
  · cases hitem
  · cases hitem
    exact methods_perm hdistinct hread

/-- The paths of a document that start with a slash are those of the description in its order, and both
have operations for the same methods there. -/
theorem operations_agree {tree : Json} {description : Description} {document : Document}
    (hdistinct : tree.Distinct) (hdescribe : describe tree = .ok description)
    (hread : Document.read tree = .ok document) :
    List.Forall₂ SameOperations
      (document.paths.filter fun path => path.1.toList.head? = some '/') description.paths := by
  have hpaths := paths_of_read hdistinct hdescribe hread
  obtain ⟨-, rfl⟩ := exists_members_of_describe hdescribe
  have hall := (List.forall₂_and_left (membersAt tree "paths") _).mpr
    ⟨fun member hmember => distinct_of_mem_membersAt hdistinct hmember, hpaths⟩
  have hview : (Description.ofTree tree).paths =
      ((membersAt tree "paths").filter fun member => KeyClass.path.has member.1).map
        fun member => (member.1, viewReference DescribedPath.ofTree member.2) := rfl
  rw [hview, List.forall₂_map_right_iff]
  have hfiltered := List.rel_filter (p := fun member => KeyClass.path.has member.1)
    (q := fun path : String × PathItem => path.1.toList.head? = some '/')
    (fun member path hrelated => by
      simp [path_has_iff, hrelated.2.1]) hall
  refine (hfiltered.imp fun member path hrelated => ?_).flip
  exact sameOperations_of_read hrelated.1 hrelated.2.1 hrelated.2.2

/-! ## The keys of operations -/

/-- The operations that a tree has keys for: the keys of its paths, each with those keys of its path item
that are names of methods. -/
def operationKeys (tree : Json) : List (String × String) :=
  (membersAt tree "paths").flatMap fun path =>
    ((path.2.members.map (·.1)).filter fun key => key ∈ Method.all.map Method.name).map
      fun key => (path.1, key)

theorem filterMap_ofName? (keys : List String) :
    (keys.filterMap Method.ofName?).map Method.name =
      keys.filter fun key => key ∈ Method.all.map Method.name := by
  rw [List.map_filterMap, ← List.filterMap_eq_filter]
  refine List.filterMap_congr fun key _ => ?_
  cases hmethod : Method.ofName? key with
  | some method =>
      obtain rfl := Document.name_of_ofName? hmethod
      have hmem : method.name ∈ Method.all.map Method.name := List.mem_map_of_mem (Method.mem_all method)
      simp [Option.guard, hmem]
  | none =>
      have hmem : key ∉ Method.all.map Method.name := by
        rintro hmem
        obtain ⟨method, -, rfl⟩ := List.mem_map.mp hmem
        simp [Document.ofName?_name] at hmethod
      simp [Option.guard, hmem]

/-- A document has an operation for each of the keys, in their order, and no other. -/
theorem operationKeys_of_read {tree : Json} {description : Description} {document : Document}
    (hdistinct : tree.Distinct) (hdescribe : describe tree = .ok description)
    (hread : Document.read tree = .ok document) :
    document.operations.map (fun operation => (operation.1, operation.2.1.name)) =
      operationKeys tree := by
  have hall := (List.forall₂_and_left (membersAt tree "paths") _).mpr
    ⟨fun member hmember => distinct_of_mem_membersAt hdistinct hmember,
      paths_of_read hdistinct hdescribe hread⟩
  rw [Document.operations, List.map_flatMap, operationKeys]
  refine (flatMap_eq_of_forall₂ hall fun member path hrelated => ?_).symm
  obtain ⟨hmember, htemplate, hitem⟩ := hrelated
  have hmethods := Document.methods_of_read hmember hitem
  rw [← filterMap_ofName?, List.filterMap_map]
  rw [show (Method.ofName? ∘ fun member : String × Json => member.1) =
    fun member => Method.ofName? member.1 from rfl, ← hmethods]
  simp [htemplate, Function.comp_def]

/-! ## Two orders

The path that strict checks see has its operations in another order than the methods are declared in,
between keys that belong to no method.  Of the other two one does not start with a slash, and one is a
reference in the description. -/

def mixedItem : Json :=
  .obj [("summary", .null), ("post", .obj [("responses", .obj [])]), ("x-get", .null),
    ("get", .obj [("responses", .obj [])]), ("GET", .null)]

def mixedJson : Json :=
  .obj [("openapi", .str "3.0.0"), ("info", .obj [("title", .str ""), ("version", .str "")]),
    ("paths", .obj [("x-a", mixedItem), ("/b", .obj [("$ref", .str "#"), ("get", .obj [])]),
      ("/a", mixedItem)])]

def mixedDocument : Document where
  title := ""
  version := ""
  paths := [("x-a", { operations := [(.post, {}), (.get, {})] }),
    ("/b", { operations := [(.get, {})] }), ("/a", { operations := [(.post, {}), (.get, {})] })]

theorem describe_mixedJson : describe mixedJson = .ok (Description.ofTree mixedJson) := by
  have hcheck : checkDescription mixedJson = .ok () := by cbv
  exact describe_of_check hcheck

/-- Of the three paths two are in the description, and the second of them has both operations. -/
theorem operations_agree_mixed :
    mixedJson.Distinct ∧ describe mixedJson = .ok (Description.ofTree mixedJson) ∧
      Document.read mixedJson = .ok mixedDocument ∧
        (Description.ofTree mixedJson).paths.map (·.1) = ["/b", "/a"] ∧
          ([.post, .get] : List Method).Perm
            ((DescribedPath.ofTree mixedItem).operations.map (·.1)) := by
  have hdistinct : mixedJson.Distinct := by simp [mixedJson, mixedItem]
  have hread : Document.read mixedJson = .ok mixedDocument := rfl
  have hpaths := operations_agree hdistinct describe_mixedJson hread
  refine ⟨hdistinct, describe_mixedJson, hread, rfl, ?_⟩
  cases hpaths with
  | cons hfirst hrest =>
      cases hrest with
      | cons hsecond hnone => exact hsecond.2 _ rfl

end RouteScaffold.OpenApi
