import Mathlib
import RouteScaffold.Run.Compile
import RouteScaffold.Proofs.Document.Mention
import RouteScaffold.Proofs.OpenApi.Operations
import RouteScaffold.Proofs.Text.Pieces

/-!
# Violations and their sites

Each check of strict mode is made at sites of its own: the version, the places of the tree where a
reference may stand, the paths of a description, the variables of an operation, and the operation ids.
The violations of a tree are those of its sites, one for each site where a check fails and in the order
of the sites (`listed_violations`), so that a run in strict mode accepts a tree exactly when it is
`Sound` (`validate_strictly`).  A variable that stands twice in a template is two variables of it, and
a text under two keys two references.

Operation ids are counted in a table.  Their order does not depend on that of the table, since
repeated ids are sorted (`sortedRepeats_eq`).
-/

namespace RouteScaffold

/-! ## Lists by sites -/

section Listed

variable {ι κ α β : Type} {before : ι → ι → Prop} {belongs : ι → α → Prop} {values : List α}

/-- A list has what belongs to some sites, one value after the other in the order of the sites. -/
def Listed (before : ι → ι → Prop) (belongs : ι → α → Prop) (values : List α) : Prop :=
  ∃ sites : List (ι × α), sites.Pairwise (fun first second => before first.1 second.1) ∧
    (∀ site value, (site, value) ∈ sites ↔ belongs site value) ∧ values = sites.map (·.2)

theorem Listed.congr {others : ι → α → Prop} (h : Listed before belongs values)
    (hsame : ∀ site value, belongs site value ↔ others site value) :
    Listed before others values := by
  obtain ⟨sites, horder, hmem, rfl⟩ := h
  exact ⟨sites, horder, fun site value => (hmem site value).trans (hsame site value), rfl⟩

theorem Listed.eq_nil_iff (h : Listed before belongs values) :
    values = [] ↔ ∀ site value, ¬ belongs site value := by
  obtain ⟨sites, -, hmem, rfl⟩ := h
  rw [List.map_eq_nil_iff, List.eq_nil_iff_forall_not_mem]
  exact ⟨fun h site value hbelongs => h _ ((hmem site value).mpr hbelongs),
    fun h entry hentry => h entry.1 entry.2 ((hmem entry.1 entry.2).mp hentry)⟩

theorem listed_nil (before : ι → ι → Prop) :
    Listed before (fun _ (_ : α) => False) ([] : List α) :=
  ⟨[], List.Pairwise.nil, by simp, rfl⟩

theorem listed_singleton (before : ι → ι → Prop) (site : ι) (value : α) :
    Listed before (fun other found => other = site ∧ found = value) [value] :=
  ⟨[(site, value)], List.pairwise_singleton _ _, by simp, rfl⟩

/-- The sites of one list come before those of another. -/
theorem Listed.append {others : ι → α → Prop} {more : List α} (h : Listed before belongs values)
    (hmore : Listed before others more)
    (hbefore : ∀ first second value other, belongs first value → others second other →
      before first second) :
    Listed before (fun site value => belongs site value ∨ others site value) (values ++ more) := by
  obtain ⟨sites, horder, hmem, rfl⟩ := h
  obtain ⟨later, horderLater, hmemLater, rfl⟩ := hmore
  refine ⟨sites ++ later, ?_, ?_, (List.map_append).symm⟩
  · refine List.pairwise_append.mpr ⟨horder, horderLater, fun first hfirst second hsecond => ?_⟩
    exact hbefore _ _ _ _ ((hmem _ _).mp hfirst) ((hmemLater _ _).mp hsecond)
  · intro site value
    rw [List.mem_append, hmem, hmemLater]

/-- Sites may be renamed as long as their order is kept. -/
theorem Listed.rename {after : κ → κ → Prop} (h : Listed before belongs values) (rename : ι → κ)
    (hbefore : ∀ first second, before first second → after (rename first) (rename second)) :
    Listed after (fun site value => ∃ old, rename old = site ∧ belongs old value) values := by
  obtain ⟨sites, horder, hmem, rfl⟩ := h
  refine ⟨sites.map fun site => (rename site.1, site.2), ?_, ?_, by simp⟩
  · rw [List.pairwise_map]
    exact horder.imp (hbefore _ _)
  · intro site value
    constructor
    · intro hsite
      obtain ⟨⟨old, found⟩, hold, heq⟩ := List.mem_map.mp hsite
      obtain ⟨rfl, rfl⟩ := Prod.mk.injEq .. ▸ heq
      exact ⟨old, rfl, (hmem _ _).mp hold⟩
    · rintro ⟨old, rfl, hold⟩
      exact List.mem_map.mpr ⟨(old, value), (hmem _ _).mpr hold, rfl⟩

theorem Listed.filterMap (h : Listed before belongs values) (pick : α → Option β) :
    Listed before (fun site found => ∃ value, belongs site value ∧ pick value = some found)
      (values.filterMap pick) := by
  obtain ⟨sites, horder, hmem, rfl⟩ := h
  refine ⟨sites.filterMap fun site => (pick site.2).map (site.1, ·), ?_, ?_, ?_⟩
  · refine horder.filterMap _ fun first second hbefore entry hentry other hother => ?_
    obtain ⟨_, -, rfl⟩ := Option.map_eq_some_iff.mp hentry
    obtain ⟨_, -, rfl⟩ := Option.map_eq_some_iff.mp hother
    exact hbefore
  · intro site found
    rw [List.mem_filterMap]
    constructor
    · rintro ⟨⟨old, value⟩, hvalue, hpicked⟩
      obtain ⟨picked, hpick, heq⟩ := Option.map_eq_some_iff.mp hpicked
      obtain ⟨rfl, rfl⟩ := Prod.mk.injEq .. ▸ heq
      exact ⟨value, (hmem _ _).mp hvalue, hpick⟩
    · rintro ⟨value, hvalue, hpick⟩
      exact ⟨(site, value), (hmem _ _).mpr hvalue, by rw [hpick]; rfl⟩
  · rw [List.map_filterMap, List.filterMap_map]
    congr 1
    funext site
    simp [Option.map_map, Function.comp_def]

/-- A list joined from those of some items has their sites, each behind the index of its item. -/
theorem listed_flatMap {pick : β → List α} {belongs : β → ι → α → Prop} {items : List β}
    (h : ∀ item ∈ items, Listed before (belongs item) (pick item)) :
    Listed (Prod.Lex (fun (index next : Nat) => index < next) before)
      (fun site value => ∃ item, items[site.1]? = some item ∧ belongs item site.2 value)
      (items.flatMap pick) := by
  -- on the items from the end, so that the index of the last is the length of the others
  induction items using List.reverseRecOn with
  | nil => exact (listed_nil _).congr (by simp)
  | append_singleton front last ih =>
      rw [List.flatMap_append, List.flatMap_singleton]
      have hfront := ih fun item hitem => h item (List.mem_append_left _ hitem)
      have hbehind : ∀ first second, before first second →
          Prod.Lex (fun (index next : Nat) => index < next) before (front.length, first)
            (front.length, second) :=
        fun _ _ hbefore => Prod.Lex.right _ hbefore
      have hlast := (h last (by simp)).rename _ hbehind
      refine (hfront.append hlast ?_).congr ?_
      · rintro ⟨index, site⟩ _ _ _ ⟨item, hitem, -⟩ ⟨other, rfl, -⟩
        exact Prod.Lex.left _ _ (List.getElem?_eq_some_iff.mp hitem).1
      · rintro ⟨index, site⟩ value
        constructor
        · rintro (⟨item, hitem, hvalue⟩ | ⟨other, heq, hvalue⟩)
          · have hlength := (List.getElem?_eq_some_iff.mp hitem).1
            exact ⟨item, by rw [List.getElem?_append_left hlength, hitem], hvalue⟩
          · obtain ⟨rfl, rfl⟩ := Prod.mk.injEq .. ▸ heq
            exact ⟨last, by simp, hvalue⟩
        · rintro ⟨item, hitem, hvalue⟩
          by_cases hlength : index < front.length
          · exact .inl ⟨item, by rwa [List.getElem?_append_left hlength] at hitem, hvalue⟩
          · have hindex := (List.getElem?_eq_some_iff.mp hitem).1
            obtain rfl : index = front.length := by
              rw [List.length_append, List.length_singleton] at hindex
              omega
            rw [List.getElem?_concat_length, Option.some.injEq] at hitem
            exact .inr ⟨site, rfl, hitem ▸ hvalue⟩

/-- The sites of a list by itself are its indices. -/
theorem listed_getElem? (values : List α) :
    Listed (· < ·) (fun (index : Nat) value => values[index]? = some value) values := by
  have hitems : Listed (Prod.Lex (fun (index next : Nat) => index < next) fun (_ _ : Unit) => False)
      (fun site value => ∃ item, values[site.1]? = some item ∧ site.2 = () ∧ value = item)
      (values.flatMap fun value => [value]) :=
    listed_flatMap fun value _ => listed_singleton (fun _ _ => False) () value
  rw [List.flatMap_singleton'] at hitems
  refine (hitems.rename Prod.fst ?_).congr ?_
  · rintro ⟨index, _⟩ ⟨other, _⟩ hbefore
    rcases Prod.lex_def.mp hbefore with hlt | ⟨-, hfalse⟩
    · exact hlt
    · exact hfalse.elim
  · intro index value
    constructor
    · rintro ⟨⟨_, _⟩, rfl, item, hitem, -, rfl⟩
      exact hitem
    · intro hvalue
      exact ⟨(index, ()), rfl, value, hvalue, rfl, rfl⟩

/-- A value is there more than once when it belongs to two sites. -/
theorem Listed.one_lt_count_iff [DecidableEq α] (h : Listed before belongs values)
    (hirrefl : ∀ site, ¬ before site site) {value : α} :
    1 < values.count value ↔
      ∃ first second, first ≠ second ∧ belongs first value ∧ belongs second value := by
  classical
  obtain ⟨sites, horder, hmem, rfl⟩ := h
  have hnodup : sites.Nodup := horder.imp fun hbefore heq => by
    subst heq
    exact hirrefl _ hbefore
  have hcount : (sites.map (·.2)).count value = (sites.filter (·.2 = value)).toFinset.card := by
    rw [List.toFinset_card_of_nodup (hnodup.filter _), List.count, List.countP_map, List.countP_eq_length_filter]
    congr 2
  rw [hcount, Finset.one_lt_card]
  simp only [List.mem_toFinset, List.mem_filter, decide_eq_true_eq]
  constructor
  · rintro ⟨⟨first, _⟩, ⟨hfirst, rfl⟩, ⟨second, _⟩, ⟨hsecond, rfl⟩, hne⟩
    exact ⟨first, second, fun heq => hne (by rw [heq]), (hmem _ _).mp hfirst, (hmem _ _).mp hsecond⟩
  · rintro ⟨first, second, hne, hfirst, hsecond⟩
    exact ⟨_, ⟨(hmem _ _).mpr hfirst, rfl⟩, _, ⟨(hmem _ _).mpr hsecond, rfl⟩,
      fun heq => hne (Prod.mk.inj heq).1⟩

end Listed

/-! ## Places of a tree -/

namespace Json

theorem sizeOf_lt_of_mem_children {tree child : Json} (h : child ∈ tree.children) :
    sizeOf child < sizeOf tree := by
  cases tree with
  | arr items =>
      have hitem := List.sizeOf_lt_of_mem (show child ∈ items from h)
      rw [Json.arr.sizeOf_spec]
      omega
  | obj members =>
      obtain ⟨⟨key, value⟩, hmember, rfl⟩ := List.mem_map.mp h
      have hlt := List.sizeOf_lt_of_mem hmember
      rw [Prod.mk.sizeOf_spec] at hlt
      rw [Json.obj.sizeOf_spec]
      show sizeOf value < _
      omega
  | _ => simp [children] at h

/-- What a tree has at a position, the way through its children by their indices. -/
def nodeAt? (tree : Json) : List Nat → Option Json
  | [] => some tree
  | index :: rest => tree.children[index]?.bind fun child => child.nodeAt? rest

end Json

namespace OpenApi

theorem references_eq (tree : Json) :
    references tree = tree.reference?.toList ++ tree.children.flatMap references := by
  cases tree with
  | arr items => rw [references, itemReferences_eq]; rfl
  | obj members => rw [references, memberReferences_eq]; rfl
  | _ => rfl

/-- The references of a tree come in the order of their positions, an object before what it holds. -/
theorem listed_references (tree : Json) :
    Listed (· < ·)
      (fun position text => ∃ node, tree.nodeAt? position = some node ∧ node.reference? = some text)
      (references tree) := by
  have hhere : Listed (· < ·)
      (fun (position : List Nat) text => position = [] ∧ tree.reference? = some text)
      tree.reference?.toList := by
    cases tree.reference? with
    | none => exact (listed_nil _).congr (by simp)
    | some text => exact (listed_singleton _ [] text).congr (by simp [eq_comm])
  have hbelow := listed_flatMap fun child (hchild : child ∈ tree.children) => listed_references child
  have hinside := hbelow.rename (fun site => site.1 :: site.2)
    fun first second hbefore => List.cons_lt_cons_iff.mpr (Prod.lex_def.mp hbefore)
  -- the empty position comes before each that starts with an index
  rw [references_eq]
  refine (hhere.append hinside ?_).congr ?_
  · rintro _ _ _ _ ⟨rfl, -⟩ ⟨_, rfl, -⟩
    exact List.nil_lt_cons _ _
  · intro position text
    cases position with
    | nil => simp [Json.nodeAt?]
    | cons index rest =>
        constructor
        · rintro (⟨hnil, -⟩ | ⟨⟨_, _⟩, heq, child, hchild, node, hnode, htext⟩)
          · simp at hnil
          · obtain ⟨rfl, rfl⟩ := List.cons.injEq .. ▸ heq
            exact ⟨node, by rw [Json.nodeAt?, hchild]; exact hnode, htext⟩
        · rintro ⟨node, hnode, htext⟩
          obtain ⟨child, hchild, hnode⟩ := Option.bind_eq_some_iff.mp hnode
          exact .inr ⟨(index, rest), rfl, child, hchild, node, hnode, htext⟩
termination_by sizeOf tree
decreasing_by exact Json.sizeOf_lt_of_mem_children hchild

/-! ## Sites -/

/-- What is checked of a path: its template, and each variable of the template for each operation. -/
inductive PathSite where
  | template
  | occurrence (operation index : Nat)

/-- What is checked of a tree and its description. -/
inductive Site where
  | version
  | reference (position : List Nat)
  | path (index : Nat) (site : PathSite)
  | operationId (id : String)

/-- The place of a site among those of its path. -/
def PathSite.place : PathSite → List Nat
  | template => []
  | occurrence operation index => [operation, index]

/-- The place of a site among all sites. -/
def Site.place : Site → List Nat
  | version => [0]
  | reference position => 1 :: position
  | path index site => 2 :: index :: site.place
  | operationId id => 3 :: id.toList.map Char.toNat

/-- The order of the sites of a path. -/
def PathSite.Before (first second : PathSite) : Prop := first.place < second.place

/-- The order of sites: the version, the references as they stand in the tree, the paths with their
operations and variables, and the operation ids in ascending order. -/
def Site.Before (first second : Site) : Prop := first.place < second.place

/-! ## What the checks ask for -/

namespace Description

variable {description : Description}

/-- An entry declares a variable: by a parameter in the path, or by a reference to a shared one. -/
inductive Declares (description : Description) :
    OrReference DescribedParameter → String → Prop
  | direct {parameter : DescribedParameter} (hpath : parameter.location = "path") :
    Declares description (.item parameter) parameter.name
  | shared {key : String} {parameter : DescribedParameter}
    (hshared : description.parameters.lookup key = some (.item parameter))
    (hpath : parameter.location = "path") :
    Declares description (.reference ("#/components/parameters/" ++ key)) parameter.name

/-- An operation, or its path, declares a variable. -/
def Covers (description : Description) (path : DescribedPath) (operation : DescribedOperation)
    (name : String) : Prop :=
  ∃ entry ∈ operation.parameters ++ path.parameters, description.Declares entry name

/-- The operation at a site has an id. -/
def HasId (description : Description) (site : Nat × Nat) (id : String) : Prop :=
  ∃ template path method operation, description.paths[site.1]? = some (template, .item path) ∧
    path.operations[site.2]? = some (method, operation) ∧ operation.operationId = some id

end Description

/-- A tree and its description are in order: the version is one of OpenAPI 3, each reference leads
somewhere within the tree, each path starts with a slash, each variable is declared, and no operation
id belongs to two operations. -/
structure Sound (tree : Json) (description : Description) : Prop where
  version : ∃ rest, description.openapi = "3." ++ rest
  references : ∀ position node text, tree.nodeAt? position = some node →
    node.reference? = some text →
      ∃ pointer target, text.toList = '#' :: pointer ∧ tree.pointer? pointer = some target
  templates : ∀ path ∈ description.paths, path.1.toList.head? = some '/'
  declared : ∀ template path, (template, .item path) ∈ description.paths →
    ∀ operation ∈ path.operations, ∀ name ∈ Route.templateVariables template,
      description.Covers path operation.2 name
  operationIds : ∀ first second id, description.HasId first id → description.HasId second id →
    first = second

/-- What is wrong at a site of a path. -/
inductive Description.OffendsPath (description : Description) (template : String)
    (entry : OrReference DescribedPath) : PathSite → Violation → Prop
  | template (hstart : template.toList.head? ≠ some '/') :
    OffendsPath description template entry .template (.relativeTemplate template)
  | undeclared {path : DescribedPath} {place index : Nat} {method : Method}
    {operation : DescribedOperation} {name : String} (hentry : entry = .item path)
    (hoperation : path.operations[place]? = some (method, operation))
    (hname : (Route.templateVariables template)[index]? = some name)
    (huncovered : ¬ description.Covers path operation name) :
    OffendsPath description template entry (.occurrence place index)
      (.undeclaredVariable method template name)

/-- What is wrong at a site. -/
inductive Offends (tree : Json) (description : Description) : Site → Violation → Prop
  | version (hversion : ¬ ∃ rest, description.openapi = "3." ++ rest) :
    Offends tree description .version (.unsupportedVersion description.openapi)
  | external {position : List Nat} {node : Json} {text : String}
    (hnode : tree.nodeAt? position = some node) (htext : node.reference? = some text)
    (hexternal : text.toList.head? ≠ some '#') :
    Offends tree description (.reference position) (.externalReference text)
  | unresolved {position : List Nat} {node : Json} {text : String} {pointer : List Char}
    (hnode : tree.nodeAt? position = some node) (htext : node.reference? = some text)
    (hlocal : text.toList = '#' :: pointer) (hnone : tree.pointer? pointer = none) :
    Offends tree description (.reference position) (.unresolvedReference text)
  | path {index : Nat} {template : String} {entry : OrReference DescribedPath} {site : PathSite}
    {violation : Violation} (hpath : description.paths[index]? = some (template, entry))
    (hoffends : description.OffendsPath template entry site violation) :
    Offends tree description (.path index site) violation
  | operationId {first second : Nat × Nat} {id : String} (hne : first ≠ second)
    (hfirst : description.HasId first id) (hsecond : description.HasId second id) :
    Offends tree description (.operationId id) (.repeatedOperationId id)

/-! ## The version and the references -/

theorem isSupported_iff (version : String) :
    isSupported version = true ↔ ∃ rest, version = "3." ++ rest := by
  rw [isSupported, beq_iff_eq]
  constructor
  · intro htake
    refine ⟨String.ofList (version.toList.drop 2), String.toList_inj.mp ?_⟩
    rw [String.toList_append, String.toList_ofList, String.toList_ofList]
    exact (htake ▸ List.take_append_drop 2 version.toList).symm
  · rintro ⟨rest, rfl⟩
    rw [String.toList_append]
    rfl

theorem referenceViolation_eq_some {tree : Json} {text : String} {violation : Violation} :
    referenceViolation tree text = some violation ↔
      (text.toList.head? ≠ some '#' ∧ violation = .externalReference text) ∨
        ∃ pointer, text.toList = '#' :: pointer ∧ tree.pointer? pointer = none ∧
          violation = .unresolvedReference text := by
  unfold referenceViolation
  split
  · rename_i pointer htext
    cases hpointer : tree.pointer? pointer <;> simp [htext, hpointer, eq_comm]
  · rename_i hexternal
    have hhead : text.toList.head? ≠ some '#' := by
      intro hhead
      obtain ⟨pointer, hpointer⟩ := List.head?_eq_some_iff.mp hhead
      exact hexternal pointer hpointer
    have hlocal : ∀ pointer, text.toList ≠ '#' :: pointer := hexternal
    simp [hhead, hlocal, eq_comm]

/-! ## The paths -/

namespace Description

variable {description : Description}

theorem declares_iff {entry : OrReference DescribedParameter} {name : String} :
    description.Declares entry name ↔
      ∃ parameter, description.parameterOf entry = some parameter ∧
        parameter.location = "path" ∧ parameter.name = name := by
  constructor
  · rintro (⟨hpath⟩ | ⟨hshared, hpath⟩)
    · exact ⟨_, rfl, hpath, rfl⟩
    · rename_i key parameter
      refine ⟨parameter, ?_, hpath, rfl⟩
      have hkey : Text.afterStart? parameterReferenceStart ("#/components/parameters/" ++ key) =
          some key := Text.afterStart?_append _ _
      simp [parameterOf, hkey, hshared, OrReference.item?]
  · rintro ⟨parameter, hof, hpath, rfl⟩
    cases entry with
    | item value => exact Option.some.inj hof ▸ .direct (Option.some.inj hof ▸ hpath)
    | reference text =>
        obtain ⟨key, hkey, hof⟩ := Option.bind_eq_some_iff.mp hof
        obtain ⟨found, hfound, hitem⟩ := Option.bind_eq_some_iff.mp hof
        rw [Text.afterStart?_eq_some.mp hkey]
        cases found with
        | reference other => simp [OrReference.item?] at hitem
        | item value =>
            obtain rfl := Option.some.inj hitem
            exact .shared hfound hpath

theorem mem_declaredNames {entries : List (OrReference DescribedParameter)} {name : String} :
    name ∈ description.declaredNames entries ↔ ∃ entry ∈ entries, description.Declares entry name := by
  simp only [declaredNames, List.mem_map, List.mem_filter, List.mem_filterMap, decide_eq_true_eq,
    declares_iff]
  constructor
  · rintro ⟨parameter, ⟨⟨entry, hentry, hof⟩, hpath⟩, hname⟩
    exact ⟨entry, hentry, parameter, hof, hpath, hname⟩
  · rintro ⟨entry, hentry, parameter, hof, hpath, hname⟩
    exact ⟨parameter, ⟨⟨entry, hentry, hof⟩, hpath⟩, hname⟩

/-- The violations of an operation are at the variables it leaves uncovered. -/
theorem listed_operationViolations (template : String) (path : DescribedPath) (method : Method)
    (operation : DescribedOperation) :
    Listed (· < ·)
      (fun (index : Nat) violation => ∃ name,
        (Route.templateVariables template)[index]? = some name ∧
          ¬ description.Covers path operation name ∧
            violation = .undeclaredVariable method template name)
      (description.operationViolations template (description.declaredNames path.parameters) method
        operation) := by
  classical
  have hpicked := (listed_getElem? (Route.templateVariables template)).filterMap fun name =>
    if description.Covers path operation name then none
    else some (Violation.undeclaredVariable method template name)
  have heq : description.operationViolations template (description.declaredNames path.parameters)
      method operation = (Route.templateVariables template).filterMap fun name =>
        if description.Covers path operation name then none
        else some (.undeclaredVariable method template name) := by
    rw [operationViolations, ← List.filterMap_eq_map, List.filterMap_filter]
    refine List.filterMap_congr fun name _ => ?_
    have hcovers : description.Covers path operation name ↔
        name ∈ description.declaredNames operation.parameters ∨
          name ∈ description.declaredNames path.parameters := by
      simp only [mem_declaredNames, Covers, List.mem_append, or_and_right, exists_or]
    by_cases hname : description.Covers path operation name
    · rcases hcovers.mp hname with h | h <;> simp [hname, h]
    · obtain ⟨hoperation, hpath⟩ := not_or.mp (mt hcovers.mpr hname)
      simp [hname, hoperation, hpath]
  rw [heq]
  refine hpicked.congr fun index violation => exists_congr fun name => and_congr_right fun _ => ?_
  by_cases hname : description.Covers path operation name <;> simp [hname, eq_comm]

theorem listed_pathViolations (template : String) (entry : OrReference DescribedPath) :
    Listed PathSite.Before (description.OffendsPath template entry)
      (description.pathViolations (template, entry)) := by
  have htemplate : Listed PathSite.Before
      (fun site violation => site = .template ∧ template.toList.head? ≠ some '/' ∧
        violation = Violation.relativeTemplate template)
      (if template.toList.head? = some '/' then [] else [Violation.relativeTemplate template]) := by
    split
    · rename_i hstart
      exact (listed_nil _).congr (by simp [hstart])
    · rename_i hstart
      exact (listed_singleton _ PathSite.template _).congr (by simp [hstart])
  cases entry with
  | reference text =>
      -- of a reference only the template is looked at
      rw [pathViolations, List.append_nil]
      refine htemplate.congr fun site violation => ⟨?_, ?_⟩
      · rintro ⟨rfl, hstart, rfl⟩
        exact .template hstart
      · rintro (⟨hstart⟩ | ⟨hentry, -, -, -⟩)
        · exact ⟨rfl, hstart, rfl⟩
        · simp at hentry
  | item path =>
      have hoperations := listed_flatMap fun operation (_ : operation ∈ path.operations) =>
        description.listed_operationViolations template path operation.1 operation.2
      have hvariables : Listed PathSite.Before _ _ := hoperations.rename
        (fun site => .occurrence site.1 site.2) fun first second hbefore => by
          rcases Prod.lex_def.mp hbefore with hlt | ⟨heq, hlt⟩ <;>
            simp [PathSite.Before, PathSite.place, List.cons_lt_cons_iff, *]
      refine (htemplate.append hvariables ?_).congr fun site violation => ⟨?_, ?_⟩
      · rintro _ _ _ _ ⟨rfl, -⟩ ⟨_, rfl, -⟩
        exact List.nil_lt_cons _ _
      · rintro (⟨rfl, hstart, rfl⟩ | ⟨⟨place, index⟩, rfl, ⟨method, operation⟩, hoperation, name, hname,
          huncovered, rfl⟩)
        · exact .template hstart
        · exact .undeclared rfl hoperation hname huncovered
      · rintro (⟨hstart⟩ | ⟨hentry, hoperation, hname, huncovered⟩)
        · exact .inl ⟨rfl, hstart, rfl⟩
        · obtain rfl := OrReference.item.inj hentry
          exact .inr ⟨(_, _), rfl, _, hoperation, _, hname, huncovered, rfl⟩

end Description

/-! ## Operation ids -/

/-- The operation at a place of a path has an id. -/
def HasIdAt (path : String × OrReference DescribedPath) (place : Nat) (id : String) : Prop :=
  ∃ item method operation, path.2 = .item item ∧
    item.operations[place]? = some (method, operation) ∧ operation.operationId = some id

/-- The operation ids come in the order of the operations. -/
theorem listed_operationIds (description : Description) :
    Listed (Prod.Lex (fun (first second : Nat) => first < second)
        (fun (first second : Nat) => first < second))
      description.HasId description.operationIds := by
  have hflat : Listed (Prod.Lex (fun (first second : Nat) => first < second)
        (fun (first second : Nat) => first < second))
      (fun site id => ∃ path, description.paths[site.1]? = some path ∧ HasIdAt path site.2 id)
      description.operationIds := by
    refine listed_flatMap fun path _ => ?_
    obtain ⟨template, reference | item⟩ := path
    · exact (listed_nil _).congr (by simp [HasIdAt])
    · refine ((listed_getElem? item.operations).filterMap fun operation =>
        operation.2.operationId).congr fun place id => ?_
      simp [HasIdAt]
  refine hflat.congr fun site id => ⟨?_, ?_⟩
  · rintro ⟨⟨template, _⟩, hpath, item, method, operation, rfl, hoperation, hid⟩
    exact ⟨template, item, method, operation, hpath, hoperation, hid⟩
  · rintro ⟨template, item, method, operation, hpath, hoperation, hid⟩
    exact ⟨_, hpath, item, method, operation, rfl, hoperation, hid⟩

theorem one_lt_count_operationIds {description : Description} {id : String} :
    1 < description.operationIds.count id ↔
      ∃ first second, first ≠ second ∧ description.HasId first id ∧ description.HasId second id :=
  (listed_operationIds description).one_lt_count_iff fun site hbefore => by
    rcases Prod.lex_def.mp hbefore with hlt | ⟨-, hlt⟩ <;> exact Nat.lt_irrefl _ hlt

theorem nodup_eraseDups (texts : List String) : texts.eraseDups.Nodup := by
  induction hlength : texts.length using Nat.strong_induction_on generalizing texts with
  | _ length ih =>
      cases texts with
      | nil => exact List.nodup_nil
      | cons text rest =>
          rw [List.eraseDups_cons, List.nodup_cons]
          refine ⟨by simp, ih _ ?_ _ rfl⟩
          rw [← hlength, List.length_cons]
          exact Nat.lt_succ_of_le (List.length_filter_le _ _)

theorem pairwise_sorted (texts : List String) :
    (texts.mergeSort fun a b => decide (a ≤ b)).Pairwise (· ≤ ·) := by
  refine (List.pairwise_mergeSort ?_ ?_ texts).imp fun h => of_decide_eq_true h
  · intro a b c hab hbc
    exact decide_eq_true (le_trans (of_decide_eq_true hab) (of_decide_eq_true hbc))
  · intro a b
    rw [← Bool.decide_or]
    exact decide_eq_true (le_total a b)

theorem mem_repeated {texts : List String} {text : String} :
    text ∈ repeated texts ↔ 1 < texts.count text := by
  rw [repeated, List.mem_mergeSort, List.mem_eraseDups, List.mem_filter, decide_eq_true_eq]
  exact ⟨And.right, fun h => ⟨List.count_pos_iff.mp (Nat.zero_lt_of_lt h), h⟩⟩

theorem nodup_repeated (texts : List String) : (repeated texts).Nodup :=
  (List.mergeSort_perm _ _).nodup_iff.mpr (nodup_eraseDups _)

theorem pairwise_repeated (texts : List String) : (repeated texts).Pairwise (· < ·) :=
  ((pairwise_sorted _).and (nodup_repeated texts)).imp fun h => lt_of_le_of_ne h.1 h.2

/-- Each id that belongs to two operations is there once, and the ids ascend. -/
theorem listed_repeated (description : Description) :
    Listed Site.Before
      (fun site violation => ∃ first second id, first ≠ second ∧ description.HasId first id ∧
        description.HasId second id ∧ site = .operationId id ∧
          violation = Violation.repeatedOperationId id)
      ((repeated description.operationIds).map .repeatedOperationId) := by
  refine ⟨(repeated description.operationIds).map fun id => (.operationId id, .repeatedOperationId id),
    ?_, ?_, by simp⟩
  · refine List.pairwise_map.mpr ((pairwise_repeated _).imp fun hlt => ?_)
    refine List.cons_lt_cons_iff.mpr (.inr ⟨rfl, List.map_lt (fun _ _ h => h) ?_⟩)
    exact String.lt_iff_toList_lt.mp hlt
  · intro site violation
    simp only [List.mem_map, mem_repeated, one_lt_count_operationIds, Prod.mk.injEq]
    constructor
    · rintro ⟨id, ⟨first, second, hne, hfirst, hsecond⟩, rfl, rfl⟩
      exact ⟨first, second, id, hne, hfirst, hsecond, rfl, rfl⟩
    · rintro ⟨first, second, id, hne, hfirst, hsecond, rfl, rfl⟩
      exact ⟨id, ⟨first, second, hne, hfirst, hsecond⟩, rfl, rfl⟩

/-! ### Counting in a table -/

/-- The count of each text, as it is kept in a table while the texts are gone through. -/
def tally (texts : List String) : List (String × Nat) :=
  texts.foldl (fun table text => putMember text ((table.lookup text).getD 0 + 1) table) []

/-- The texts of a table that are counted more than once, in ascending order. -/
def sortedRepeats (table : List (String × Nat)) : List String :=
  ((table.filter (1 < ·.2)).map (·.1)).mergeSort fun a b => decide (a ≤ b)

/-- A table has each text of a list with its count. -/
structure IsTally (texts : List String) (table : List (String × Nat)) : Prop where
  keys : (table.map (·.1)).Nodup
  counts : ∀ text, (table.lookup text).getD 0 = texts.count text

theorem isTally_tally (texts : List String) : IsTally texts (tally texts) := by
  induction texts using List.reverseRecOn with
  | nil => exact ⟨List.nodup_nil, fun _ => rfl⟩
  | append_singleton front last ih =>
      rw [tally, List.foldl_append, List.foldl_cons, List.foldl_nil, ← tally]
      refine ⟨nodup_keys_putMember ih.keys, fun text => ?_⟩
      rw [List.count_append, List.count_singleton]
      by_cases hlast : text = last
      · subst hlast
        rw [lookup_putMember_self, Option.getD_some, ih.counts]
        simp
      · rw [lookup_putMember_ne hlast, ih.counts]
        simp [Ne.symm hlast]

/-- In whatever order a table of counts is gone through, the sorted repeats are the same. -/
theorem sortedRepeats_eq {texts : List String} {table : List (String × Nat)}
    (htable : table.Perm (tally texts)) : sortedRepeats table = repeated texts := by
  obtain ⟨hkeys, hcounts⟩ := isTally_tally texts
  have hnodup : ((table.filter (1 < ·.2)).map (·.1)).Nodup :=
    ((htable.map _).nodup_iff.mpr hkeys).sublist (List.filter_sublist.map _)
  refine List.Perm.eq_of_pairwise (fun _ _ _ _ => le_antisymm) (pairwise_sorted _)
    (pairwise_sorted _) ?_
  refine (List.perm_ext_iff_of_nodup ((List.mergeSort_perm _ _).nodup_iff.mpr hnodup)
    (nodup_repeated texts)).mpr fun text => ?_
  rw [mem_repeated, List.mem_mergeSort, ← hcounts]
  simp only [List.mem_map, List.mem_filter, htable.mem_iff, decide_eq_true_eq]
  constructor
  · rintro ⟨⟨_, count⟩, ⟨hmem, hlt⟩, rfl⟩
    rwa [lookup_of_mem hkeys hmem]
  · intro hlt
    cases hcount : (tally texts).lookup text with
    | none => simp [hcount] at hlt
    | some count =>
        rw [hcount] at hlt
        exact ⟨(text, count), ⟨mem_of_lookup hcount, hlt⟩, rfl⟩

/-! ## All violations -/

/-- The violations of a tree are those of its sites, each once and in their order. -/
theorem listed_violations (tree : Json) (description : Description) :
    Listed Site.Before (Offends tree description) (violations tree description) := by
  have hversion : Listed Site.Before
      (fun site violation => site = .version ∧ (¬ ∃ rest, description.openapi = "3." ++ rest) ∧
        violation = Violation.unsupportedVersion description.openapi)
      (if isSupported description.openapi then []
        else [.unsupportedVersion description.openapi]) := by
    split
    · rename_i hsupported
      exact (listed_nil _).congr (by simp [← isSupported_iff, hsupported])
    · rename_i hunsupported
      exact (listed_singleton _ Site.version _).congr (by simp [← isSupported_iff, hunsupported])
  have hreferences : Listed Site.Before _ _ :=
    ((listed_references tree).filterMap (referenceViolation tree)).rename Site.reference
      fun _ _ hlt => List.cons_lt_cons_iff.mpr (.inr ⟨rfl, hlt⟩)
  have hinside : ∀ first second : Nat × PathSite,
      Prod.Lex (fun (index next : Nat) => index < next) PathSite.Before first second →
        Site.Before (.path first.1 first.2) (.path second.1 second.2) := fun first second hbefore =>
    List.cons_lt_cons_iff.mpr (.inr ⟨rfl, List.cons_lt_cons_iff.mpr (Prod.lex_def.mp hbefore)⟩)
  have hpaths := (listed_flatMap fun path (_ : path ∈ description.paths) =>
    description.listed_pathViolations path.1 path.2).rename (fun site => Site.path site.1 site.2) hinside
  -- the four kinds of sites differ in the first number of their places, which is their order
  refine (((hversion.append hreferences ?_).append hpaths ?_).append
    (listed_repeated description) ?_).congr fun site violation => ⟨?_, ?_⟩
  · rintro _ _ _ _ ⟨rfl, -⟩ ⟨_, rfl, -⟩
    simp [Site.Before, Site.place, List.cons_lt_cons_iff]
  · rintro _ _ _ _ (⟨rfl, -⟩ | ⟨_, rfl, -⟩) ⟨_, rfl, -⟩ <;>
      simp [Site.Before, Site.place, List.cons_lt_cons_iff]
  · rintro _ _ _ _ ((⟨rfl, -⟩ | ⟨_, rfl, -⟩) | ⟨_, rfl, -⟩) ⟨_, _, _, -, -, -, rfl, -⟩ <;>
      simp [Site.Before, Site.place, List.cons_lt_cons_iff]
  · rintro (((⟨rfl, hunsupported, rfl⟩ | ⟨position, rfl, text, ⟨node, hnode, htext⟩, hviolation⟩) |
      ⟨⟨index, site⟩, rfl, path, hpath, hoffends⟩) |
      ⟨first, second, id, hne, hfirst, hsecond, rfl, rfl⟩)
    · exact .version hunsupported
    · rcases referenceViolation_eq_some.mp hviolation with ⟨hexternal, rfl⟩ | ⟨pointer, hlocal, hnone, rfl⟩
      · exact .external hnode htext hexternal
      · exact .unresolved hnode htext hlocal hnone
    · exact .path hpath hoffends
    · exact .operationId hne hfirst hsecond
  · rintro (hunsupported | ⟨hnode, htext, hexternal⟩ | ⟨hnode, htext, hlocal, hnone⟩ |
      ⟨hpath, hoffends⟩ | ⟨hne, hfirst, hsecond⟩)
    · exact .inl (.inl (.inl ⟨rfl, hunsupported, rfl⟩))
    · exact .inl (.inl (.inr ⟨_, rfl, _, ⟨_, hnode, htext⟩,
        referenceViolation_eq_some.mpr (.inl ⟨hexternal, rfl⟩)⟩))
    · exact .inl (.inl (.inr ⟨_, rfl, _, ⟨_, hnode, htext⟩,
        referenceViolation_eq_some.mpr (.inr ⟨_, hlocal, hnone, rfl⟩)⟩))
    · exact .inl (.inr ⟨(_, _), rfl, _, hpath, hoffends⟩)
    · exact .inr ⟨_, _, _, hne, hfirst, hsecond, rfl, rfl⟩

/-- A tree is sound when no site of it offends. -/
theorem sound_iff {tree : Json} {description : Description} :
    Sound tree description ↔ ∀ site violation, ¬ Offends tree description site violation := by
  constructor
  · rintro hsound _ _ (hunsupported | ⟨hnode, htext, hexternal⟩ | ⟨hnode, htext, hlocal, hnone⟩ |
      ⟨hpath, hoffends⟩ | ⟨hne, hfirst, hsecond⟩)
    · exact hunsupported hsound.version
    · obtain ⟨pointer, _, hlocal, -⟩ := hsound.references _ _ _ hnode htext
      simp [hlocal] at hexternal
    · obtain ⟨pointer, target, hpointer, htarget⟩ := hsound.references _ _ _ hnode htext
      rw [hlocal, List.cons.injEq] at hpointer
      simp [← hpointer.2, hnone] at htarget
    · cases hoffends with
      | template hstart => exact hstart (hsound.templates _ (List.mem_of_getElem? hpath))
      | undeclared hentry hoperation hname huncovered =>
          subst hentry
          exact huncovered (hsound.declared _ _ (List.mem_of_getElem? hpath) _
            (List.mem_of_getElem? hoperation) _ (List.mem_of_getElem? hname))
    · exact hne (hsound.operationIds _ _ _ hfirst hsecond)
  · intro hnone
    refine ⟨?_, ?_, ?_, ?_, ?_⟩
    · by_contra hunsupported
      exact hnone _ _ (.version hunsupported)
    · intro position node text hnode htext
      -- a text that starts with another character than the hash points out of the tree
      cases hchars : text.toList with
      | nil => exact absurd (.external hnode htext (by simp [hchars])) (hnone _ _)
      | cons first pointer =>
          by_cases hfirst : first = '#'
          · subst hfirst
            cases htarget : tree.pointer? pointer with
            | none => exact absurd (.unresolved hnode htext hchars htarget) (hnone _ _)
            | some target => exact ⟨pointer, target, rfl, htarget⟩
          · exact absurd (.external hnode htext (by simp [hchars, hfirst])) (hnone _ _)
    · intro path hpath
      obtain ⟨index, hindex⟩ := List.mem_iff_getElem?.mp hpath
      by_contra hstart
      exact hnone _ _ (.path hindex (.template hstart))
    · intro template path hpath operation hoperation name hname
      obtain ⟨index, hindex⟩ := List.mem_iff_getElem?.mp hpath
      obtain ⟨place, hplace⟩ := List.mem_iff_getElem?.mp hoperation
      obtain ⟨occurrence, hoccurrence⟩ := List.mem_iff_getElem?.mp hname
      by_contra huncovered
      exact hnone _ _ (.path hindex (.undeclared rfl hplace hoccurrence huncovered))
    · intro first second id hfirst hsecond
      by_contra hne
      exact hnone _ _ (.operationId hne hfirst hsecond)

/-! ## Strict runs -/

/-- The paths of a description come in the order of the tree. -/
theorem paths_sublist (tree : Json) :
    ((Description.ofTree tree).paths.map (·.1)).Sublist ((membersAt tree "paths").map (·.1)) := by
  rw [Description.ofTree, List.map_map]
  exact List.filter_sublist.map _

theorem methods_sublist {tree : Json} {template : String} {path : DescribedPath}
    (hpath : (template, .item path) ∈ (Description.ofTree tree).paths) :
    (path.operations.map (·.1)).Sublist Method.all := by
  obtain ⟨⟨_, item⟩, -, heq⟩ := List.mem_map.mp hpath
  obtain ⟨-, hview⟩ := Prod.mk.inj heq
  rw [viewReference] at hview
  split at hview
  · simp at hview
  · obtain rfl := OrReference.item.inj hview
    rw [methods_ofTree]
    exact List.filter_sublist

end OpenApi

namespace Run

open OpenApi

theorem validate_strict_eq {format : Option Source.Format} {contents : String} {tree : Json}
    {description : Description} (htree : Source.tree format contents = .ok tree)
    (hdescribe : describe tree = .ok description) :
    validate format true contents =
      if violations tree description = [] then .ok (tree, description)
      else .error (.violated (violations tree description)) := by
  simp [validate, htree, hdescribe, Except.mapError, bind, Except.bind, List.isEmpty_iff]

/-- In strict mode a tree that has a description is accepted exactly when it is sound.  Otherwise the
run fails with the violations of all sites, one for each site where something is wrong, in the order of
the sites: paths as they stand in the tree, methods in their own order, and repeated operation ids
ascending, in whatever order the table of their counts is gone through. -/
theorem validate_strictly {tree : Json} {description : Description}
    (hdescribe : describe tree = .ok description) :
    (violations tree description = [] ↔ Sound tree description) ∧
      Listed Site.Before (Offends tree description) (violations tree description) ∧
      (description.paths.map (·.1)).Sublist ((membersAt tree "paths").map (·.1)) ∧
      (∀ template path, (template, .item path) ∈ description.paths →
        (path.operations.map (·.1)).Sublist Method.all) ∧
      (∀ table, table.Perm (tally description.operationIds) →
        sortedRepeats table = repeated description.operationIds) ∧
      ∀ format contents, Source.tree format contents = .ok tree →
        (validate format true contents = .ok (tree, description) ↔ Sound tree description) ∧
        (¬ Sound tree description → ∃ failure, validate format true contents = .error failure ∧
          failure.category = .validation ∧ failure.message =
            "; ".intercalate ((violations tree description).map Violation.message)) := by
  have hsound : violations tree description = [] ↔ Sound tree description :=
    (listed_violations tree description).eq_nil_iff.trans sound_iff.symm
  obtain ⟨-, rfl⟩ := exists_members_of_describe hdescribe
  refine ⟨hsound, listed_violations _ _, paths_sublist tree, fun _ _ => methods_sublist,
    fun _ => sortedRepeats_eq, fun format contents htree => ?_⟩
  rw [validate_strict_eq htree hdescribe, ← hsound]
  split
  · rename_i hnone
    exact ⟨⟨fun _ => hnone, fun _ => rfl⟩, fun hsome => absurd hnone hsome⟩
  · rename_i hsome
    exact ⟨⟨fun heq => by simp at heq, fun hnone => absurd hnone hsome⟩,
      fun _ => ⟨_, rfl, rfl, rfl⟩⟩

/-- The tree with a path that strict checks do not see is sound for them. -/
theorem validate_strictly_loose :
    describe looseJson = .ok (Description.ofTree looseJson) ∧
      Sound looseJson (Description.ofTree looseJson) ∧
      ∀ format contents, Source.tree format contents = .ok looseJson →
        validate format true contents = .ok (looseJson, Description.ofTree looseJson) := by
  obtain ⟨hiff, -, -, -, -, hvalidate⟩ := validate_strictly describe_looseJson
  have hsound := hiff.mp violations_looseJson
  exact ⟨describe_looseJson, hsound, fun format contents htree =>
    (hvalidate format contents htree).1.mpr hsound⟩

end Run

end RouteScaffold
