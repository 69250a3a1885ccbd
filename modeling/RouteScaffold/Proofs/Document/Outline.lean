import RouteScaffold.Proofs.OpenApi.Operations

/-!
# What operations are read from

Of a tree little counts for its operations: the keys of the paths, on each of them the keys that are
names of methods, and under each of these the parameters and the body of a request.  Trees that have
this in common have one outline (`SameOutline`), and the documents that are read from them have the
same operations on the same paths (`paths_of_sameOutline`).  The rest of the trees may differ.
-/

namespace RouteScaffold.Document

open Json (Distinct Mismatch)
open OpenApi (Description describe membersAt Method)

/-! ## Records in both forms -/

section

variable {σ α : Type} {record : String} {draft filled : σ} {items : List Json}

/-- The part of a record that is under a key of an object or at a place in an array. -/
def partAt (place : Nat) (key : String) : Json → Option Json
  | .arr items => items[place]?
  | tree => tree.get? key

theorem ReadFrom.unique {read : Json → Except Mismatch α} {default first second : α}
    {found : Option Json} (hfirst : ReadFrom read default found first)
    (hsecond : ReadFrom read default found second) : first = second := by
  cases found with
  | none => exact Eq.trans hfirst (Eq.symm hsecond)
  | some tree => exact Except.ok.inj (Eq.trans (Eq.symm hfirst) hsecond)

end

/-! ## Operations -/

/-- The parameters of an operation and the body of its request are read from its two parts. -/
theorem readFrom_of_operation {tree : Json} {operation : Operation} (hdistinct : tree.Distinct)
    (h : Operation.read tree = .ok operation) :
    ReadFrom (readOptional readParameters) none (partAt 0 "parameters" tree) operation.parameters ∧
      ReadFrom (readOptional (OpenApi.OrReference.read RequestBody.read)) none
        (partAt 1 "requestBody" tree) operation.requestBody := by
  cases tree with
  | obj members =>
      exact ⟨fills_parameters.readFrom hdistinct h, fills_requestBody.readFrom hdistinct h⟩
  | arr items =>
      -- an array has to hold both parts
      rcases items with _ | ⟨parameters, _ | ⟨body, rest⟩⟩
      · cases h
      · obtain ⟨first, hfirst, hrest⟩ := bind_eq_ok h
        cases hrest
      · obtain ⟨first, hfirst, hrest⟩ := bind_eq_ok h
        obtain ⟨entries, hentries, hset⟩ := bind_eq_ok hfirst
        cases hset
        obtain ⟨second, hsecond, hend⟩ := bind_eq_ok hrest
        obtain ⟨found, hfound, hset⟩ := bind_eq_ok hsecond
        cases hset
        rw [Field.fillItems] at hend
        split at hend
        · cases hend
          exact ⟨hentries, hfound⟩
        · cases hend
  | _ => cases h

/-- Members of path items under one key, with the same parameters and the same body. -/
structure SameMember (first second : String × Json) : Prop where
  key_eq : first.1 = second.1
  parameters_eq : partAt 0 "parameters" first.2 = partAt 0 "parameters" second.2
  requestBody_eq : partAt 1 "requestBody" first.2 = partAt 1 "requestBody" second.2

theorem SameMember.entry_eq {first second : String × Json} {entry other : Method × Operation}
    (h : SameMember first second) (hfirst : first.2.Distinct) (hsecond : second.2.Distinct)
    (hentry : ReadsOperation first entry) (hother : ReadsOperation second other) :
    entry = other := by
  obtain ⟨hparameters, hbody⟩ := readFrom_of_operation hfirst hentry.2
  obtain ⟨hparametersOther, hbodyOther⟩ := readFrom_of_operation hsecond hother.2
  rw [← h.parameters_eq] at hparametersOther
  rw [← h.requestBody_eq] at hbodyOther
  have hmethod := hentry.1
  rw [h.key_eq, hother.1, Option.some.injEq] at hmethod
  obtain ⟨method, parameters, body⟩ := entry
  obtain ⟨otherMethod, otherParameters, otherBody⟩ := other
  obtain rfl : parameters = otherParameters := hparameters.unique hparametersOther
  obtain rfl : body = otherBody := hbody.unique hbodyOther
  obtain rfl : otherMethod = method := hmethod
  rfl

/-! ## Outlines -/

/-- Paths with one key whose path items have the same members under the names of methods. -/
def SamePath (first second : String × Json) : Prop :=
  first.1 = second.1 ∧
    List.Forall₂ SameMember (operationMembers first.2) (operationMembers second.2)

/-- Trees with the same paths, and the same operations on them, in one order. -/
def SameOutline (first second : Json) : Prop :=
  List.Forall₂ SamePath (membersAt first "paths") (membersAt second "paths")

theorem distinct_of_mem_operationMembers {item : Json} (h : item.Distinct) {member : String × Json}
    (hmember : member ∈ operationMembers item) : member.2.Distinct := by
  have hmem : member ∈ item.members := List.mem_of_mem_filter hmember
  cases item with
  | obj members => exact (Json.distinct_obj.mp h).2 member hmem
  | _ => cases hmem

theorem operations_of_sameMembers {members others : List (String × Json)}
    {operations more : List (Method × Operation)} (h : List.Forall₂ SameMember members others)
    (hmembers : ∀ member ∈ members, member.2.Distinct)
    (hothers : ∀ member ∈ others, member.2.Distinct)
    (hread : List.Forall₂ ReadsOperation members operations)
    (hreadOther : List.Forall₂ ReadsOperation others more) : operations = more := by
  induction h generalizing operations more with
  | nil =>
      cases hread
      cases hreadOther
      rfl
  | cons hfirst hrest ih =>
      cases hread with
      | cons hentry hentries =>
          cases hreadOther with
          | cons hother hmore =>
              obtain ⟨hdistinct, hlater⟩ := List.forall_mem_cons.mp hmembers
              obtain ⟨hdistinctOther, hlaterOther⟩ := List.forall_mem_cons.mp hothers
              rw [hfirst.entry_eq hdistinct hdistinctOther hentry hother,
                ih hlater hlaterOther hentries hmore]

/-- Paths with the same template and the same operations in one order. -/
def SameOperations (first second : String × PathItem) : Prop :=
  first.1 = second.1 ∧ first.2.operations = second.2.operations

/-- A member under the key for paths and the path that is read from it. -/
def ReadsPath (member : String × Json) (path : String × PathItem) : Prop :=
  member.2.Distinct ∧ member.1 = path.1 ∧ PathItem.read member.2 = .ok path.2

theorem SamePath.operations {first second : String × Json} {path other : String × PathItem}
    (h : SamePath first second) (hpath : ReadsPath first path) (hother : ReadsPath second other) :
    SameOperations path other := by
  refine ⟨(hpath.2.1.symm.trans h.1).trans hother.2.1, ?_⟩
  exact operations_of_sameMembers h.2
    (fun member hmember => distinct_of_mem_operationMembers hpath.1 hmember)
    (fun member hmember => distinct_of_mem_operationMembers hother.1 hmember)
    (operations_of_read hpath.1 hpath.2.2) (operations_of_read hother.1 hother.2.2)

theorem readsPath_of_read {tree : Json} {description : Description} {document : RouteScaffold.Document}
    (hdistinct : tree.Distinct) (hdescribe : describe tree = .ok description)
    (hread : Document.read tree = .ok document) :
    List.Forall₂ ReadsPath (membersAt tree "paths") document.paths :=
  (List.forall₂_and_left (membersAt tree "paths") _).mpr
    ⟨fun _ hmember => OpenApi.distinct_of_mem_membersAt hdistinct hmember,
      OpenApi.paths_of_read hdistinct hdescribe hread⟩

/-- Documents that are read from trees with one outline have the same operations on the same paths. -/
theorem paths_of_sameOutline {first second : Json} {description other : Description}
    {document more : RouteScaffold.Document} (h : SameOutline first second)
    (hfirst : first.Distinct) (hsecond : second.Distinct)
    (hdescribe : describe first = .ok description) (hdescribeOther : describe second = .ok other)
    (hread : Document.read first = .ok document) (hreadOther : Document.read second = .ok more) :
    List.Forall₂ SameOperations document.paths more.paths := by
  have hpaths := readsPath_of_read hfirst hdescribe hread
  have hpathsOther := readsPath_of_read hsecond hdescribeOther hreadOther
  unfold SameOutline at h
  generalize membersAt first "paths" = members at h hpaths
  generalize membersAt second "paths" = others at h hpathsOther
  generalize document.paths = paths at hpaths ⊢
  generalize more.paths = morePaths at hpathsOther ⊢
  induction h generalizing paths morePaths with
  | nil =>
      cases hpaths
      cases hpathsOther
      exact .nil
  | cons hsame hrest ih =>
      cases hpaths with
      | cons hpath hpaths =>
          cases hpathsOther with
          | cons hother hpathsOther =>
              exact .cons (hsame.operations hpath hother) (ih _ hpaths _ hpathsOther)

end RouteScaffold.Document
