import RouteScaffold.Document.Reader
import RouteScaffold.Proofs.Document.Record

/-!
# What documents are read from

Where the keys of a tree are distinct, each part of the document that is read from it comes from what
stands under one key: the paths one by one and in their order (`fills_paths`), the operations of a
path, the parameters, and the tables of the components.
-/

namespace RouteScaffold.Document

open Json (Distinct Mismatch)
open OpenApi (Method OrReference)

/-! ## Parameters, bodies and operations -/

theorem fills_name : Fills parameterFields "name" Parameter.name Json.readText :=
  .of_forall (by decide)
    ⟨Field.here fun _ _ => rfl,
      Field.other (by decide) fun _ _ => rfl,
      Field.other (by decide) fun _ _ => rfl,
      Field.other (by decide) fun _ _ => rfl,
      Field.other (by decide) fun _ _ => rfl⟩

theorem fills_location : Fills parameterFields "in" Parameter.location readLocation :=
  .of_forall (by decide)
    ⟨Field.other (by decide) fun _ _ => rfl,
      Field.here fun _ _ => rfl,
      Field.other (by decide) fun _ _ => rfl,
      Field.other (by decide) fun _ _ => rfl,
      Field.other (by decide) fun _ _ => rfl⟩

theorem fills_parameters :
    Fills operationFields "parameters" Operation.parameters (readOptional readParameters) :=
  .of_forall (by decide)
    ⟨Field.here fun _ _ => rfl,
      Field.other (by decide) fun _ _ => rfl⟩

theorem fills_requestBody : Fills operationFields "requestBody" Operation.requestBody
    (readOptional (OrReference.read RequestBody.read)) :=
  .of_forall (by decide)
    ⟨Field.other (by decide) fun _ _ => rfl,
      Field.here fun _ _ => rfl⟩

theorem fills_required : Fills requestBodyFields "required" RequestBody.required Json.readFlag :=
  .of_forall (by decide)
    ⟨Field.here fun _ _ => rfl,
      Field.other (by decide) fun _ _ => rfl⟩

/-- The items of an array are read as parameters, each by itself. -/
theorem forall₂_of_readParameters {tree : Json} {entries : List (OrReference Parameter)}
    (h : readParameters tree = .ok entries) :
    ∃ items, tree = .arr items ∧
      List.Forall₂ (fun item entry => OrReference.read Parameter.read item = .ok entry) items
        entries := by
  unfold readParameters at h
  obtain ⟨items, hitems, h⟩ := bind_eq_ok h
  cases tree with
  | arr found =>
      cases hitems
      exact ⟨items, rfl, forall₂_of_mapM h⟩
  | _ => cases hitems

/-! ## Path items -/

theorem name_of_ofName? {key : String} {method : Method} (h : Method.ofName? key = some method) :
    method.name = key := by
  simpa using List.find?_some h

section

variable {item next : PathItem} {key : String} {tree : Json}

/-- What a member of its object changes of a path item. -/
theorem extend_eq_ok (h : item.extend key tree = .ok next) :
    (key = "parameters" ∧ readParameters tree = .ok next.parameters ∧
        next.operations = item.operations) ∨
      (key ≠ "parameters" ∧ next.parameters = item.parameters ∧
        (next.operations = item.operations ∨ ∃ method operation, method.name = key ∧
          Operation.read tree = .ok operation ∧
            next.operations = putMember method operation item.operations)) := by
  unfold PathItem.extend at h
  split at h
  · rename_i hkey
    split at h
    · rename_i parameters hread
      cases h
      exact .inl ⟨hkey, hread, rfl⟩
    · cases h
  · rename_i hkey
    split at h
    · cases h
      exact .inr ⟨hkey, rfl, .inl rfl⟩
    · rename_i method hmethod
      split at h
      · rename_i operation hread
        cases h
        exact .inr ⟨hkey, rfl, .inr ⟨method, operation, name_of_ofName? hmethod, hread, rfl⟩⟩
      · cases h

/-- A member of a path item under the name of a method, and the operation that is read from it. -/
def ReadsOperation (member : String × Json) (entry : Method × Operation) : Prop :=
  Method.ofName? member.1 = some entry.1 ∧ Operation.read member.2 = .ok entry.2

/-- A member under the name of a new method adds its operation, and others add none. -/
theorem operations_of_extend (h : item.extend key tree = .ok next)
    (hnew : ∀ method ∈ item.operations.map (·.1), method.name ≠ key) :
    (Method.ofName? key = none ∧ next.operations = item.operations) ∨
      ∃ entry, ReadsOperation (key, tree) entry ∧
        next.operations = item.operations ++ [entry] := by
  unfold PathItem.extend at h
  split at h
  · rename_i hkey
    subst hkey
    have hnone : Method.ofName? "parameters" = none := by decide
    split at h
    · cases h
      exact .inl ⟨hnone, rfl⟩
    · cases h
  · split at h
    · rename_i hnone
      cases h
      exact .inl ⟨hnone, rfl⟩
    · rename_i method hmethod
      split at h
      · rename_i operation hread
        cases h
        have hfresh : method ∉ item.operations.map (·.1) := fun hmem =>
          hnew method hmem (name_of_ofName? hmethod)
        exact .inr ⟨(method, operation), ⟨hmethod, hread⟩, putMember_of_not_mem hfresh⟩
      · cases h

theorem operations_of_foldlM {members : List (String × Json)} {draft filled : PathItem}
    (hkeys : (members.map (·.1)).Nodup)
    (hnew : ∀ method ∈ draft.operations.map (·.1), method.name ∉ members.map (·.1))
    (h : members.foldlM (fun (item : PathItem) member => item.extend member.1 member.2) draft =
      .ok filled) :
    ∃ more, filled.operations = draft.operations ++ more ∧
      List.Forall₂ ReadsOperation
        (members.filter fun member => (Method.ofName? member.1).isSome) more := by
  induction members generalizing draft with
  | nil =>
      rw [List.foldlM_nil] at h
      cases h
      exact ⟨[], (List.append_nil _).symm, .nil⟩
  | cons member rest ih =>
      rw [List.foldlM_cons] at h
      obtain ⟨next, hnext, hrest⟩ := bind_eq_ok h
      rw [List.map_cons, List.nodup_cons] at hkeys
      have hold : ∀ method ∈ draft.operations.map (·.1), method.name ∉ rest.map (·.1) :=
        fun method hmem hname => hnew method hmem (List.mem_cons_of_mem _ hname)
      have hother : ∀ method ∈ draft.operations.map (·.1), method.name ≠ member.1 :=
        fun method hmem heq => hnew method hmem (heq ▸ List.mem_cons_self)
      -- a key that names a method adds an operation, and any other key adds none
      rcases operations_of_extend hnext hother with ⟨hnone, hkept⟩ | ⟨entry, hentry, hadded⟩
      · rw [List.filter_cons_of_neg (by simp [hnone]), ← hkept]
        exact ih hkeys.2 (hkept ▸ hold) hrest
      · -- the new method is not the key of a later member, as no key is there twice
        have hlater : ∀ method ∈ next.operations.map (·.1), method.name ∉ rest.map (·.1) := by
          intro method hmem
          rw [hadded, List.map_append, List.mem_append, List.map_singleton,
            List.mem_singleton] at hmem
          rcases hmem with hmem | rfl
          · exact hold method hmem
          · rw [name_of_ofName? hentry.1]
            exact hkeys.1
        obtain ⟨more, hmore, hrelated⟩ := ih hkeys.2 hlater hrest
        rw [List.filter_cons_of_pos (by simp [hentry.1])]
        exact ⟨entry :: more, by rw [hmore, hadded, List.append_assoc, List.singleton_append],
          .cons hentry hrelated⟩

end

section

variable {tree : Json} {item : PathItem}

theorem fold_of_read (h : PathItem.read tree = .ok item) :
    ∃ members, tree = .obj members ∧
      members.foldlM (fun (item : PathItem) member => item.extend member.1 member.2) {} = .ok item := by
  unfold PathItem.read at h
  obtain ⟨members, hmembers, h⟩ := bind_eq_ok h
  cases tree with
  | obj found =>
      cases hmembers
      exact ⟨members, rfl, h⟩
  | _ => cases hmembers

/-- The members of a path item under the names of methods. -/
def operationMembers (item : Json) : List (String × Json) :=
  item.members.filter fun member => (Method.ofName? member.1).isSome

/-- The operations of a path are read from the members under the names of methods, in their order. -/
theorem operations_of_read (hdistinct : tree.Distinct) (h : PathItem.read tree = .ok item) :
    List.Forall₂ ReadsOperation (operationMembers tree) item.operations := by
  obtain ⟨members, rfl, hfold⟩ := fold_of_read h
  have hnone : ∀ method ∈ (({} : PathItem).operations.map (·.1)), method.name ∉ members.map (·.1) := by
    simp
  obtain ⟨more, hmore, hrelated⟩ :=
    operations_of_foldlM (Json.distinct_obj.mp hdistinct).1 hnone hfold
  rw [hmore]
  exact hrelated

theorem methods_of_forall₂ {members : List (String × Json)} {operations : List (Method × Operation)}
    (h : List.Forall₂ ReadsOperation members operations) :
    members.filterMap (fun member => Method.ofName? member.1) = operations.map (·.1) := by
  induction h with
  | nil => rfl
  | cons hentry hrest ih => simp [hentry.1, ih]

/-- The methods of a path are those that its object has keys for. -/
theorem methods_of_read (hdistinct : tree.Distinct) (h : PathItem.read tree = .ok item) :
    item.operations.map (·.1) = tree.members.filterMap fun member => Method.ofName? member.1 := by
  rw [← methods_of_forall₂ (operations_of_read hdistinct h), operationMembers, List.filterMap_filter]
  refine List.filterMap_congr fun member _ => ?_
  cases Method.ofName? member.1 <;> rfl

theorem readFrom_parameters (hdistinct : tree.Distinct) (h : PathItem.read tree = .ok item) :
    ReadFrom readParameters [] (tree.get? "parameters") item.parameters := by
  obtain ⟨members, rfl, hfold⟩ := fold_of_read h
  cases hdistinct with
  | obj hkeys hvalues =>
      refine readFrom_of_foldlM (f := PathItem.parameters) ?_ ?_ hkeys hfold
      · intro draft tree next hnext
        rcases extend_eq_ok hnext with ⟨-, hread, -⟩ | ⟨hne, -⟩
        · exact hread
        · exact absurd rfl hne
      · intro draft member next hne hnext
        rcases extend_eq_ok hnext with ⟨hkey, -⟩ | ⟨-, hkept, -⟩
        · exact absurd hkey hne
        · exact hkept

/-- An operation of a path stands under the name of its method. -/
theorem get?_of_mem_operations (hdistinct : tree.Distinct) (h : PathItem.read tree = .ok item)
    {method : Method} {operation : Operation} (hmem : (method, operation) ∈ item.operations) :
    ∃ child, tree.get? method.name = some child ∧ Operation.read child = .ok operation := by
  obtain ⟨members, rfl, hfold⟩ := fold_of_read h
  have hall : ∀ entry ∈ item.operations, ∃ child, (entry.1.name, child) ∈ members ∧
      Operation.read child = .ok entry.2 := by
    refine foldlM_invariant (P := fun draft => ∀ entry ∈ draft.operations, ∃ child,
      (entry.1.name, child) ∈ members ∧ Operation.read child = .ok entry.2) ?_ (by simp) hfold
    intro member hmember draft next hdraft hnext
    rcases extend_eq_ok hnext with ⟨-, -, hkept⟩ | ⟨-, -, hkept | ⟨method, operation, hname, hread,
      hput⟩⟩
    · rw [hkept]
      exact hdraft
    · rw [hkept]
      exact hdraft
    · rw [hput]
      intro entry hentry
      rcases mem_putMember hentry with rfl | hentry
      · exact ⟨member.2, hname ▸ hmember, hread⟩
      · exact hdraft entry hentry
  obtain ⟨child, hchild, hread⟩ := hall _ hmem
  cases hdistinct with
  | obj hkeys hvalues => exact ⟨child, lookup_of_mem hkeys hchild, hread⟩

end

/-! ## Components -/

theorem fills_schemas : Fills componentsFields "schemas" Components.schemas (readTable .ok) :=
  .of_forall (by decide)
    ⟨Field.here fun _ _ => rfl,
      Field.other (by decide) fun _ _ => rfl,
      Field.other (by decide) fun _ _ => rfl⟩

theorem fills_sharedParameters :
    Fills componentsFields "parameters" Components.parameters (readTable Parameter.read) :=
  .of_forall (by decide)
    ⟨Field.other (by decide) fun _ _ => rfl,
      Field.here fun _ _ => rfl,
      Field.other (by decide) fun _ _ => rfl⟩

theorem fills_requestBodies :
    Fills componentsFields "requestBodies" Components.requestBodies
      (readTable RequestBody.read) :=
  .of_forall (by decide)
    ⟨Field.other (by decide) fun _ _ => rfl,
      Field.other (by decide) fun _ _ => rfl,
      Field.here fun _ _ => rfl⟩

/-! ## Documents -/

theorem fills_paths :
    Fills documentFields "paths" RouteScaffold.Document.paths (readTable PathItem.read) :=
  .of_forall (by decide)
    ⟨Field.other (by decide) fun _ _ => rfl,
      Field.here fun _ _ => rfl,
      Field.other (by decide) fun _ _ => rfl⟩

theorem fills_components :
    Fills documentFields "components" RouteScaffold.Document.components Components.read :=
  .of_forall (by decide)
    ⟨Field.other (by decide) fun _ _ => rfl,
      Field.other (by decide) fun _ _ => rfl,
      Field.here fun _ _ => rfl⟩

end RouteScaffold.Document
