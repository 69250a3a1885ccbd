import RouteScaffold.Proofs.Document.Forms
import RouteScaffold.Proofs.Document.Reader

/-!
# What readings accept

A tree is read as a part of a document exactly when it has the form of one (`accepts_document`).  There is one law for
each way in which readings are put together, in both directions: a reading of the whole accepts a tree exactly when the
tree has the right kind and the readings of the parts accept what it holds.  What a field of a record accepts does not
depend on the draft (`Field.Takes`), so that the members of an object can be looked at one by one, and the items of an
array one after the other (`accepts_fillRecord`).
-/

namespace RouteScaffold.Document

open Json (Mismatch)
open OpenApi (Method OrReference)

variable {σ α : Type} {tree : Json}

/-- A reading accepts a tree. -/
def Accepts (read : Json → Except Mismatch α) (tree : Json) : Prop :=
  ∃ value, read tree = .ok value

/-! ## Simple readings -/

theorem accepts_ok (tree : Json) : Accepts (.ok : Json → Except Mismatch Json) tree ↔ True :=
  iff_true_intro ⟨tree, rfl⟩

theorem accepts_readText (tree : Json) : Accepts Json.readText tree ↔ IsText tree := by
  constructor
  · rintro ⟨text, htext⟩
    cases tree with
    | str found => exact ⟨found, rfl⟩
    | _ => cases htext
  · rintro ⟨text, rfl⟩
    exact ⟨text, rfl⟩

theorem accepts_readFlag (tree : Json) : Accepts Json.readFlag tree ↔ IsFlag tree := by
  constructor
  · rintro ⟨value, hvalue⟩
    cases tree with
    | bool found => exact ⟨found, rfl⟩
    | _ => cases hvalue
  · rintro ⟨value, rfl⟩
    exact ⟨value, rfl⟩

theorem readName_eq_ok {known : List String} {tree : Json} {name : String} :
    tree.readName known false = .ok name ↔ name ∈ known ∧ (tree = .str name ∨ tree = .obj [(name, .null)]) := by
  constructor
  · intro h
    unfold Json.readName at h
    split at h
    · split at h
      · rename_i hknown
        cases h
        exact ⟨by simpa using hknown, .inl rfl⟩
      · cases h
    · split at h
      · cases h
      · rename_i hknown
        split at h
        · cases h
          exact ⟨by simpa using hknown, .inr rfl⟩
        · cases h
        · cases h
    · cases h
    · cases h
  · rintro ⟨hknown, rfl | rfl⟩
    · simp [Json.readName, hknown]
    · simp [Json.readName, hknown]

theorem accepts_readLocation (tree : Json) : Accepts readLocation tree ↔ IsLocation tree := by
  constructor
  · rintro ⟨location, hlocation⟩
    unfold readLocation at hlocation
    obtain ⟨name, hname, -⟩ := bind_eq_ok hlocation
    exact ⟨name, readName_eq_ok.mp hname⟩
  · rintro ⟨name, hknown, hform⟩
    have hname : tree.readName (Location.all.map Location.name) false = .ok name :=
      readName_eq_ok.mpr ⟨hknown, hform⟩
    rw [Accepts, readLocation, hname]
    simp only [List.mem_cons, List.not_mem_nil, or_false] at hknown
    rcases hknown with rfl | rfl | rfl | rfl
    all_goals exact ⟨_, rfl⟩

/-- A reading that is followed by something that does not fail. -/
theorem exists_map_iff {ε β : Type} {step : Except ε α} {f : α → β} :
    (∃ result, step.map f = .ok result) ↔ ∃ value, step = .ok value := by
  cases step with
  | error fault => simp [Except.map]
  | ok value => simp [Except.map]

/-- What is made of a value that was read does not matter. -/
theorem accepts_then {β : Type} {read : Json → Except Mismatch α} {f : α → β} {tree : Json} :
    Accepts (fun tree => do return f (← read tree)) tree ↔ Accepts read tree := exists_map_iff

/-- A fold succeeds when each of its steps does, where that does not depend on what was reached. -/
theorem exists_foldlM_iff {ε β : Type} {step : β → α → Except ε β} {P : α → Prop}
    (hstep : ∀ draft item, (∃ next, step draft item = .ok next) ↔ P item) {items : List α}
    {draft : β} : (∃ filled, items.foldlM step draft = .ok filled) ↔ ∀ item ∈ items, P item := by
  induction items generalizing draft with
  | nil =>
      refine ⟨fun _ => by simp, fun _ => ⟨draft, ?_⟩⟩
      rw [List.foldlM_nil]
      rfl
  | cons item rest ih =>
      rw [List.forall_mem_cons]
      constructor
      · rintro ⟨filled, hfilled⟩
        rw [List.foldlM_cons] at hfilled
        obtain ⟨next, hnext, hrest⟩ := bind_eq_ok hfilled
        exact ⟨(hstep draft item).mp ⟨next, hnext⟩, ih.mp ⟨filled, hrest⟩⟩
      · rintro ⟨hitem, hrest⟩
        obtain ⟨next, hnext⟩ := (hstep draft item).mpr hitem
        have hlater : ∃ filled, rest.foldlM step next = .ok filled := ih.mpr hrest
        obtain ⟨filled, hfilled⟩ := hlater
        refine ⟨filled, ?_⟩
        rw [List.foldlM_cons, hnext]
        exact hfilled

theorem exists_mapM_iff {ε α β : Type} {read : α → Except ε β} {items : List α} :
    (∃ values, items.mapM read = .ok values) ↔ ∀ item ∈ items, ∃ value, read item = .ok value := by
  constructor
  · rintro ⟨values, hvalues⟩ item hitem
    obtain ⟨value, -, hvalue⟩ := exists_of_forall₂ (forall₂_of_mapM hvalues) hitem
    exact ⟨value, hvalue⟩
  · intro h
    induction items with
    | nil => exact ⟨[], List.mapM_nil⟩
    | cons item rest ih =>
        obtain ⟨hitem, hrest⟩ := List.forall_mem_cons.mp h
        obtain ⟨value, hvalue⟩ := hitem
        obtain ⟨values, hvalues⟩ := ih hrest
        exact ⟨value :: values, by rw [List.mapM_cons, hvalue, hvalues]; rfl⟩

/-! ## Readings of something else

What a reading accepts that is made from another one is told by the form of what the other one accepts. -/

section

variable {read : Json → Except Mismatch α} {form : Json → Prop}

theorem accepts_readOptional (h : ∀ tree, Accepts read tree ↔ form tree) (tree : Json) :
    Accepts (readOptional read) tree ↔ OrNull form tree := by
  rw [OrNull, ← h]
  cases tree with
  | null => exact ⟨fun _ => .inl rfl, fun _ => ⟨none, rfl⟩⟩
  | _ =>
      rw [Accepts, readOptional, exists_map_iff, Accepts]
      · simp
      · simp

/-- A schema may be anything. -/
theorem accepts_schema (tree : Json) :
    Accepts (readOptional (.ok : Json → Except Mismatch Json)) tree ↔ True := by
  rw [accepts_readOptional accepts_ok, OrNull, or_true]

theorem accepts_orReference (h : ∀ tree, Accepts read tree ↔ form tree) (tree : Json) :
    Accepts (OrReference.read read) tree ↔ OrLink form tree := by
  rw [OrLink, ← h, Accepts, OrReference.read]
  cases tree.reference? with
  | some text => simp
  | none =>
      dsimp only
      rw [exists_map_iff]
      exact ⟨fun h _ => h, fun h => h rfl⟩

/-- Reads a member of a table. -/
def readEntry (read : Json → Except Mismatch α) (member : String × Json) :
    Except Mismatch (String × α) :=
  (read member.2).map fun value => (member.1, value)

theorem readTable_obj (read : Json → Except Mismatch α) (members : List (String × Json)) :
    readTable read (.obj members) = members.mapM (readEntry read) := rfl

theorem accepts_readTable (h : ∀ tree, Accepts read tree ↔ form tree) (tree : Json) :
    Accepts (readTable read) tree ↔ IsTable form tree := by
  have hmembers : ∀ members : List (String × Json), Accepts (readTable read) (.obj members) ↔
      ∀ member ∈ members, form member.2 := by
    intro members
    rw [Accepts, readTable_obj, exists_mapM_iff]
    exact forall₂_congr fun member _ => exists_map_iff.trans (h member.2)
  constructor
  · intro haccepts
    obtain ⟨table, htable⟩ := haccepts
    obtain ⟨members, rfl, -⟩ := forall₂_of_readTable htable
    exact ⟨members, rfl, (hmembers members).mp ⟨table, htable⟩⟩
  · rintro ⟨members, rfl, hall⟩
    exact (hmembers members).mpr hall

end

/-! ## Records -/

namespace Field

/-- Whatever the draft is, a field takes what has the form of a slot. -/
structure Takes (field : Field σ) (slot : Slot) : Prop where
  key_eq : field.key = slot.key
  absence_eq : field.absence = slot.absence
  accepts_iff : ∀ draft tree, Accepts (field.fill draft) tree ↔ slot.form tree

/-- A field that sets what is read takes what the reading accepts. -/
theorem Takes.of_set {β : Type} {key : String} {absence : Absence} {set : σ → β → σ}
    {read : Json → Except Mismatch β} {form : Json → Prop} (h : ∀ tree, Accepts read tree ↔ form tree) :
    Takes (⟨key, absence, fun draft tree => return set draft (← read tree)⟩ : Field σ) ⟨key, absence, form⟩ :=
  ⟨rfl, rfl, fun _ tree => accepts_then.trans (h tree)⟩

variable {fields : List (Field σ)} {slots : List Slot} {record : String} {draft : σ}

theorem accepts_fillMembers (htakes : List.Forall₂ Takes fields slots) (hkeys : (slots.map (·.key)).Nodup)
    {members : List (String × Json)} :
    (∃ filled, fillMembers fields draft members = .ok filled) ↔
      ∀ slot ∈ slots, Under members slot.key slot.form := by
  have hstep : ∀ other (member : String × Json),
      (∃ next, extend fields other member = .ok next) ↔
        ∀ slot ∈ slots, slot.key = member.1 → slot.form member.2 := by
    intro other member
    rw [extend]
    -- a member without a field is passed over
    cases hfind : fields.find? (·.key = member.1) with
    | none =>
        refine ⟨fun _ slot hslot hkey => ?_, fun _ => ⟨other, rfl⟩⟩
        obtain ⟨field, hfield, htake⟩ := exists_of_forall₂ htakes.flip hslot
        exact absurd (htake.key_eq.trans hkey) (by simpa using List.find?_eq_none.mp hfind field hfield)
    | some found =>
        have hfound : found.key = member.1 := by simpa using List.find?_some hfind
        obtain ⟨own, hown, htake⟩ := exists_of_forall₂ htakes (List.mem_of_find?_eq_some hfind)
        have hownKey : own.key = member.1 := htake.key_eq.symm.trans hfound
        rw [show (∃ next, found.fill other member.2 = .ok next) ↔ own.form member.2 from
          htake.accepts_iff other member.2]
        constructor
        · intro hform slot hslot hkey
          obtain rfl := List.inj_on_of_nodup_map hkeys hslot hown (hkey.trans hownKey.symm)
          exact hform
        · intro h
          exact h own hown hownKey
  rw [fillMembers_eq_foldlM, exists_foldlM_iff hstep]
  constructor
  · intro h slot hslot child hchild
    exact h _ hchild slot hslot rfl
  · intro h member hmember slot hslot hkey
    exact h slot hslot member.2 (hkey ▸ hmember)

theorem accepts_fillItems (htakes : List.Forall₂ Takes fields slots) {total index : Nat} {items : List Json} :
    (∃ filled, fillItems record total index fields draft items = .ok filled) ↔ InOrder slots items := by
  induction htakes generalizing index draft items with
  | nil =>
      cases items with
      | nil => simp [fillItems, inOrder_nil]
      | cons item rest => simp [fillItems, not_inOrder_nil_cons]
  | @cons field slot fields slots htake hrest ih =>
      cases items with
      | nil =>
          rw [inOrder_nil, List.forall_mem_cons, ← inOrder_nil, ← htake.absence_eq, fillItems]
          by_cases hdefaulted : field.absence = .defaulted
          · rw [if_pos hdefaulted, ih, and_iff_right hdefaulted]
          · simp [hdefaulted]
      | cons item rest =>
          rw [inOrder_cons, ← htake.accepts_iff draft item, Accepts, fillItems]
          cases hfill : field.fill draft item with
          | error fault => simp [bind, Except.bind]
          | ok next =>
              simp only [bind, Except.bind]
              simpa using ih

/-- A record is read from a tree that has the form of one, with a slot for each field. -/
theorem accepts_fillRecord (htakes : List.Forall₂ Takes fields slots) (hkeys : (slots.map (·.key)).Nodup)
    (tree : Json) : Accepts (fillRecord record fields draft) tree ↔ IsRecord slots tree := by
  cases tree with
  | arr items =>
      rw [isRecord_arr]
      exact accepts_fillItems htakes
  | obj members =>
      have hmissing : (fields.find? fun field =>
          field.absence = .refused && !members.any (·.1 = field.key)) = none ↔
            ∀ slot ∈ slots, slot.absence = .refused → slot.key ∈ members.map (·.1) := by
        rw [List.find?_eq_none]
        refine forall_mem_iff_of_forall₂ htakes fun field slot htake => ?_
        simp [htake.key_eq, htake.absence_eq]
      rw [isRecord_obj, ← accepts_fillMembers htakes hkeys, ← hmissing, Accepts, fillRecord]
      constructor
      · rintro ⟨filled, hfilled⟩
        obtain ⟨found, hfound, hrest⟩ := bind_eq_ok hfilled
        refine ⟨⟨found, hfound⟩, ?_⟩
        split at hrest
        · cases hrest
        · assumption
      · rintro ⟨⟨filled, hfilled⟩, hnone⟩
        exact ⟨filled, by rw [hfilled, hnone]; rfl⟩
  | _ =>
      constructor
      · rintro ⟨filled, hfilled⟩
        cases hfilled
      · intro hrecord
        cases hrecord

end Field

/-! ## Parameters, bodies and operations -/

theorem accepts_parameter (tree : Json) : Accepts Parameter.read tree ↔ IsParameter tree := by
  have htakes : List.Forall₂ Field.Takes parameterFields parameterSlots :=
    .cons (.of_set accepts_readText) <| .cons (.of_set accepts_readLocation) <|
      .cons (.of_set accepts_readFlag) <| .cons (.of_set accepts_schema) <|
        .cons (.of_set (accepts_readOptional accepts_readText)) .nil
  exact Field.accepts_fillRecord htakes (by decide) tree

theorem accepts_readParameters (tree : Json) : Accepts readParameters tree ↔ IsParameterList tree := by
  have hitems : ∀ items : List Json, Accepts readParameters (.arr items) ↔
      ∀ item ∈ items, OrLink IsParameter item := by
    intro items
    have haccepts : Accepts readParameters (.arr items) ↔
        ∀ item ∈ items, Accepts (OrReference.read Parameter.read) item := exists_mapM_iff
    rw [haccepts]
    exact forall₂_congr fun item _ => accepts_orReference accepts_parameter item
  constructor
  · rintro ⟨entries, hentries⟩
    obtain ⟨items, rfl, -⟩ := forall₂_of_readParameters hentries
    exact ⟨items, rfl, (hitems items).mp ⟨entries, hentries⟩⟩
  · rintro ⟨items, rfl, hall⟩
    exact (hitems items).mpr hall

theorem accepts_mediaType (tree : Json) : Accepts MediaType.read tree ↔ IsRecord mediaTypeSlots tree := by
  have htakes : List.Forall₂ Field.Takes mediaTypeFields mediaTypeSlots :=
    .cons (.of_set accepts_schema) .nil
  exact Field.accepts_fillRecord htakes (by decide) tree

theorem accepts_requestBody (tree : Json) : Accepts RequestBody.read tree ↔ IsRequestBody tree := by
  have htakes : List.Forall₂ Field.Takes requestBodyFields requestBodySlots :=
    .cons (.of_set accepts_readFlag) <| .cons (.of_set (accepts_readTable accepts_mediaType)) .nil
  exact Field.accepts_fillRecord htakes (by decide) tree

theorem accepts_operation (tree : Json) : Accepts Operation.read tree ↔ IsOperation tree := by
  have htakes : List.Forall₂ Field.Takes operationFields operationSlots :=
    .cons (.of_set (accepts_readOptional accepts_readParameters)) <|
      .cons (.of_set (accepts_readOptional (accepts_orReference accepts_requestBody))) .nil
  exact Field.accepts_fillRecord htakes (by decide) tree

/-! ## Path items -/

theorem ofName?_name (method : Method) : Method.ofName? method.name = some method := by
  cases method <;> decide

theorem name_ne_parameters (method : Method) : method.name ≠ "parameters" := by
  cases method <;> decide

/-- Whether a path item can be extended by a member does not depend on the item. -/
theorem exists_extend_iff (item : PathItem) (key : String) (child : Json) :
    (∃ next, item.extend key child = .ok next) ↔
      (key = "parameters" → Accepts readParameters child) ∧
        ∀ method : Method, key = method.name → Accepts Operation.read child := by
  rw [PathItem.extend]
  by_cases hkey : key = "parameters"
  · subst hkey
    rw [if_pos rfl]
    have hmethod : ∀ method : Method, "parameters" ≠ method.name :=
      fun method => (name_ne_parameters method).symm
    cases hread : readParameters child with
    | ok parameters => simp [Accepts, hread, hmethod]
    | error cause => simp [Accepts, hread]
  · rw [if_neg hkey]
    -- any other key is passed over unless it names a method
    cases hmethod : Method.ofName? key with
    | none =>
        have hnone : ∀ method : Method, key ≠ method.name := by
          rintro method rfl
          simp [ofName?_name] at hmethod
        simp [hkey, hnone]
    | some method =>
        obtain rfl := name_of_ofName? hmethod
        cases hread : Operation.read child with
        | ok operation => simp [Accepts, hread, hkey]
        | error cause =>
            refine ⟨fun h => ?_, fun h => ?_⟩
            · simp at h
            · obtain ⟨operation, hoperation⟩ := h.2 method rfl
              cases hread.symm.trans hoperation

theorem accepts_pathItem (tree : Json) : Accepts PathItem.read tree ↔ IsPathItem tree := by
  have hmembers : ∀ members : List (String × Json), Accepts PathItem.read (.obj members) ↔
      ∀ member ∈ members, (member.1 = "parameters" → Accepts readParameters member.2) ∧
        ∀ method : Method, member.1 = method.name → Accepts Operation.read member.2 :=
    fun _ => exists_foldlM_iff fun item member => exists_extend_iff item member.1 member.2
  constructor
  · intro haccepts
    obtain ⟨item, hitem⟩ := haccepts
    obtain ⟨members, rfl, -⟩ := fold_of_read hitem
    have hall := (hmembers members).mp ⟨item, hitem⟩
    refine ⟨members, rfl, fun child hchild => ?_, fun method child hchild => ?_⟩
    · exact (accepts_readParameters child).mp ((hall _ hchild).1 rfl)
    · exact (accepts_operation child).mp ((hall _ hchild).2 method rfl)
  · rintro ⟨members, rfl, hparameters, hmethods⟩
    refine (hmembers members).mpr ?_
    rintro ⟨key, child⟩ hmember
    refine ⟨?_, ?_⟩
    · rintro rfl
      exact (accepts_readParameters child).mpr (hparameters child hmember)
    · rintro method rfl
      exact (accepts_operation child).mpr (hmethods method child hmember)

/-! ## Components and documents -/

theorem accepts_components (tree : Json) : Accepts Components.read tree ↔ IsComponents tree := by
  have htakes : List.Forall₂ Field.Takes componentsFields componentsSlots :=
    .cons (.of_set (accepts_readTable accepts_ok)) <| .cons (.of_set (accepts_readTable accepts_parameter)) <|
      .cons (.of_set (accepts_readTable accepts_requestBody)) .nil
  exact Field.accepts_fillRecord htakes (by decide) tree

theorem accepts_info (tree : Json) : Accepts Info.read tree ↔ IsInfo tree := by
  have htakes : List.Forall₂ Field.Takes infoFields infoSlots :=
    .cons (.of_set accepts_readText) <| .cons (.of_set accepts_readText) .nil
  exact Field.accepts_fillRecord htakes (by decide) tree

theorem accepts_document (tree : Json) : Accepts Document.read tree ↔ IsDocument tree := by
  have htakes : List.Forall₂ Field.Takes documentFields documentSlots :=
    .cons (.of_set accepts_info) <| .cons (.of_set (accepts_readTable accepts_pathItem)) <|
      .cons (.of_set accepts_components) .nil
  exact Field.accepts_fillRecord htakes (by decide) tree

end RouteScaffold.Document
