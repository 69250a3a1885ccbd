import Mathlib.Data.List.Forall2
import RouteScaffold.Document.Record
import RouteScaffold.Proofs.Json.Distinct

/-!
# What records are read from

Two laws of reading records.  What every field of a record keeps, reading the record keeps
(`Field.fillRecord_invariant`), from an object as from an array.  And from an object with distinct
keys a part of a record is read from what stands under its key, and is the default where nothing does
(`Fills.readFrom`): the other members, before and after it, do not matter.
-/

namespace RouteScaffold

/-! ## Steps that may fail -/

section

variable {ε α β : Type}

theorem bind_eq_ok {step : Except ε α} {next : α → Except ε β} {result : β}
    (h : step >>= next = .ok result) : ∃ value, step = .ok value ∧ next value = .ok result := by
  cases step with
  | error fault => cases h
  | ok value => exact ⟨value, rfl, h⟩

theorem map_eq_ok {step : Except ε α} {f : α → β} {result : β} (h : step.map f = .ok result) :
    ∃ value, step = .ok value ∧ f value = result := by
  cases step with
  | error fault => cases h
  | ok value => exact ⟨value, rfl, Except.ok.inj h⟩

theorem map_eq_error {step : Except ε α} {f : α → β} {fault : ε} :
    step.map f = .error fault ↔ step = .error fault := by
  cases step <;> simp [Except.map]

theorem mapError_eq_ok {ε' : Type} {step : Except ε α} {f : ε → ε'} {value : α}
    (h : step.mapError f = .ok value) : step = .ok value := by
  cases step with
  | error fault => simp [Except.mapError] at h
  | ok found => exact congrArg _ (Except.ok.inj h)

theorem forall₂_of_mapM {read : α → Except ε β} {items : List α} {values : List β}
    (h : items.mapM read = .ok values) :
    List.Forall₂ (fun item value => read item = .ok value) items values := by
  induction items generalizing values with
  | nil =>
      rw [List.mapM_nil] at h
      cases h
      exact .nil
  | cons item rest ih =>
      rw [List.mapM_cons] at h
      obtain ⟨value, hvalue, h⟩ := bind_eq_ok h
      obtain ⟨more, hmore, h⟩ := bind_eq_ok h
      cases h
      exact .cons hvalue (ih hmore)

theorem exists_of_forall₂ {R : α → β → Prop} {items : List α} {values : List β}
    (h : List.Forall₂ R items values) {item : α} (hitem : item ∈ items) :
    ∃ value ∈ values, R item value := by
  induction h with
  | nil => simp at hitem
  | cons hfirst hrest ih =>
      rcases List.mem_cons.mp hitem with rfl | hitem
      · exact ⟨_, List.mem_cons_self, hfirst⟩
      · obtain ⟨value, hvalue, hrelated⟩ := ih hitem
        exact ⟨value, List.mem_cons_of_mem _ hvalue, hrelated⟩

theorem flatMap_eq_of_forall₂ {γ : Type} {R : α → β → Prop} {f : α → List γ} {g : β → List γ}
    {items : List α} {values : List β} (h : List.Forall₂ R items values)
    (heq : ∀ item value, R item value → f item = g value) : items.flatMap f = values.flatMap g := by
  induction h with
  | nil => rfl
  | cons hfirst hrest ih => rw [List.flatMap_cons, List.flatMap_cons, heq _ _ hfirst, ih]

theorem map_eq_of_forall₂ {γ : Type} {R : α → β → Prop} {f : α → γ} {g : β → γ} {items : List α}
    {values : List β} (h : List.Forall₂ R items values)
    (heq : ∀ item value, R item value → f item = g value) : items.map f = values.map g := by
  rw [← List.forall₂_eq_eq_eq, List.forall₂_map_left_iff, List.forall₂_map_right_iff]
  exact h.imp heq

theorem forall_mem_iff_of_forall₂ {R : α → β → Prop} {P : α → Prop} {Q : β → Prop} {items : List α}
    {values : List β} (h : List.Forall₂ R items values)
    (hiff : ∀ item value, R item value → (P item ↔ Q value)) :
    (∀ item ∈ items, P item) ↔ ∀ value ∈ values, Q value := by
  induction h with
  | nil => simp
  | cons hfirst hrest ih => rw [List.forall_mem_cons, List.forall_mem_cons, hiff _ _ hfirst, ih]

theorem rel_imp {R S : α → β → Prop} {found : Option α} {other : Option β} (h : Option.Rel R found other)
    (himp : ∀ value ∈ found, ∀ more, R value more → S value more) : Option.Rel S found other := by
  cases h with
  | none => exact .none
  | some hvalue => exact .some (himp _ rfl _ hvalue)

theorem isSome_bind_of_rel {γ δ : Type} {R : α → β → Prop} {f : α → Option γ} {g : β → Option δ}
    {found : Option α} {other : Option β} (h : Option.Rel R found other)
    (heq : ∀ value more, R value more → (f value).isSome = (g more).isSome) :
    (found.bind f).isSome = (other.bind g).isSome := by
  cases h with
  | none => rfl
  | some hvalue => exact heq _ _ hvalue

theorem bind_eq_of_rel {γ : Type} {R : α → β → Prop} {f : α → Option γ} {g : β → Option γ}
    {found : Option α} {other : Option β} (h : Option.Rel R found other)
    (heq : ∀ value more, R value more → f value = g more) : found.bind f = other.bind g := by
  cases h with
  | none => rfl
  | some hvalue => exact heq _ _ hvalue

theorem eq_of_rel {R : α → α → Prop} {found other : Option α} (h : Option.Rel R found other)
    (heq : ∀ value more, R value more → value = more) : found = other := by
  cases h with
  | none => rfl
  | some hvalue => exact congrArg _ (heq _ _ hvalue)

theorem foldlM_invariant {step : β → α → Except ε β} {P : β → Prop} {items : List α}
    {draft filled : β}
    (hstep : ∀ item ∈ items, ∀ draft next, P draft → step draft item = .ok next → P next)
    (hdraft : P draft) (h : items.foldlM step draft = .ok filled) : P filled := by
  induction items generalizing draft with
  | nil =>
      rw [List.foldlM_nil] at h
      cases h
      exact hdraft
  | cons item rest ih =>
      rw [List.foldlM_cons] at h
      obtain ⟨next, hnext, h⟩ := bind_eq_ok h
      obtain ⟨hitem, hrest⟩ := List.forall_mem_cons.mp hstep
      exact ih hrest (hitem draft next hdraft hnext) h

end

namespace Document

open Json (Mismatch Distinct)

variable {σ α : Type}

/-! ## Reading under a key -/

/-- A value is read from what is found, and the default where nothing is. -/
def ReadFrom (read : Json → Except Mismatch α) (default : α) (found : Option Json) (value : α) :
    Prop :=
  match found with
  | none => value = default
  | some tree => read tree = .ok value

/-- What one key decides about a draft is read from the only member with that key. -/
theorem readFrom_of_foldlM {step : σ → String × Json → Except Mismatch σ} {key : String}
    {f : σ → α} {read : Json → Except Mismatch α}
    (hhere : ∀ draft tree next, step draft (key, tree) = .ok next → read tree = .ok (f next))
    (helsewhere : ∀ draft member next, member.1 ≠ key → step draft member = .ok next →
      f next = f draft)
    {members : List (String × Json)} (hkeys : (members.map (·.1)).Nodup) {draft filled : σ}
    (h : members.foldlM step draft = .ok filled) :
    ReadFrom read (f draft) (members.lookup key) (f filled) := by
  induction members generalizing draft with
  | nil =>
      rw [List.foldlM_nil] at h
      cases h
      exact rfl
  | cons member rest ih =>
      obtain ⟨name, tree⟩ := member
      rw [List.foldlM_cons] at h
      obtain ⟨next, hnext, hrest⟩ := bind_eq_ok h
      rw [List.map_cons, List.nodup_cons] at hkeys
      by_cases hname : name = key
      · subst hname
        -- the rest has other keys, so that the part stays as it was read here
        have hkept : f filled = f next := by
          refine foldlM_invariant (P := fun draft => f draft = f next) ?_ rfl hrest
          intro member hmember draft later hdraft hlater
          have hne : member.1 ≠ name := fun heq =>
            hkeys.1 (List.mem_map.mpr ⟨member, hmember, heq⟩)
          exact (helsewhere _ _ _ hne hlater).trans hdraft
        rw [List.lookup_cons_self, hkept]
        exact hhere _ _ _ hnext
      · have hkey : (key == name) = false := by simpa using Ne.symm hname
        have hread := ih hkeys.2 hrest
        rw [helsewhere _ _ _ hname hnext] at hread
        rw [List.lookup_cons, hkey]
        exact hread

/-! ## Records -/

namespace Field

variable {fields : List (Field σ)} {record : String} {draft filled : σ}

/-- Extends a draft by a member of an object. -/
def extend (fields : List (Field σ)) (draft : σ) (member : String × Json) : Except Mismatch σ :=
  match fields.find? (·.key = member.1) with
  | none => .ok draft
  | some field => field.fill draft member.2

theorem fillMembers_eq_foldlM (fields : List (Field σ)) (draft : σ)
    (members : List (String × Json)) :
    fillMembers fields draft members = members.foldlM (extend fields) draft := by
  induction members generalizing draft with
  | nil => rfl
  | cons member rest ih =>
      rw [List.foldlM_cons, extend, fillMembers]
      cases fields.find? (·.key = member.1) with
      | none => exact ih draft
      | some field => exact bind_congr ih

theorem fillMembers_of_fillRecord {members : List (String × Json)}
    (h : fillRecord record fields draft (.obj members) = .ok filled) :
    fillMembers fields draft members = .ok filled := by
  rw [fillRecord] at h
  obtain ⟨found, hfound, h⟩ := bind_eq_ok h
  split at h
  · cases h
  · cases h
    exact hfound

section

variable {P : σ → Prop}

theorem fillMembers_invariant {members : List (String × Json)}
    (hfill : ∀ field ∈ fields, ∀ child ∈ members.map (·.2), ∀ draft next, P draft →
      field.fill draft child = .ok next → P next)
    (hdraft : P draft) (h : fillMembers fields draft members = .ok filled) : P filled := by
  rw [fillMembers_eq_foldlM] at h
  refine foldlM_invariant (fun member hmember draft next hdraft hnext => ?_) hdraft h
  unfold extend at hnext
  split at hnext
  · cases hnext
    exact hdraft
  · rename_i field hfield
    exact hfill field (List.mem_of_find?_eq_some hfield) _ (List.mem_map_of_mem hmember) _ _ hdraft
      hnext

theorem fillItems_invariant {items : List Json} {total index : Nat}
    (hfill : ∀ field ∈ fields, ∀ child ∈ items, ∀ draft next, P draft →
      field.fill draft child = .ok next → P next)
    (hdraft : P draft) (h : fillItems record total index fields draft items = .ok filled) :
    P filled := by
  induction fields generalizing index draft items with
  | nil =>
      rw [fillItems] at h
      split at h
      · cases h
        exact hdraft
      · cases h
  | cons field fields ih =>
      obtain ⟨hfirst, hlater⟩ := List.forall_mem_cons.mp hfill
      cases items with
      | nil =>
          rw [fillItems] at h
          split at h
          · exact ih hlater hdraft h
          · cases h
      | cons item items =>
          rw [fillItems] at h
          obtain ⟨next, hnext, h⟩ := bind_eq_ok h
          refine ih (fun field hfield child hchild => ?_) ?_ h
          · exact hlater field hfield child (List.mem_cons_of_mem _ hchild)
          · exact hfirst item List.mem_cons_self draft next hdraft hnext

/-- What the fields of a record keep is kept by reading the record. -/
theorem fillRecord_invariant {tree : Json}
    (hfill : ∀ field ∈ fields, ∀ child ∈ tree.children, ∀ draft next, P draft →
      field.fill draft child = .ok next → P next)
    (hdraft : P draft) (h : fillRecord record fields draft tree = .ok filled) : P filled := by
  cases tree with
  | obj members => exact fillMembers_invariant hfill hdraft (fillMembers_of_fillRecord h)
  | arr items => exact fillItems_invariant hfill hdraft h
  | _ => cases h

end

end Field

namespace Field

/-- A field fills a part of the drafts by a reading. -/
def Reads (field : Field σ) (get : σ → α) (read : Json → Except Mismatch α) : Prop :=
  ∀ draft tree next, field.fill draft tree = .ok next → read tree = .ok (get next)

/-- A field leaves a part of the drafts as it is. -/
def Keeps (field : Field σ) (get : σ → α) : Prop :=
  ∀ draft tree next, field.fill draft tree = .ok next → get next = get draft

variable {β : Type} {key : String} {absence : Absence} {set : σ → β → σ}

theorem reads_of_set {read : Json → Except Mismatch β} {get : σ → β}
    (h : ∀ draft value, get (set draft value) = value) :
    Reads ⟨key, absence, fun draft tree => return set draft (← read tree)⟩ get read := by
  intro draft tree next hnext
  obtain ⟨value, hvalue, hset⟩ := bind_eq_ok hnext
  cases hset
  rw [h]
  exact hvalue

theorem keeps_of_set {read : Json → Except Mismatch β} {get : σ → α}
    (h : ∀ draft value, get (set draft value) = get draft) :
    Keeps ⟨key, absence, fun draft tree => return set draft (← read tree)⟩ get := by
  intro draft tree next hnext
  obtain ⟨value, -, hset⟩ := bind_eq_ok hnext
  cases hset
  exact h draft value

end Field

/-- The fields of a record fill a part of the drafts by a reading under one key, and under no other. -/
structure Fills (fields : List (Field σ)) (key : String) (get : σ → α)
    (read : Json → Except Mismatch α) : Prop where
  known : key ∈ fields.map (·.key)
  each : ∀ field ∈ fields,
    (field.key = key ∧ field.Reads get read) ∨ (field.key ≠ key ∧ field.Keeps get)

/-- A field with the key of a part fills it by what it sets. -/
theorem Field.here {key : String} {absence : Absence} {read : Json → Except Mismatch α} {get : σ → α}
    {set : σ → α → σ} (h : ∀ draft value, get (set draft value) = value) :
    let field : Field σ := ⟨key, absence, fun draft tree => return set draft (← read tree)⟩
    (field.key = key ∧ field.Reads get read) ∨ (field.key ≠ key ∧ field.Keeps get) :=
  .inl ⟨rfl, reads_of_set h⟩

/-- A field with another key keeps a part that it does not set. -/
theorem Field.other {β : Type} {key name : String} {absence : Absence} {get : σ → α}
    {reading : Json → Except Mismatch β} {read : Json → Except Mismatch α} {set : σ → β → σ}
    (hname : name ≠ key) (h : ∀ draft value, get (set draft value) = get draft) :
    let field : Field σ := ⟨name, absence, fun draft tree => return set draft (← reading tree)⟩
    (field.key = key ∧ field.Reads get read) ∨ (field.key ≠ key ∧ field.Keeps get) :=
  .inr ⟨hname, keeps_of_set h⟩

/-- The fields of a record, each looked at by itself. -/
theorem Fills.of_forall {fields : List (Field σ)} {key : String} {get : σ → α}
    {read : Json → Except Mismatch α} (hknown : key ∈ fields.map (·.key))
    (heach : fields.Forall fun field =>
      (field.key = key ∧ field.Reads get read) ∨ (field.key ≠ key ∧ field.Keeps get)) :
    Fills fields key get read :=
  ⟨hknown, List.forall_iff_forall_mem.mp heach⟩

theorem Fills.reads {fields : List (Field σ)} {key : String} {get : σ → α}
    {read : Json → Except Mismatch α} (h : Fills fields key get read) {field : Field σ}
    (hfield : field ∈ fields) (hkey : field.key = key) : field.Reads get read := by
  rcases h.each field hfield with ⟨-, hreads⟩ | ⟨hne, -⟩
  · exact hreads
  · exact absurd hkey hne

theorem Fills.keeps {fields : List (Field σ)} {key : String} {get : σ → α}
    {read : Json → Except Mismatch α} (h : Fills fields key get read) {field : Field σ}
    (hfield : field ∈ fields) (hkey : field.key ≠ key) : field.Keeps get := by
  rcases h.each field hfield with ⟨heq, -⟩ | ⟨-, hkeeps⟩
  · exact absurd heq hkey
  · exact hkeeps

/-- A part of a record is read from what an object holds under its key. -/
theorem Fills.readFrom {fields : List (Field σ)} {key : String} {get : σ → α}
    {read : Json → Except Mismatch α} (hfills : Fills fields key get read) {record : String}
    {draft filled : σ} {members : List (String × Json)} (hdistinct : Distinct (.obj members))
    (h : Field.fillRecord record fields draft (.obj members) = .ok filled) :
    ReadFrom read (get draft) ((Json.obj members).get? key) (get filled) := by
  have hfold := Field.fillMembers_of_fillRecord h
  rw [Field.fillMembers_eq_foldlM] at hfold
  cases hdistinct with
  | obj hkeys hvalues =>
      refine readFrom_of_foldlM (fun draft tree next hnext => ?_)
        (fun draft member next hne hnext => ?_) hkeys hfold
      · unfold Field.extend at hnext
        split at hnext
        · rename_i hnone
          obtain ⟨field, hfield, hkey⟩ := List.mem_map.mp hfills.known
          exact absurd (List.find?_eq_none.mp hnone field hfield) (by simpa using hkey)
        · rename_i field hfield
          have hkey : field.key = key := by simpa using List.find?_some hfield
          exact hfills.reads (List.mem_of_find?_eq_some hfield) hkey _ _ _ hnext
      · unfold Field.extend at hnext
        split at hnext
        · cases hnext
          rfl
        · rename_i field hfield
          have hkey : field.key = member.1 := by simpa using List.find?_some hfield
          exact hfills.keeps (List.mem_of_find?_eq_some hfield) (hkey ▸ hne) _ _ _ hnext

theorem Fills.read_of_get? {fields : List (Field σ)} {key : String} {get : σ → α}
    {read : Json → Except Mismatch α} (hfills : Fills fields key get read) {record : String}
    {draft filled : σ} {tree child : Json} (hdistinct : tree.Distinct)
    (h : Field.fillRecord record fields draft tree = .ok filled)
    (hchild : tree.get? key = some child) : read child = .ok (get filled) := by
  cases tree with
  | obj members =>
      have hfrom := hfills.readFrom hdistinct h
      rw [hchild] at hfrom
      exact hfrom
  | _ => simp [Json.get?, Json.members] at hchild

/-! ## Tables -/

/-- A table has the members of an object, each read by itself. -/
theorem forall₂_of_readTable {read : Json → Except Mismatch α} {tree : Json}
    {table : List (String × α)} (h : readTable read tree = .ok table) :
    ∃ members, tree = .obj members ∧
      List.Forall₂ (fun member entry => member.1 = entry.1 ∧ read member.2 = .ok entry.2)
        members table := by
  unfold readTable at h
  obtain ⟨members, hmembers, h⟩ := bind_eq_ok h
  cases tree with
  | obj found =>
      cases hmembers
      refine ⟨members, rfl, (forall₂_of_mapM h).imp fun member entry hentry => ?_⟩
      obtain ⟨value, hvalue, hentry⟩ := bind_eq_ok hentry
      cases hentry
      exact ⟨rfl, hvalue⟩
  | _ => cases hmembers

/-- Tables with related entries have related entries under a name, or none. -/
theorem lookup_rel_of_forall₂ {β : Type} {R : String → β → α → Prop} {members : List (String × β)}
    {table : List (String × α)}
    (h : List.Forall₂ (fun member entry => member.1 = entry.1 ∧ R member.1 member.2 entry.2) members
      table)
    (name : String) : Option.Rel (R name) (members.lookup name) (table.lookup name) := by
  induction h with
  | nil => exact .none
  | cons hentry hrest ih =>
      rw [List.lookup_cons, List.lookup_cons, ← hentry.1]
      split
      · rename_i hname
        rw [eq_of_beq hname]
        exact .some hentry.2
      · exact ih

theorem lookup_of_forall₂ {β : Type} {R : β → α → Prop} {members : List (String × β)}
    {table : List (String × α)}
    (h : List.Forall₂ (fun member entry => member.1 = entry.1 ∧ R member.2 entry.2) members table)
    {name : String} {child : β} (hchild : members.lookup name = some child) :
    ∃ value, table.lookup name = some value ∧ R child value := by
  have hrelated := lookup_rel_of_forall₂ (R := fun _ => R) h name
  rw [hchild] at hrelated
  generalize table.lookup name = found at hrelated
  cases hrelated with
  | some hvalue => exact ⟨_, rfl, hvalue⟩

/-- What an object has under a name is read into the table under this name. -/
theorem lookup_of_readTable {read : Json → Except Mismatch α} {tree child : Json}
    {table : List (String × α)} {name : String} (h : readTable read tree = .ok table)
    (hchild : tree.get? name = some child) :
    ∃ value, table.lookup name = some value ∧ read child = .ok value := by
  obtain ⟨members, rfl, hentries⟩ := forall₂_of_readTable h
  exact lookup_of_forall₂ (R := fun child value => read child = .ok value) hentries hchild

end Document

end RouteScaffold
