import Mathlib.Data.List.Nodup
import RouteScaffold.Json.Basic

/-!
# Trees with distinct keys

Where no object has two members with one key, what stands under a key is the only thing that stands
there, whether it is looked for or met on the way through the members (`lookup_of_mem`).  Putting a
member into an object keeps its keys distinct.
-/

namespace RouteScaffold

/-! ## Members with distinct keys -/

section

variable {κ α : Type} [DecidableEq κ] {key : κ} {value : α} {members : List (κ × α)}

theorem mem_putMember {member : κ × α} (h : member ∈ putMember key value members) :
    member = (key, value) ∨ member ∈ members := by
  induction members with
  | nil => exact Or.inl (List.mem_singleton.mp h)
  | cons first rest ih =>
      by_cases hkey : first.1 = key
      · rw [putMember, if_pos hkey] at h
        exact (List.mem_cons.mp h).imp_right (List.mem_cons_of_mem _)
      · rw [putMember, if_neg hkey] at h
        rcases List.mem_cons.mp h with rfl | hrest
        · exact Or.inr List.mem_cons_self
        · exact (ih hrest).imp_right (List.mem_cons_of_mem _)

/-- A new key goes to the end. -/
theorem putMember_of_not_mem (h : key ∉ members.map (·.1)) :
    putMember key value members = members ++ [(key, value)] := by
  induction members with
  | nil => rfl
  | cons first rest ih =>
      rw [List.map_cons, List.mem_cons, not_or] at h
      rw [putMember, if_neg (Ne.symm h.1), ih h.2, List.cons_append]

theorem nodup_keys_putMember (h : (members.map (·.1)).Nodup) :
    ((putMember key value members).map (·.1)).Nodup := by
  induction members with
  | nil => simp [putMember]
  | cons first rest ih =>
      rw [List.map_cons, List.nodup_cons] at h
      by_cases hkey : first.1 = key
      · rw [putMember, if_pos hkey, List.map_cons, List.nodup_cons, ← hkey]
        exact h
      · rw [putMember, if_neg hkey, List.map_cons, List.nodup_cons]
        refine ⟨fun hmem => ?_, ih h.2⟩
        obtain ⟨member, hmember, hfirst⟩ := List.mem_map.mp hmem
        rcases mem_putMember hmember with rfl | hrest
        · exact hkey hfirst.symm
        · exact h.1 (List.mem_map.mpr ⟨member, hrest, hfirst⟩)

theorem lookup_map {β : Type} (f : α → β) (key : κ) (members : List (κ × α)) :
    (members.map fun member => (member.1, f member.2)).lookup key =
      (members.lookup key).map f := by
  induction members with
  | nil => rfl
  | cons first rest ih =>
      rw [List.map_cons, List.lookup_cons, List.lookup_cons, ih]
      cases key == first.1 <;> rfl

theorem mem_of_lookup (h : members.lookup key = some value) : (key, value) ∈ members := by
  obtain ⟨front, back, rfl, -⟩ := List.lookup_eq_some_iff.mp h
  simp

/-- With distinct keys a member is what is found under its key. -/
theorem lookup_of_mem (h : (members.map (·.1)).Nodup) (hmem : (key, value) ∈ members) :
    members.lookup key = some value := by
  obtain ⟨front, back, rfl⟩ := List.append_of_mem hmem
  rw [List.map_append, List.map_cons] at h
  have hfront : key ∉ front.map (·.1) := fun hkey =>
    (List.nodup_append.mp h).2.2 key hkey key List.mem_cons_self rfl
  refine List.lookup_eq_some_iff.mpr ⟨front, back, rfl, fun member hmember => ?_⟩
  have hne : key ≠ member.1 := by
    rintro rfl
    exact hfront (List.mem_map_of_mem hmember)
  simpa using hne

end

namespace Json

/-! ## Trees -/

/-- The keys of each object in a tree are distinct. -/
inductive Distinct : Json → Prop
  | null : Distinct null
  | bool (value : Bool) : Distinct (bool value)
  | num (value : Number) : Distinct (num value)
  | str (text : String) : Distinct (str text)
  | arr {items : List Json} (hitems : ∀ item ∈ items, Distinct item) : Distinct (arr items)
  | obj {members : List (String × Json)} (hkeys : (members.map (·.1)).Nodup)
      (hvalues : ∀ member ∈ members, Distinct member.2) : Distinct (obj members)

@[simp] theorem distinct_null : Distinct null := .null

@[simp] theorem distinct_bool (value : Bool) : Distinct (bool value) := .bool value

@[simp] theorem distinct_num (value : Number) : Distinct (num value) := .num value

@[simp] theorem distinct_str (text : String) : Distinct (str text) := .str text

@[simp] theorem distinct_arr {items : List Json} :
    Distinct (arr items) ↔ ∀ item ∈ items, item.Distinct :=
  ⟨fun | .arr hitems => hitems, .arr⟩

@[simp] theorem distinct_obj {members : List (String × Json)} :
    Distinct (obj members) ↔
      (members.map (·.1)).Nodup ∧ ∀ member ∈ members, member.2.Distinct :=
  ⟨fun | .obj hkeys hvalues => ⟨hkeys, hvalues⟩, fun h => .obj h.1 h.2⟩

/-- The trees that an array or an object holds. -/
def children : Json → List Json
  | arr items => items
  | obj members => members.map (·.2)
  | _ => []

theorem mem_children_of_get? {tree child : Json} {key : String} (h : tree.get? key = some child) :
    child ∈ tree.children := by
  cases tree with
  | obj members => exact List.mem_map.mpr ⟨_, mem_of_lookup h, rfl⟩
  | _ => simp [get?, members] at h

theorem Distinct.of_mem_children {tree child : Json} (h : tree.Distinct)
    (hchild : child ∈ tree.children) : child.Distinct := by
  cases tree with
  | arr items => exact distinct_arr.mp h child hchild
  | obj members =>
      obtain ⟨member, hmember, rfl⟩ := List.mem_map.mp hchild
      exact (distinct_obj.mp h).2 member hmember
  | _ => simp [children] at hchild

theorem Distinct.get? {tree child : Json} {key : String} (h : tree.Distinct)
    (hchild : tree.get? key = some child) : child.Distinct :=
  h.of_mem_children (mem_children_of_get? hchild)

theorem Distinct.putMember {members : List (String × Json)} {value : Json}
    (hmembers : Distinct (.obj members)) (hvalue : value.Distinct) (key : String) :
    Distinct (.obj (putMember key value members)) := by
  rw [distinct_obj] at hmembers ⊢
  refine ⟨nodup_keys_putMember hmembers.1, fun member hmember => ?_⟩
  rcases mem_putMember hmember with rfl | hmember
  · exact hvalue
  · exact hmembers.2 member hmember

theorem Distinct.cons {items : List Json} {item : Json} (hitem : item.Distinct)
    (hitems : Distinct (.arr items)) : Distinct (.arr (item :: items)) := by
  rw [distinct_arr] at hitems ⊢
  simpa [hitem] using hitems

theorem Distinct.reverse {items : List Json} (h : Distinct (.arr items)) :
    Distinct (.arr items.reverse) := by
  simpa using h

theorem Distinct.empty : Distinct (.obj []) := by simp

theorem Distinct.nil : Distinct (.arr []) := by simp

end Json

end RouteScaffold
