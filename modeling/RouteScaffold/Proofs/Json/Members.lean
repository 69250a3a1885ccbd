import Mathlib.Data.List.Induction
import RouteScaffold.Proofs.Json.Distinct

/-!
# Members put one after the other

Where members are put into an empty object one after the other, each key has the place of its first member
(`keys_foldl_putMember`) and the value of its last (`lookup_foldl_putMember`).
-/

namespace RouteScaffold

section

variable {κ α ι : Type} [DecidableEq κ]

theorem keys_putMember (key : κ) (value : α) (members : List (κ × α)) :
    (putMember key value members).map (·.1) =
      if key ∈ members.map (·.1) then members.map (·.1) else members.map (·.1) ++ [key] := by
  split
  · rename_i hmem
    induction members with
    | nil => cases hmem
    | cons first rest ih =>
        by_cases hkey : first.1 = key
        · rw [putMember, if_pos hkey, List.map_cons, List.map_cons, hkey]
        · rw [List.map_cons, List.mem_cons] at hmem
          have hrest := hmem.resolve_left (Ne.symm hkey)
          rw [putMember, if_neg hkey, List.map_cons, List.map_cons, ih hrest]
  · rename_i hmem
    rw [putMember_of_not_mem hmem, List.map_append]
    rfl

variable (key : ι → κ) (value : ι → α)

/-- The keys of members put one after the other are their keys without repetition, in the order in which they
come first. -/
theorem keys_foldl_putMember (items : List ι) :
    (items.foldl (fun members item => putMember (key item) (value item) members) []).map (·.1) =
      (items.map key).eraseDups := by
  -- from the end, as the last member is put last
  induction items using List.reverseRecOn with
  | nil => rfl
  | append_singleton items item ih =>
      rw [List.foldl_append, List.foldl_cons, List.foldl_nil, keys_putMember, ih, List.map_append,
        List.eraseDups_append]
      simp only [List.mem_eraseDups, List.removeAll, List.map_cons, List.map_nil, List.filter_cons,
        List.filter_nil]
      by_cases hmem : key item ∈ items.map key <;> simp [hmem, List.eraseDups_cons]

theorem lookup_foldl_putMember_of_ne {other : κ} {items : List ι}
    (h : ∀ item ∈ items, key item ≠ other) (members : List (κ × α)) :
    (items.foldl (fun members item => putMember (key item) (value item) members) members).lookup other =
      members.lookup other := by
  induction items generalizing members with
  | nil => rfl
  | cons item rest ih =>
      rw [List.foldl_cons, ih fun next hnext => h next (List.mem_cons_of_mem _ hnext)]
      exact lookup_putMember_ne (Ne.symm (h item List.mem_cons_self)) _ _

/-- Under a key stands the value of the last member with this key. -/
theorem lookup_foldl_putMember {front back : List ι} {item : ι}
    (h : ∀ next ∈ back, key next ≠ key item) :
    ((front ++ item :: back).foldl (fun members item => putMember (key item) (value item) members)
      []).lookup (key item) = some (value item) := by
  rw [List.foldl_append, List.foldl_cons, lookup_foldl_putMember_of_ne key value h]
  exact lookup_putMember_self _ _ _

end

end RouteScaffold
