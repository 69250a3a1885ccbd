import Mathlib.Data.List.Infix
import RouteScaffold.Proofs.Files.Resume

/-!
# Directories that are made in part

A call that makes a directory with its parents goes from the outermost parent inwards, and ends at the
first one that it cannot make.  So what it leaves when it fails is what making one of the parents leaves,
or nothing is changed (`opensPartly_of_fault`).

Which parents were made is read off the call (`changes_of_fault`).  That those before the last one are on
its way is a fact about texts: each parent is made of the first components of the path
(`locationOf_mem_wayTo_take`).
-/

namespace RouteScaffold.Files

/-! ## Parents on the way of parents -/

theorem exists_of_suffix_range {α : Type} {f : Nat → α} {count : Nat} {first : α} {rest : List α}
    (h : first :: rest <:+ (List.range count).reverse.map f) :
    ∃ index, first = f index ∧ rest = (List.range index).reverse.map f := by
  induction count with
  | zero => simp at h
  | succ count ih =>
      rw [List.range_succ, List.reverse_append, List.reverse_singleton, List.singleton_append,
        List.map_cons, List.suffix_cons_iff] at h
      rcases h with h | h
      · obtain ⟨hfirst, hrest⟩ := List.cons.inj h
        exact ⟨count, hfirst, hrest⟩
      · exact ih h

namespace FileTree

variable {tree : FileTree} {path : List Char} {parents : List (List Char)}

/-- The path of the first components leads to a location on the way of the path of some more. -/
theorem locationOf_mem_wayTo_take (tree : FileTree) (path : List Char) {few more : Nat}
    (hle : few ≤ more)
    (hsteps : steps (String.ofList (ofComponents ((components path).take few))) ≠ []) :
    tree.locationOf (String.ofList (ofComponents ((components path).take few))) ∈
      tree.wayTo (String.ofList (ofComponents ((components path).take more))) := by
  have hfew : few ≠ 0 := by
    rintro rfl
    exact hsteps rfl
  rw [take_components hfew] at hsteps ⊢
  rw [take_components (by omega)]
  have hinner : ∀ count, (inner path).take count <+: inner path := fun count =>
    List.take_prefix count _
  have htake : (inner path).take (few - (start path).length) <+:
      (inner path).take (more - (start path).length) :=
    List.take_isPrefix_take.mpr (.inl (by omega))
  have habsolute := (isAbsolute_start_append path (hinner (few - (start path).length))).trans
    (isAbsolute_start_append path (hinner (more - (start path).length))).symm
  rw [locationOf, wayTo, startOf_eq_of_isAbsolute habsolute]
  refine mem_way.mpr ⟨_, hsteps, ?_, rfl⟩
  rw [steps_start_append path (hinner _), steps_start_append path (hinner _)]
  exact (List.prefix_append_right_inj _).mpr (htake.flatMap _)

/-! ## Failing -/

theorem changes_finish_of_fault {made : Made} (h : (tree.finish path made).fault ≠ none) :
    (tree.finish path made).changes = made.changes := by
  unfold finish at h ⊢
  split at h
  · rw [if_pos ‹_›]
  rename_i hfault
  rw [if_neg hfault]
  split at h
  · simp [h] at hfault
  · rfl
  · rfl
  · rfl

/-- A call that fails has made what making one of the parents makes, or nothing. -/
theorem changes_of_fault (h : (tree.makeWithin path parents).fault ≠ none) :
    (tree.makeWithin path parents).changes = [] ∨
      ∃ parent outer, parent :: outer <:+ parents ∧ (tree.makeWithin parent outer).fault = none ∧
        (tree.makeWithin path parents).changes = (tree.makeWithin parent outer).changes := by
  have hmakes := tree.makes_makeWithin path parents
  generalize tree.makeWithin path parents = made at hmakes h ⊢
  induction hmakes with
  | nothing => exact absurd rfl h
  | met => exact .inl (changes_finish_of_fault h)
  | missing => exact .inl rfl
  | within hne hspot hparent ih =>
      rename_i parent outer made
      rw [changes_finish_of_fault h]
      by_cases hok : made.fault = none
      · obtain rfl := hparent.makeWithin_eq
        exact .inr ⟨parent, outer, List.suffix_rfl, hok, rfl⟩
      · rcases ih hok with hnothing | ⟨inner, rest, hsuffix, hinner, hchanges⟩
        · exact .inl hnothing
        · exact .inr ⟨inner, rest, hsuffix.trans (List.suffix_cons _ _), hinner, hchanges⟩

/-- What making a directory leaves when it fails: the way to the empty path or to one of the parents is
there, so that all that is new are directories on the way. -/
structure OpensPartly (before : FileTree) (path : String) (after : FileTree) : Prop where
  opens : ∃ parent ∈ [] :: Files.parents path.toList, before.Opens (String.ofList parent) after
  grows : ∃ created, created ⊆ before.wayTo path ∧ before.Grows created after

theorem opens_of_suffix {text : String} {parent : List Char} {outer : List (List Char)}
    (hsuffix : parent :: outer <:+ Files.parents text.toList)
    (hok : (tree.makeWithin parent outer).fault = none) :
    tree.Opens (String.ofList parent) (tree.applyAll (tree.makeWithin parent outer).changes) := by
  obtain ⟨index, rfl, rfl⟩ := exists_of_suffix_range hsuffix
  refine (makesWay_makeWithin tree fun passed hpassed hsteps => ?_).opens hok
  rcases List.mem_cons.mp hpassed with rfl | hpassed
  · exact follow_mem_way _ hsteps
  · obtain ⟨count, hcount, rfl⟩ := List.mem_map.mp hpassed
    have hlt := List.mem_range.mp (List.mem_reverse.mp hcount)
    exact tree.locationOf_mem_wayTo_take _ hlt.le hsteps

theorem opensPartly_of_fault {text : String} (h : (tree.makeDirectories text).fault ≠ none) :
    tree.OpensPartly text (tree.applyAll (tree.makeDirectories text).changes) := by
  refine ⟨?_, makeDirectories_grows tree text _ List.prefix_rfl⟩
  rcases changes_of_fault h with hnothing | ⟨parent, outer, hsuffix, hok, hchanges⟩
  · refine ⟨[], List.mem_cons_self, ?_⟩
    rw [makeDirectories, hnothing]
    exact ⟨Grows.refl tree, fun other hother => by cases hother⟩
  · refine ⟨parent, List.mem_cons_of_mem _ (hsuffix.subset List.mem_cons_self), ?_⟩
    rw [makeDirectories, hchanges]
    exact opens_of_suffix hsuffix hok

end FileTree

end RouteScaffold.Files
