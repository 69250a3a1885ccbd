import RouteScaffold.Proofs.Files.Resume

/-!
# What a path looks at

Following a path looks at the location where the path starts and at those on its way, and nowhere else
(`AlikeOn.spot_eq`).  So calls do the same on trees that have one shape at these locations only, and
making directories, which follows the parents of its path, looks at no more than its path does
(`AlikeOn.makeDirectories_eq`).  A change has the same effect on both trees when the directory it puts
something into is among those locations.
-/

namespace RouteScaffold.Files

namespace FileTree

variable {tree first second : FileTree} {seen : Location → Prop}

/-- The locations that a path looks at: where it starts, and those on its way. -/
def visits (tree : FileTree) (path : String) : List Location := tree.startOf path :: tree.wayTo path

theorem visits_congr (h : first.current = second.current) (path : String) :
    first.visits path = second.visits path := by
  rw [visits, visits, startOf_congr h, wayTo_congr h]

/-- Trees with directories and files in the same places, as far as some locations go. -/
structure AlikeOn (seen : Location → Prop) (first second : FileTree) : Prop where
  current_eq : first.current = second.current
  shapeAt?_eq : ∀ location, seen location → first.shapeAt? location = second.shapeAt? location

/-- Each of some changes puts something into a directory at one of some locations. -/
def PutsWithin (seen : Location → Prop) (changes : List Change) : Prop :=
  ∀ change ∈ changes, change.location ≠ [] → seen change.location.dropLast

theorem current_applyAll (tree : FileTree) (changes : List Change) :
    (tree.applyAll changes).current = tree.current := by
  induction changes generalizing tree with
  | nil => rfl
  | cons change rest ih => exact (ih _).trans (by rw [apply_eq])

namespace AlikeOn

/-! ### Changes -/

variable {change : Change} {changes : List Change}

theorem puts_iff (h : AlikeOn seen first second)
    (hchange : change.location ≠ [] → seen change.location.dropLast) :
    (change.location = [] ∨ first.shapeAt? change.location.dropLast = some true) ↔
      (change.location = [] ∨ second.shapeAt? change.location.dropLast = some true) := by
  by_cases hroot : change.location = []
  · simp [hroot]
  · rw [h.shapeAt?_eq _ (hchange hroot)]

/-- Where two trees agree they still do after a change. -/
theorem kindAt?_apply (h : AlikeOn seen first second)
    (hchange : change.location ≠ [] → seen change.location.dropLast) {location : Location}
    (hsame : first.kindAt? location = second.kindAt? location) :
    (first.apply change).kindAt? location = (second.apply change).kindAt? location := by
  simp only [FileTree.kindAt?_apply, h.puts_iff hchange, hsame]

theorem apply (h : AlikeOn seen first second)
    (hchange : change.location ≠ [] → seen change.location.dropLast) :
    AlikeOn seen (first.apply change) (second.apply change) := by
  refine ⟨by rw [apply_eq, apply_eq]; exact h.current_eq, fun location hlocation => ?_⟩
  rw [shapeAt?, shapeAt?]
  simp only [FileTree.kindAt?_apply, h.puts_iff hchange]
  split
  · rfl
  · exact h.shapeAt?_eq location hlocation

theorem applyAll (h : AlikeOn seen first second) (hchanges : PutsWithin seen changes) :
    AlikeOn seen (first.applyAll changes) (second.applyAll changes) := by
  induction changes generalizing first second with
  | nil => exact h
  | cons change rest ih =>
      obtain ⟨hchange, hrest⟩ := List.forall_mem_cons.mp hchanges
      exact ih (h.apply hchange) hrest

theorem kindAt?_applyAll (h : AlikeOn seen first second) (hchanges : PutsWithin seen changes)
    {location : Location} (hsame : first.kindAt? location = second.kindAt? location) :
    (first.applyAll changes).kindAt? location = (second.applyAll changes).kindAt? location := by
  induction changes generalizing first second with
  | nil => exact hsame
  | cons change rest ih =>
      obtain ⟨hchange, hrest⟩ := List.forall_mem_cons.mp hchanges
      exact ih (h.apply hchange) hrest (h.kindAt?_apply hchange hsame)

/-! ### Following paths -/

theorem spotFrom_eq (h : AlikeOn seen first second) {location : Location} {steps : List String}
    (hseen : ∀ visited ∈ location :: way location steps, seen visited) :
    first.spotFrom location steps = second.spotFrom location steps := by
  induction steps generalizing location with
  | nil => rw [spotFrom_nil, spotFrom_nil, h.shapeAt?_eq _ (hseen _ List.mem_cons_self)]
  | cons step rest ih =>
      obtain ⟨hhere, hway⟩ := List.forall_mem_cons.mp hseen
      rw [way] at hway
      rw [spotFrom_followStep, spotFrom_followStep, h.shapeAt?_eq _ hhere,
        h.shapeAt?_eq _ (hway _ List.mem_cons_self), ih hway]

theorem spot_eq (h : AlikeOn seen first second) {path : String}
    (hseen : ∀ visited ∈ first.visits path, seen visited) : first.spot path = second.spot path := by
  by_cases hpasses : Passes path
  · rw [spot_of_passes hpasses, spot_of_passes hpasses, ← startOf_congr h.current_eq]
    exact h.spotFrom_eq hseen
  · obtain ⟨fault, -, hfault⟩ := spot_of_not_passes hpasses
    rw [hfault, hfault]

end AlikeOn

/-! ### What is found and what is changed -/

theorem mem_of_spotFrom_free {location directory : Location} {steps : List String} {name : String}
    (h : tree.spotFrom location steps = .ok (.free directory name)) :
    directory ∈ location :: way location steps := by
  induction steps generalizing location with
  | nil =>
      rw [spotFrom_nil] at h
      split at h <;> cases h
  | cons step rest ih =>
      rw [spotFrom_followStep] at h
      rw [way, List.mem_cons]
      split at h
      · cases h
      · cases h
      split at h
      · cases h
      split at h
      · cases h
        exact .inl rfl
      · exact .inr (ih h)

/-- A name is found free in a directory that the path looks at. -/
theorem mem_visits_of_spot_free {path : String} {directory : Location} {name : String}
    (h : tree.spot path = .ok (.free directory name)) : directory ∈ tree.visits path := by
  rw [spot_of_passes (passes_of_spot h)] at h
  exact mem_of_spotFrom_free h

/-- A path within another one looks at nothing else. -/
theorem visits_subset {parent path : List Char} (h : Within parent path) (hne : parent ≠ []) :
    tree.visits (String.ofList parent) ⊆ tree.visits (String.ofList path) := by
  obtain ⟨habsolute, more, -, hsteps⟩ := h.resolve_left hne
  rw [visits, visits, startOf_eq_of_isAbsolute habsolute]
  intro location hlocation
  rcases List.mem_cons.mp hlocation with rfl | hway
  · exact List.mem_cons_self
  rw [wayTo, startOf_eq_of_isAbsolute habsolute] at hway
  -- what the parent looks at is a prefix of its steps, and those are steps of the path but for dots
  obtain ⟨front, -, hfront, rfl⟩ := mem_way.mp hway
  rw [← follow_filter]
  by_cases hnil : front.filter (· ≠ ".") = []
  · rw [hnil]
    exact List.mem_cons_self
  · refine List.mem_cons_of_mem _ (follow_mem_way_of_prefix_filter hnil ?_)
    rw [show (steps (String.ofList path)).filter (· ≠ ".") = namedSteps path from rfl, hsteps]
    exact (hfront.filter _).trans (List.prefix_append _ _)

theorem AlikeOn.finish_eq (h : AlikeOn seen first second) {path : List Char} {made : Made}
    (hcurrent : (first.applyAll made.changes).current = first.current)
    (hmade : PutsWithin seen made.changes)
    (hseen : ∀ visited ∈ first.visits (String.ofList path), seen visited) :
    first.finish path made = second.finish path made ∧
      PutsWithin seen (first.finish path made).changes := by
  have hvisits := visits_congr hcurrent (String.ofList path)
  have hspot : (first.applyAll made.changes).spot (String.ofList path) =
      (second.applyAll made.changes).spot (String.ofList path) :=
    (h.applyAll hmade).spot_eq (hvisits ▸ hseen)
  refine ⟨by rw [finish, finish, hspot], ?_⟩
  unfold finish
  split
  · exact hmade
  split
  · rename_i directory name hfree
    intro change hchange
    rcases List.mem_append.mp hchange with hchange | hchange
    · exact hmade change hchange
    · obtain rfl := List.mem_singleton.mp hchange
      intro _
      rw [Change.location, List.dropLast_concat]
      exact hseen directory (hvisits ▸ mem_visits_of_spot_free hfree)
  · exact hmade
  · exact hmade
  · exact hmade

/-- Making a directory with its parents looks at nothing but what its path looks at. -/
theorem AlikeOn.makeWithin_eq (h : AlikeOn seen first second) {path : List Char}
    {parents : List (List Char)}
    (hchain : (path :: parents).IsChain fun path parent => Within parent path)
    (hseen : path ≠ [] → ∀ visited ∈ first.visits (String.ofList path), seen visited) :
    first.makeWithin path parents = second.makeWithin path parents ∧
      PutsWithin seen (first.makeWithin path parents).changes := by
  have hnothing : PutsWithin seen ({} : Made).changes := fun change hchange => by cases hchange
  have hmakes := first.makes_makeWithin path parents
  generalize first.makeWithin path parents = made at hmakes ⊢
  suffices hsecond : second.Makes path parents made ∧ PutsWithin seen made.changes from
    ⟨hsecond.1.makeWithin_eq.symm, hsecond.2⟩
  induction hmakes with
  | nothing parents => exact ⟨.nothing parents, hnothing⟩
  | met hne hmet parents =>
      obtain ⟨hfinish, hputs⟩ := h.finish_eq rfl hnothing (hseen hne)
      refine ⟨?_, hputs⟩
      rw [hfinish]
      exact .met hne (h.spot_eq (hseen hne) ▸ hmet) parents
  | missing hne hmissing => exact ⟨.missing hne (h.spot_eq (hseen hne) ▸ hmissing), hnothing⟩
  | within hne hmissing hparent ih =>
      obtain ⟨hwithin, hrest⟩ := List.isChain_cons_cons.mp hchain
      obtain ⟨hmade, hputs⟩ := ih hrest fun hparent visited hvisited =>
        hseen hne visited (visits_subset hwithin hparent hvisited)
      obtain ⟨hfinish, hputsAll⟩ := h.finish_eq (current_applyAll first _) hputs (hseen hne)
      refine ⟨?_, hputsAll⟩
      rw [hfinish]
      exact .within hne (h.spot_eq (hseen hne) ▸ hmissing) hmade

theorem AlikeOn.makeDirectories_eq (h : AlikeOn seen first second) {path : String}
    (hseen : ∀ visited ∈ first.visits path, seen visited) :
    first.makeDirectories path = second.makeDirectories path ∧
      PutsWithin seen (first.makeDirectories path).changes := by
  refine h.makeWithin_eq (isChain_parents path.toList) fun _ => ?_
  rwa [String.ofList_toList]

/-- A path that leads to a free name leads lexically to this name in its directory. -/
theorem locationOf_of_spot_free {path : String} {directory : Location} {name : String}
    (h : tree.spot path = .ok (.free directory name)) : tree.locationOf path = directory ++ [name] :=
  (resolve_vacant (resolve_of_spot_free h)).1

/-- The changes of writing a file are at the location of its path. -/
theorem changes_of_write {path : String} {contents : ByteArray} {changes : List Change}
    (h : tree.write path contents = .ok changes) :
    changes = [.makeFile (tree.locationOf path), .fill (tree.locationOf path) contents] := by
  rw [write_eq] at h
  split at h
  · cases h
  · rename_i hspot
    rw [locationOf_of_spot_there hspot]
    split at h
    · cases h
    · exact (Except.ok.inj h).symm
  · rename_i hspot
    rw [locationOf_of_spot_free hspot]
    split at h
    · cases h
    · exact (Except.ok.inj h).symm

end FileTree

end RouteScaffold.Files
