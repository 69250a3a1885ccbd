import RouteScaffold.Proofs.Files.Shape

/-!
# Making directories again

Making directories may be cut short, and it may be done once more.

* In a tree that covers the one it leaves, nothing is left to be made (`makeDirectories_again`).
* In a tree that has only some of the directories it makes, the others are made, and it ends as it
  would have ended at first (`makeDirectories_resume`).

How a directory is made with its parents has four cases (`Makes`), told by what the path leads to.  The
second fact rests on the order of the parents: each is on the way of the path it is a parent of (`Within`),
so that a path leads to something only if its nearest parent is a directory.
-/

namespace RouteScaffold.Files

namespace FileTree

variable {tree : FileTree}

/-! ## Going on -/

/-- What more steps lead to that go on from something. -/
def onward (tree : FileTree) (found : Except Fault Spot) (more : List String) : Except Fault Spot :=
  match found with
  | .ok (.there location true) => tree.spotFrom location more
  | .ok (.there _ false) => .error .notDirectory
  | .ok (.free ..) => .error .notFound
  | .error fault => .error fault

theorem spotFrom_of_none {location : Location} (h : tree.shapeAt? location = none) (steps : List String) :
    tree.spotFrom location steps = .error .notFound := by
  cases steps with
  | nil => rw [spotFrom_nil, h]
  | cons step rest => rw [spotFrom_cons, h]

theorem spotFrom_of_file {location : Location} (h : tree.shapeAt? location = some false)
    {steps : List String} (hne : steps ≠ []) : tree.spotFrom location steps = .error .notDirectory := by
  obtain ⟨step, rest, rfl⟩ := List.exists_cons_of_ne_nil hne
  rw [spotFrom_cons, h]

theorem spotFrom_append (tree : FileTree) (location : Location) (steps : List String)
    {more : List String} (hmore : more ≠ []) :
    tree.spotFrom location (steps ++ more) = tree.onward (tree.spotFrom location steps) more := by
  induction steps generalizing location with
  | nil =>
      rw [List.nil_append, spotFrom_nil]
      cases hshape : tree.shapeAt? location with
      | none => exact spotFrom_of_none hshape more
      | some isDirectory =>
          cases isDirectory with
          | true => rfl
          | false => exact spotFrom_of_file hshape hmore
  | cons step rest ih =>
      rw [List.cons_append, spotFrom_followStep, spotFrom_followStep, ih]
      cases hshape : tree.shapeAt? location with
      | none => rfl
      | some isDirectory =>
          cases isDirectory with
          | false => rfl
          | true =>
              dsimp only
              split
              · rfl
              rw [if_neg (by simp [hmore])]
              split
              · -- the last step leads to a free name, from which nothing goes on
                rename_i hfree
                obtain ⟨rfl, hnone⟩ := hfree
                rw [spotFrom_of_none hnone]
                rfl
              · rfl

/-- Something that is found, if it has to be a directory. -/
def asDirectory : Except Fault Spot → Except Fault Spot
  | .ok (.there location true) => .ok (.there location true)
  | .ok (.there _ false) => .error .notDirectory
  | .ok (.free ..) => .error .notFound
  | .error fault => .error fault

/-- Single dots make no difference, other than that what is found may have to be a directory. -/
theorem spotFrom_dots (tree : FileTree) (location : Location) (steps : List String) :
    tree.spotFrom location steps = tree.spotFrom location (steps.filter (· ≠ ".")) ∨
      tree.spotFrom location steps =
        asDirectory (tree.spotFrom location (steps.filter (· ≠ "."))) := by
  induction steps generalizing location with
  | nil => exact .inl rfl
  | cons step rest ih =>
      cases hshape : tree.shapeAt? location with
      | none => exact .inl (by rw [spotFrom_of_none hshape, spotFrom_of_none hshape])
      | some isDirectory =>
          cases isDirectory with
          | false =>
              rw [spotFrom_of_file hshape (List.cons_ne_nil _ _)]
              by_cases hnil : (step :: rest).filter (· ≠ ".") = []
              · exact .inr (by rw [hnil, spotFrom_nil, hshape]; rfl)
              · exact .inl (spotFrom_of_file hshape hnil).symm
          | true =>
              by_cases hdot : step = "."
              · rw [List.filter_cons_of_neg (by simpa using hdot), spotFrom_cons, hshape]
                dsimp only
                rw [if_pos hdot]
                exact ih location
              rw [List.filter_cons_of_pos (by simpa using hdot), spotFrom_followStep,
                spotFrom_followStep, hshape]
              dsimp only
              split
              · exact .inl rfl
              by_cases hnext : tree.shapeAt? (followStep location step) = none
              · -- with dots alone behind it, a free name is not found
                rw [spotFrom_of_none hnext, spotFrom_of_none hnext]
                by_cases hrest : rest = []
                · exact .inl (by rw [hrest, List.filter_nil])
                rw [if_neg fun h => hrest h.1]
                split
                · exact .inr rfl
                · exact .inl rfl
              · rw [if_neg fun h => hnext h.2, if_neg fun h => hnext h.2]
                exact ih _

end FileTree

/-! ## Parents in their order -/

/-- The steps of a path that are no single dots. -/
def namedSteps (path : List Char) : List String := (steps (String.ofList path)).filter (· ≠ ".")

/-- A path is on the way to another one, and further steps follow; or it is empty. -/
def Within (parent path : List Char) : Prop :=
  parent = [] ∨ isAbsolute (String.ofList parent) = isAbsolute (String.ofList path) ∧
    ∃ more, more ≠ [] ∧ namedSteps path = namedSteps parent ++ more

theorem flatMap_steps_filter {found : List Component} (path : List Char) (h : found <+: inner path) :
    (found.flatMap Component.steps).filter (· ≠ ".") = found.flatMap Component.steps := by
  refine List.filter_eq_self.mpr fun step hstep => ?_
  obtain ⟨component, hcomponent, hmem⟩ := List.mem_flatMap.mp hstep
  have hinner : step ∈ (inner path).flatMap Component.steps :=
    List.mem_flatMap.mpr ⟨component, h.subset hcomponent, hmem⟩
  rw [flatMap_steps_inner] at hinner
  exact (List.mem_filter.mp hinner).2

theorem flatMap_steps_ne_nil {found : List Component} (hne : found ≠ []) :
    (∀ component ∈ found, IsInner component) → found.flatMap Component.steps ≠ [] := by
  intro h
  obtain ⟨first, rest, rfl⟩ := List.exists_cons_of_ne_nil hne
  rw [List.flatMap_cons]
  cases h first (List.mem_cons_self ..) with
  | parent => exact List.cons_ne_nil _ _
  | name hne hslash => exact List.cons_ne_nil _ _

/-- What a path starts with names no step. -/
theorem namedSteps_start (path : List Char) : namedSteps (ofComponents (start path)) = [] := by
  rw [namedSteps]
  rcases steps_start path with hnone | ⟨hdot, -⟩
  · rw [hnone]
    rfl
  · rw [hdot]
    rfl

/-- The named steps of what a path starts with and some of its first inner components. -/
theorem namedSteps_start_append (path : List Char) {found : List Component} (h : found <+: inner path) :
    namedSteps (ofComponents (start path ++ found)) = found.flatMap Component.steps := by
  rw [namedSteps, steps_start_append path h, List.filter_append, flatMap_steps_filter path h]
  exact congrArg (· ++ _) (namedSteps_start path)

theorem within_append (path : List Char) {found more : List Component}
    (h : found ++ more <+: inner path) (hmore : more ≠ []) {whole : List Char}
    (habsolute : isAbsolute (String.ofList whole) = isAbsolute (String.ofList path))
    (hsteps : namedSteps whole = (found ++ more).flatMap Component.steps) :
    Within (ofComponents (start path ++ found)) whole := by
  have hfound : found <+: inner path := (List.prefix_append _ _).trans h
  refine .inr ⟨(isAbsolute_start_append path hfound).trans habsolute.symm,
    more.flatMap Component.steps, ?_, ?_⟩
  · refine flatMap_steps_ne_nil hmore fun component hmem => ?_
    exact isInner_of_mem_inner (h.subset (List.mem_append_right _ hmem))
  · rw [hsteps, namedSteps_start_append path hfound, List.flatMap_append]

/-- The paths of the first components, the longest first, are each on the way of the one before. -/
theorem isChain_within_take (path : List Char) {whole : List Char} {count : Nat}
    (hcount : count ≤ (components path).length)
    (hwhole : count ≠ 0 → isAbsolute (String.ofList whole) = isAbsolute (String.ofList path) ∧
      namedSteps whole = namedSteps (ofComponents ((components path).take count))) :
    (whole :: (List.range count).reverse.map fun count =>
      ofComponents ((components path).take count)).IsChain fun path parent => Within parent path := by
  induction count generalizing whole with
  | zero => exact List.IsChain.singleton whole
  | succ count ih =>
      obtain ⟨habsolute, hnamed⟩ := hwhole (Nat.succ_ne_zero count)
      rw [List.range_succ, List.reverse_append, List.reverse_singleton, List.singleton_append,
        List.map_cons, List.isChain_cons_cons]
      -- the path of no component is the empty one, which is within every path
      by_cases hzero : count = 0
      · subst hzero
        exact ⟨.inl rfl, List.IsChain.singleton _⟩
      have hstart := length_start_le path
      set shift := count - (start path).length with hshift
      have hinner : shift < (inner path).length := by
        rw [components_eq, List.length_append] at hcount
        omega
      have hnext : (inner path).take (shift + 1) = (inner path).take shift ++ [(inner path)[shift]] :=
        (List.take_append_getElem hinner).symm
      have htake : (inner path).take shift ++ [(inner path)[shift]] <+: inner path := by
        rw [← hnext]
        exact List.take_prefix ..
      refine ⟨?_, ih (by omega) fun _ => ?_⟩
      · rw [take_components hzero, ← hshift]
        refine within_append path htake (List.cons_ne_nil _ _) habsolute ?_
        have hsucc : count + 1 - (start path).length = shift + 1 := by omega
        rw [hnamed, take_components (Nat.succ_ne_zero count), hsucc, hnext]
        exact namedSteps_start_append path htake
      · rw [take_components hzero]
        exact ⟨isAbsolute_start_append path (List.take_prefix ..), rfl⟩

theorem isChain_parents (path : List Char) :
    (path :: parents path).IsChain fun path parent => Within parent path := by
  refine isChain_within_take path Nat.le.refl fun _ => ⟨rfl, ?_⟩
  rw [List.take_length, components_eq, namedSteps_start_append path List.prefix_rfl,
    flatMap_steps_inner, namedSteps]

namespace FileTree

variable {tree : FileTree} {path parent : List Char}

theorem eq_nil_of_isEmpty_ofList (h : (String.ofList path).isEmpty = true) : path = [] := by
  have htext := String.isEmpty_iff.mp h
  rwa [← String.ofList_nil, String.ofList_inj] at htext

theorem spot_of_passes_ofList (h : Passes (String.ofList path)) (tree : FileTree) :
    tree.spot (String.ofList path) =
        tree.spotFrom (tree.startOf (String.ofList path)) (namedSteps path) ∨
      tree.spot (String.ofList path) =
        asDirectory (tree.spotFrom (tree.startOf (String.ofList path)) (namedSteps path)) := by
  rw [spot_of_passes h]
  exact spotFrom_dots ..

/-- If the end of a path is met, its parent is there or cannot be reached either. -/
theorem spot_parent (h : Within parent path) (hne : parent ≠ [])
    (hpasses : Passes (String.ofList path))
    (hspot : tree.spot (String.ofList path) ≠ .error .notFound) :
    (∃ location isDirectory,
        tree.spot (String.ofList parent) = .ok (.there location isDirectory)) ∨
      ∃ fault, fault ≠ .notFound ∧ tree.spot (String.ofList parent) = .error fault := by
  by_cases hparent : Passes (String.ofList parent)
  · obtain ⟨habsolute, more, hmore, hsteps⟩ := h.resolve_left hne
    have hfound := spot_of_passes_ofList hparent tree
    have hchild := spot_of_passes_ofList hpasses tree
    rw [hsteps, ← startOf_eq_of_isAbsolute habsolute, spotFrom_append _ _ _ hmore] at hchild
    -- what the named steps of the parent lead to decides both
    generalize tree.spotFrom (tree.startOf (String.ofList parent)) (namedSteps parent) = found
      at hfound hchild
    cases found with
    | error fault =>
        refine .inr ⟨fault, ?_, hfound.elim id id⟩
        rintro rfl
        exact hspot (hchild.elim id id)
    | ok found =>
        cases found with
        | free directory name => exact absurd (hchild.elim id id) hspot
        | there location isDirectory =>
            cases isDirectory with
            | true => exact .inl ⟨location, true, hfound.elim id id⟩
            | false =>
                rcases hfound with hfound | hfound
                · exact .inl ⟨location, false, hfound⟩
                · exact .inr ⟨.notDirectory, by simp, hfound⟩
  · obtain ⟨fault, hempty, hfault⟩ := spot_of_not_passes hparent
    exact .inr ⟨fault, fun heq => hne (eq_nil_of_isEmpty_ofList (hempty heq)), hfault tree⟩

/-- If a path leads to something, its parent is a directory. -/
theorem spot_parent_of_ok {found : Spot} (h : Within parent path) (hne : parent ≠ [])
    (hparent : Passes (String.ofList parent))
    (hspot : tree.spot (String.ofList path) = .ok found) :
    ∃ location, tree.spot (String.ofList parent) = .ok (.there location true) := by
  obtain ⟨habsolute, more, hmore, hsteps⟩ := h.resolve_left hne
  have hfound := spot_of_passes_ofList hparent tree
  have hchild := spot_of_passes_ofList (passes_of_spot hspot) tree
  rw [hspot, hsteps, ← startOf_eq_of_isAbsolute habsolute, spotFrom_append _ _ _ hmore] at hchild
  generalize tree.spotFrom (tree.startOf (String.ofList parent)) (namedSteps parent) = reached
    at hfound hchild
  cases reached with
  | error fault => simp [onward, asDirectory] at hchild
  | ok reached =>
      cases reached with
      | free directory name => simp [onward, asDirectory] at hchild
      | there location isDirectory =>
          cases isDirectory with
          | true => exact ⟨location, hfound.elim id id⟩
          | false => simp [onward, asDirectory] at hchild

/-! ## Making directories -/

/-- How making a directory ends after its parents were made. -/
def finish (tree : FileTree) (path : List Char) (made : Made) : Made :=
  if made.fault.isSome then made
  else
    match (tree.applyAll made.changes).spot (String.ofList path) with
    | .ok (.free directory name) =>
      { made with changes := made.changes ++ [.makeDirectory (directory ++ [name])] }
    | .ok (.there _ true) => made
    | .ok (.there _ false) => { made with fault := some .alreadyExists }
    | .error fault => { made with fault := some fault }

variable {outer parents : List (List Char)}

theorem makeWithin_nil (tree : FileTree) (parents : List (List Char)) :
    tree.makeWithin [] parents = {} := by
  cases parents with
  | nil => rw [makeWithin, if_pos List.isEmpty_nil]
  | cons parent outer => rw [makeWithin, if_pos List.isEmpty_nil]

/-- If the end of a path is met, no parents are made. -/
theorem makeWithin_of_ne_notFound (hne : path ≠ [])
    (hspot : tree.spot (String.ofList path) ≠ .error .notFound) (parents : List (List Char)) :
    tree.makeWithin path parents = tree.finish path {} := by
  have hempty : ¬ path.isEmpty = true := by simpa using hne
  have hstart : tree.applyAll ({} : Made).changes = tree := rfl
  have hfault : ¬ ({} : Made).fault.isSome = true := by simp
  rw [finish, hstart, if_neg hfault]
  cases parents
  all_goals
    rw [makeWithin, if_neg hempty, makeDirectory_eq, isDirectory_eq]
    generalize tree.spot (String.ofList path) = found at hspot
    rcases found with fault | ⟨location, _ | _⟩ | ⟨directory, name⟩
    · cases fault <;> first | rfl | exact absurd rfl hspot
    all_goals rfl

theorem makeWithin_of_notFound (hne : path ≠ [])
    (hspot : tree.spot (String.ofList path) = .error .notFound) (parent : List Char)
    (outer : List (List Char)) :
    tree.makeWithin path (parent :: outer) = tree.finish path (tree.makeWithin parent outer) := by
  have hempty : ¬ path.isEmpty = true := by simpa using hne
  rw [makeWithin, finish, if_neg hempty, makeDirectory_eq, hspot]
  dsimp only
  split
  · rfl
  · rw [makeDirectory_eq, isDirectory_eq]
    rcases (tree.applyAll (tree.makeWithin parent outer).changes).spot (String.ofList path) with
      fault | ⟨location, _ | _⟩ | ⟨directory, name⟩ <;> rfl

theorem makeWithin_of_missing (hne : path ≠ [])
    (hspot : tree.spot (String.ofList path) = .error .notFound) :
    tree.makeWithin path [] = { fault := some .notFound } := by
  have hempty : ¬ path.isEmpty = true := by simpa using hne
  rw [makeWithin, if_neg hempty, makeDirectory_eq, hspot]

/-- How a directory is made with its parents.  The cases are told by what the path leads to. -/
inductive Makes (tree : FileTree) : List Char → List (List Char) → Made → Prop
  /-- For the empty path nothing is made. -/
  | nothing (parents : List (List Char)) : Makes tree [] parents {}
  /-- The end of the path is met, so that no parents are made. -/
  | met {path : List Char} (hne : path ≠ [])
      (hspot : tree.spot (String.ofList path) ≠ .error .notFound) (parents : List (List Char)) :
      Makes tree path parents (tree.finish path {})
  /-- There is no parent left to make. -/
  | missing {path : List Char} (hne : path ≠ [])
      (hspot : tree.spot (String.ofList path) = .error .notFound) :
      Makes tree path [] { fault := some .notFound }
  /-- The directory is made after its parent. -/
  | within {path parent : List Char} {outer : List (List Char)} {made : Made} (hne : path ≠ [])
      (hspot : tree.spot (String.ofList path) = .error .notFound)
      (hparent : Makes tree parent outer made) :
      Makes tree path (parent :: outer) (tree.finish path made)

theorem makes_makeWithin (tree : FileTree) (path : List Char) (parents : List (List Char)) :
    tree.Makes path parents (tree.makeWithin path parents) := by
  induction parents generalizing path with
  | nil =>
      by_cases hne : path = []
      · rw [hne, makeWithin_nil]
        exact .nothing _
      by_cases hspot : tree.spot (String.ofList path) = .error .notFound
      · rw [makeWithin_of_missing hne hspot]
        exact .missing hne hspot
      · rw [makeWithin_of_ne_notFound hne hspot]
        exact .met hne hspot _
  | cons parent outer ih =>
      by_cases hne : path = []
      · rw [hne, makeWithin_nil]
        exact .nothing _
      by_cases hspot : tree.spot (String.ofList path) = .error .notFound
      · rw [makeWithin_of_notFound hne hspot]
        exact .within hne hspot (ih parent)
      · rw [makeWithin_of_ne_notFound hne hspot]
        exact .met hne hspot _

theorem Makes.makeWithin_eq {made : Made} (h : tree.Makes path parents made) :
    tree.makeWithin path parents = made := by
  induction h with
  | nothing parents => exact makeWithin_nil tree parents
  | met hne hspot parents => exact makeWithin_of_ne_notFound hne hspot parents
  | missing hne hspot => exact makeWithin_of_missing hne hspot
  | within hne hspot hparent ih => rw [makeWithin_of_notFound hne hspot, ih]

theorem resolve_of_spot_free {text : String} {directory : Location} {name : String}
    (h : tree.spot text = .ok (.free directory name)) :
    tree.resolve text = .ok (.vacant directory name) := by
  rw [spot] at h
  rcases hresolve : tree.resolve text with fault | ⟨location, node⟩ | ⟨other, last⟩
  · rw [hresolve] at h
    cases h
  · rw [hresolve] at h
    cases h
  · rw [hresolve] at h
    cases h
    rfl

theorem locationOf_of_spot_there {text : String} {location : Location} {isDirectory : Bool}
    (h : tree.spot text = .ok (.there location isDirectory)) : tree.locationOf text = location := by
  rw [spot] at h
  rcases hresolve : tree.resolve text with fault | ⟨other, node⟩ | ⟨directory, name⟩
  · rw [hresolve] at h
    cases h
  · rw [hresolve] at h
    cases h
    exact (resolve_node hresolve).1.symm
  · rw [hresolve] at h
    cases h

/-- A directory that is made is what its path leads to. -/
theorem spot_apply_makeDirectory {directory : Location} {name : String} {text : String}
    (h : tree.spot text = .ok (.free directory name)) :
    (tree.apply (.makeDirectory (directory ++ [name]))).spot text =
      .ok (.there (directory ++ [name]) true) := by
  have hmade : tree.makeDirectory text = .ok (.makeDirectory (directory ++ [name])) := by
    rw [makeDirectory_eq, h]
  obtain ⟨hlocation, hsteps, -, -⟩ := resolve_vacant (resolve_of_spot_free h)
  obtain ⟨-, hgrows, hway⟩ := makeDirectory_ok hmade
  refine hgrows.covers.spot_free h (shapeAt?_eq_true.mpr (hway _ ?_))
  rw [← hlocation]
  exact follow_mem_way _ hsteps

/-- When a directory is made its path leads to it. -/
theorem finish_there {made : Made} (h : (tree.finish path made).fault = none) :
    ∃ location, (tree.applyAll (tree.finish path made).changes).spot (String.ofList path) =
      .ok (.there location true) := by
  unfold finish at h ⊢
  split at h
  · rename_i hfault
    simp [h] at hfault
  rename_i hfault
  rw [if_neg hfault]
  split at h
  · rename_i directory name hspot
    dsimp only
    rw [applyAll_append]
    exact ⟨_, spot_apply_makeDirectory hspot⟩
  · rename_i location hspot
    exact ⟨location, hspot⟩
  · cases h
  · cases h

theorem makeWithin_there (hne : path ≠ []) (h : (tree.makeWithin path parents).fault = none) :
    ∃ location, (tree.applyAll (tree.makeWithin path parents).changes).spot (String.ofList path) =
      .ok (.there location true) := by
  have hmakes := tree.makes_makeWithin path parents
  generalize tree.makeWithin path parents = made at hmakes h ⊢
  cases hmakes with
  | nothing => exact absurd rfl hne
  | met => exact finish_there h
  | missing => cases h
  | within => exact finish_there h

theorem makeWithin_of_there {location : Location}
    (hspot : tree.spot (String.ofList path) = .ok (.there location true))
    (parents : List (List Char)) : tree.makeWithin path parents = {} := by
  by_cases hne : path = []
  · rw [hne, makeWithin_nil]
  · have hstart : tree.applyAll ({} : Made).changes = tree := rfl
    rw [makeWithin_of_ne_notFound hne (by simp [hspot]), finish, hstart, hspot]
    rfl

/-- In a tree that covers one in which a directory was made, it is not made again. -/
theorem makeWithin_again {later : FileTree} (h : (tree.makeWithin path parents).fault = none)
    (hcovers : Covers (tree.applyAll (tree.makeWithin path parents).changes) later) :
    later.makeWithin path parents = {} := by
  by_cases hne : path = []
  · rw [hne, makeWithin_nil]
  · obtain ⟨location, hspot⟩ := makeWithin_there hne h
    exact makeWithin_of_there (hcovers.spot_there hspot) parents

/-! ## Making directories that are there in part -/

/-- What is made in a tree that has the first of the changes already. -/
structure Resumes (front : List Change) (made again : Made) : Prop where
  changes_eq : made.changes = front ++ again.changes
  fault_eq : again.fault.isSome = made.fault.isSome

theorem Resumes.refl (made : Made) : Resumes [] made made := ⟨rfl, rfl⟩

theorem Resumes.finish {front : List Change} {made again : Made} (h : Resumes front made again) :
    Resumes front (tree.finish path made) ((tree.applyAll front).finish path again) := by
  have hfault := h.fault_eq
  have hgrown : (tree.applyAll front).applyAll again.changes = tree.applyAll made.changes := by
    rw [h.changes_eq, applyAll_append]
  rw [FileTree.finish, FileTree.finish, hgrown, hfault]
  split
  · exact h
  split
  · exact ⟨by rw [h.changes_eq, List.append_assoc], hfault⟩
  · exact h
  · exact ⟨h.changes_eq, rfl⟩
  · exact ⟨h.changes_eq, rfl⟩

/-- The changes up to the last one are those of the parents. -/
theorem prefix_finish {front : List Change} {made : Made}
    (h : front <+: (tree.finish path made).changes) :
    front <+: made.changes ∨
      front = (tree.finish path made).changes ∧ (tree.finish path made).fault = none := by
  unfold finish at h ⊢
  split at h
  · exact .inl h
  rename_i hfault
  rw [if_neg hfault]
  split at h
  · rcases List.prefix_concat_iff.mp h with hall | hfront
    · exact .inr ⟨hall, by simpa using hfault⟩
    · exact .inl hfront
  · exact .inl h
  · exact .inl h
  · exact .inl h

/-- The changes come from the parents, or they end with the directory. -/
theorem prefix_makeWithin {front : List Change}
    (h : front <+: (tree.makeWithin path parents).changes) :
    front = [] ∨
      front = (tree.makeWithin path parents).changes ∧
        (tree.makeWithin path parents).fault = none ∨
      path ≠ [] ∧ tree.spot (String.ofList path) = .error .notFound ∧
        ∃ parent outer, parents = parent :: outer ∧ front <+: (tree.makeWithin parent outer).changes := by
  have hmakes := tree.makes_makeWithin path parents
  generalize tree.makeWithin path parents = made at hmakes h ⊢
  cases hmakes with
  | nothing => exact .inl (List.prefix_nil.mp h)
  | met hne hspot =>
      rcases prefix_finish h with hfront | hall
      · exact .inl (List.prefix_nil.mp hfront)
      · exact .inr (.inl hall)
  | missing => exact .inl (List.prefix_nil.mp h)
  | within hne hspot hparent =>
      rcases prefix_finish h with hfront | hall
      · exact .inr (.inr ⟨hne, hspot, _, _, rfl, hparent.makeWithin_eq ▸ hfront⟩)
      · exact .inr (.inl hall)

theorem passes_of_notFound (hne : path ≠ [])
    (h : tree.spot (String.ofList path) = .error .notFound) : Passes (String.ofList path) := by
  by_contra hnot
  obtain ⟨fault, hempty, hfault⟩ := spot_of_not_passes hnot
  rw [hfault, Except.error.injEq] at h
  exact hne (eq_nil_of_isEmpty_ofList (hempty h))

theorem passes_of_changes (h : (tree.makeWithin path parents).changes ≠ []) :
    Passes (String.ofList path) := by
  by_contra hnot
  obtain ⟨fault, hempty, hfault⟩ := spot_of_not_passes hnot
  refine h ?_
  by_cases hne : path = []
  · rw [hne, makeWithin_nil]
  · have hfirm : fault ≠ .notFound := fun heq => hne (eq_nil_of_isEmpty_ofList (hempty heq))
    rw [makeWithin_of_ne_notFound hne (by simp [hfault, hfirm])]
    rw [finish, show tree.applyAll ({} : Made).changes = tree from rfl, hfault]
    rfl

/-- Where the end of a path is met its parent is not made. -/
theorem changes_parent (h : Within parent path) (hpasses : Passes (String.ofList path))
    (hspot : tree.spot (String.ofList path) ≠ .error .notFound) (outer : List (List Char)) :
    (tree.makeWithin parent outer).changes = [] := by
  by_cases hne : parent = []
  · rw [hne, makeWithin_nil]
  have hstart : tree.applyAll ({} : Made).changes = tree := rfl
  rcases spot_parent h hne hpasses hspot with ⟨location, isDirectory, hfound⟩ |
    ⟨fault, hfirm, hfound⟩
  · rw [makeWithin_of_ne_notFound hne (by simp [hfound]), finish, hstart, hfound]
    cases isDirectory <;> rfl
  · rw [makeWithin_of_ne_notFound hne (by simp [hfound, hfirm]), finish, hstart, hfound]
    rfl

/-- Where a parent cannot be made its path leads nowhere. -/
theorem spot_of_fault_parent (h : Within parent path) (hparent : Passes (String.ofList parent))
    (hfault : (tree.makeWithin parent outer).fault.isSome = true) :
    ∃ fault, tree.spot (String.ofList path) = .error fault := by
  have hne : parent ≠ [] := by
    rintro rfl
    rw [makeWithin_nil] at hfault
    cases hfault
  cases hpath : tree.spot (String.ofList path) with
  | error fault => exact ⟨fault, rfl⟩
  | ok found =>
      obtain ⟨location, hfound⟩ := spot_parent_of_ok h hne hparent hpath
      rw [makeWithin_of_there hfound] at hfault
      cases hfault

/-- Where the end of a path is met after its parents were made in part, the parents are all there, or one of
them cannot be made. -/
theorem Resumes.finish_met {front : List Change} (hwithin : Within parent path)
    (hpasses : Passes (String.ofList path))
    (hspot : tree.spot (String.ofList path) = .error .notFound)
    (hagain : (tree.applyAll front).spot (String.ofList path) ≠ .error .notFound)
    (hparent : front <+: (tree.makeWithin parent outer).changes)
    (h : Resumes front (tree.makeWithin parent outer)
      ((tree.applyAll front).makeWithin parent outer)) :
    Resumes front (tree.finish path (tree.makeWithin parent outer))
      ((tree.applyAll front).finish path {}) := by
  have hchanges := changes_parent hwithin hpasses hagain outer
  cases hfault : ((tree.applyAll front).makeWithin parent outer).fault with
  | none =>
      have hnothing : (tree.applyAll front).makeWithin parent outer = {} := by
        rcases hmade : (tree.applyAll front).makeWithin parent outer with ⟨changes, fault⟩
        rw [hmade] at hchanges hfault
        rw [show changes = [] from hchanges, show fault = none from hfault]
      rw [hnothing] at h
      exact h.finish
  | some fault =>
      have hsome : ((tree.applyAll front).makeWithin parent outer).fault.isSome = true := by
        rw [hfault]
        rfl
      have hmade : (tree.makeWithin parent outer).changes ≠ [] := by
        intro hnil
        rw [hnil] at hparent
        rw [List.prefix_nil.mp hparent] at hagain
        exact hagain hspot
      obtain ⟨other, hother⟩ := spot_of_fault_parent hwithin (passes_of_changes hmade) hsome
      have hstart : (tree.applyAll front).applyAll ({} : Made).changes = tree.applyAll front := rfl
      have hstops := h.fault_eq.symm.trans hsome
      rw [FileTree.finish, if_pos hstops, FileTree.finish, hstart, hother]
      refine ⟨?_, hstops.symm⟩
      rw [h.changes_eq, hchanges]
      rfl

theorem makeWithin_resume (hchain : (path :: parents).IsChain fun path parent => Within parent path)
    {front : List Change} (hfront : front <+: (tree.makeWithin path parents).changes) :
    Resumes front (tree.makeWithin path parents)
      ((tree.applyAll front).makeWithin path parents) := by
  induction parents generalizing path with
  | nil =>
      rcases prefix_makeWithin hfront with rfl | ⟨rfl, hok⟩ | ⟨-, -, parent, outer, hnil, -⟩
      · exact .refl _
      · rw [makeWithin_again hok (Covers.refl _)]
        exact ⟨(List.append_nil _).symm, by rw [hok]⟩
      · cases hnil
  | cons parent outer ih =>
      obtain ⟨hwithin, hrest⟩ := List.isChain_cons_cons.mp hchain
      rcases prefix_makeWithin hfront with rfl | ⟨rfl, hok⟩ | ⟨hne, hspot, _, _, hparents, hparent⟩
      · exact .refl _
      · rw [makeWithin_again hok (Covers.refl _)]
        exact ⟨(List.append_nil _).symm, by rw [hok]⟩
      obtain ⟨rfl, rfl⟩ := List.cons.inj hparents
      -- the parents are resumed, and the directory is made after them
      have hresumed := ih hrest hparent
      rw [makeWithin_of_notFound hne hspot]
      by_cases hagain : (tree.applyAll front).spot (String.ofList path) = .error .notFound
      · rw [makeWithin_of_notFound hne hagain]
        exact hresumed.finish
      · rw [makeWithin_of_ne_notFound hne hagain]
        exact hresumed.finish_met hwithin (passes_of_notFound hne hspot) hspot hagain hparent

/-! ## Making the directories of a path -/

theorem makeDirectories_again {later : FileTree} {text : String}
    (h : (tree.makeDirectories text).fault = none)
    (hcovers : Covers (tree.applyAll (tree.makeDirectories text).changes) later) :
    later.makeDirectories text = {} :=
  makeWithin_again h hcovers

theorem makeDirectories_resume {text : String} {front : List Change}
    (h : front <+: (tree.makeDirectories text).changes) :
    Resumes front (tree.makeDirectories text) ((tree.applyAll front).makeDirectories text) :=
  makeWithin_resume (isChain_parents text.toList) h

/-- What holds when nothing is made, and is kept when a directory is made where a name is free, holds
whenever directories are made. -/
theorem changes_induction {P : List Change → Prop} (hnil : P [])
    (hmake : ∀ changes text directory name, P changes →
      (tree.applyAll changes).spot text = .ok (.free directory name) →
        P (changes ++ [.makeDirectory (directory ++ [name])]))
    (path : List Char) (parents : List (List Char)) : P (tree.makeWithin path parents).changes := by
  have hfinish : ∀ path made, P made.changes → P (tree.finish path made).changes := by
    intro path made hmade
    unfold finish
    split
    · exact hmade
    split
    · rename_i directory name hspot
      exact hmake _ _ directory name hmade hspot
    · exact hmade
    · exact hmade
    · exact hmade
  have hmakes := tree.makes_makeWithin path parents
  generalize tree.makeWithin path parents = made at hmakes ⊢
  induction hmakes with
  | nothing => exact hnil
  | met => exact hfinish _ _ hnil
  | missing => exact hnil
  | within hne hspot hparent ih => exact hfinish _ _ ih

/-- Making directories makes nothing else. -/
theorem changes_makeDirectories (tree : FileTree) (text : String) :
    ∀ change ∈ (tree.makeDirectories text).changes, ∃ location, change = .makeDirectory location := by
  refine changes_induction
    (P := fun changes => ∀ change ∈ changes, ∃ location, change = .makeDirectory location)
    (fun change hchange => ?_) (fun changes text directory name hchanges hspot change hchange => ?_) _ _
  · cases hchange
  · rcases List.mem_append.mp hchange with hchange | hchange
    · exact hchanges change hchange
    · exact ⟨_, List.mem_singleton.mp hchange⟩

/-! ## Writing files again -/

variable {later : FileTree} {text : String} {contents : ByteArray} {changes front : List Change}

theorem exists?_again (h : tree.exists? text = true) (hcovers : Covers tree later) :
    later.exists? text = true := by
  rw [exists?_eq] at h ⊢
  split at h
  · rename_i hspot
    rwa [hcovers.spot_there hspot]
  · cases h

/-- A file that is made is what its path leads to, before it is filled and after that. -/
theorem spot_of_writeNew (h : tree.writeNew text contents = .ok changes) (hfront : front <+: changes)
    (hne : front ≠ []) (hcovers : Covers (tree.applyAll front) later) :
    later.spot text = .ok (.there (tree.locationOf text) false) := by
  obtain ⟨hfree, hwrites⟩ := writeNew_ok h
  obtain ⟨written, hputs⟩ := (hwrites.partly front hfront).resolve_left hne
  have hshape : later.shapeAt? (tree.locationOf text) = some false := by
    refine hcovers.shapeAt?_of_some _ _ ?_
    rw [shapeAt?, hputs.kindAt?_self]
    rfl
  have hgrown := (hputs.covers (by simp [hfree])).trans hcovers
  rw [writeNew_eq] at h
  split at h
  · cases h
  · split at h <;> cases h
  · rename_i directory name hspot
    obtain ⟨hlocation, -, -, -⟩ := resolve_vacant (resolve_of_spot_free hspot)
    rw [hlocation] at hshape ⊢
    exact hgrown.spot_free hspot hshape

/-- A new file is made where a name is free, and filled. -/
theorem changes_of_writeNew (h : tree.writeNew text contents = .ok changes) :
    changes = [.makeFile (tree.locationOf text), .fill (tree.locationOf text) contents] ∧
      tree.Puts (tree.locationOf text) (.file ByteArray.empty)
        (tree.applyAll [.makeFile (tree.locationOf text)]) := by
  unfold writeNew at h
  split at h
  · cases h
  · cases h
  · rename_i directory name htarget
    obtain ⟨hlocation, hparent, hfree, -⟩ := target_vacant htarget
    cases h
    refine ⟨by rw [hlocation], puts_makeFile (fun _ => ?_) (by simp [hfree])⟩
    rw [hlocation, List.dropLast_concat, hparent]

theorem endsInSlash_of_writeNew (h : tree.writeNew text contents = .ok changes) :
    endsInSlash text = false := by
  rw [writeNew_eq] at h
  split at h
  · cases h
  · split at h <;> cases h
  · split at h
    · cases h
    · simpa using ‹¬ endsInSlash text = true›

/-- What is written is there. -/
theorem exists?_of_spot {location : Location} (hslash : endsInSlash text = false)
    (hspot : tree.spot text = .ok (.there location false)) : tree.exists? text = true := by
  rw [exists?_eq, hspot, hslash]
  rfl

theorem exists?_of_writeNew_prefix (h : tree.writeNew text contents = .ok changes)
    (hfront : front <+: changes) (hne : front ≠ [])
    (hcovers : Covers (tree.applyAll front) later) : later.exists? text = true :=
  exists?_of_spot (endsInSlash_of_writeNew h) (spot_of_writeNew h hfront hne hcovers)

theorem spot_of_write (h : tree.write text contents = .ok changes)
    (hcovers : Covers (tree.applyAll changes) later) :
    later.spot text = .ok (.there (tree.locationOf text) false) ∧ endsInSlash text = false := by
  obtain ⟨hold, hwrites⟩ := write_ok h
  have hnot : tree.kindAt? (tree.locationOf text) ≠ some .directory := by
    rcases hold with ⟨-, hfree⟩ | ⟨-, old, hfile⟩
    · simp [hfree]
    · simp [hfile]
  have hshape : later.shapeAt? (tree.locationOf text) = some false := by
    refine hcovers.shapeAt?_of_some _ _ ?_
    rw [shapeAt?, hwrites.wholly.kindAt?_self]
    rfl
  have hgrown := (hwrites.wholly.covers hnot).trans hcovers
  rw [write_eq] at h
  split at h
  · cases h
  · rename_i location isDirectory hspot
    split at h
    · cases h
    · rename_i hcond
      obtain ⟨rfl, hslash⟩ : isDirectory = false ∧ endsInSlash text = false := by
        simpa using hcond
      rw [locationOf_of_spot_there hspot]
      exact ⟨hgrown.spot_there hspot, hslash⟩
  · rename_i directory name hspot
    -- the file is new, and its name was free in the directory
    obtain ⟨hlocation, -, -, -⟩ := resolve_vacant (resolve_of_spot_free hspot)
    split at h
    · cases h
    · rw [hlocation] at hshape ⊢
      exact ⟨hgrown.spot_free hspot hshape, by simpa using ‹¬ endsInSlash text = true›⟩

/-- A file that was written is written once more, and no shape is changed. -/
theorem write_again (h : tree.write text contents = .ok changes)
    (hcovers : Covers (tree.applyAll changes) later) (other : ByteArray) :
    later.exists? text = true ∧ ∃ again, later.write text other = .ok again ∧
      Alike later (later.applyAll again) := by
  obtain ⟨hspot, hslash⟩ := spot_of_write h hcovers
  have hthere := exists?_of_spot hslash hspot
  refine ⟨hthere, _, by rw [write_eq, hspot, hslash]; rfl, ?_⟩
  obtain ⟨⟨hmissing, -⟩ | ⟨-, old, hfile⟩, hwrites⟩ :=
    write_ok (show later.write text other = .ok _ by rw [write_eq, hspot, hslash]; rfl)
  · simp [hthere] at hmissing
  · exact (hwrites.wholly.sameBut hfile).toAlike

/-! ## Reading again -/

theorem spot_of_find {location : Location} (h : tree.find text = .ok (location, .file contents)) :
    tree.spot text = .ok (.there location false) ∧ endsInSlash text = false := by
  refine ⟨by rw [spot, find_ok h]; rfl, ?_⟩
  rw [find, find_ok h] at h
  cases hslash : endsInSlash text with
  | true => simp [hslash, Node.isDir] at h
  | false => rfl

theorem find_of_spot {location : Location} (hslash : endsInSlash text = false)
    (hspot : tree.spot text = .ok (.there location false))
    (hkind : tree.kindAt? location = some (.file contents)) :
    tree.find text = .ok (location, .file contents) := by
  rw [spot] at hspot
  rcases hresolve : tree.resolve text with fault | ⟨found, node⟩ | ⟨directory, name⟩
  · rw [hresolve] at hspot
    cases hspot
  · rw [hresolve] at hspot
    have hlocation : found = location := by
      injection hspot with hplace
      injection hplace
    obtain ⟨rfl, hnode⟩ := resolve_node hresolve
    rw [← hlocation, kindAt?_of_at? hnode] at hkind
    cases node with
    | dir entries => cases hkind
    | file other =>
        rw [find, hresolve, hslash, ← hlocation]
        cases hkind
        rfl
  · rw [hresolve] at hspot
    cases hspot

/-- A file that is kept is read as before. -/
theorem readText_again {read : String} (h : tree.readText text = .ok read)
    (hcovers : Covers tree later)
    (hkept : ∀ contents, tree.kindAt? (tree.locationOf text) = some (.file contents) →
      later.kindAt? (tree.locationOf text) = some (.file contents)) :
    later.readText text = .ok read := by
  unfold readText at h
  split at h
  · cases h
  · cases h
  · rename_i found contents hfind
    obtain ⟨hspot, hslash⟩ := spot_of_find hfind
    obtain ⟨rfl, hnode⟩ := resolve_node (find_ok hfind)
    have hkind := hkept contents (kindAt?_of_at? hnode)
    rw [readText, find_of_spot hslash (hcovers.spot_there hspot) hkind]
    exact h

end FileTree

end RouteScaffold.Files
