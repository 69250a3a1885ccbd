import RouteScaffold.Proofs.Files.Parents

/-!
# What calls do

Each call is described by the view of the tree before and after it.

* A directory is made with the parents that are missing: whatever the outcome, directories are put at
  locations on the way of the path where nothing was (`makeDirectories_grows`), and when it succeeds
  all locations on the way are directories (`makeDirectories_ok`).
* A file is written at the location of its path: a new one where nothing is (`writeNew_ok`), and any
  one where no directory is (`write_ok`).
-/

namespace RouteScaffold.Files.FileTree

variable {tree : FileTree} {path : String}

/-! ## Finding -/

theorem find_ok {found : Location} {node : Node} (h : tree.find path = .ok (found, node)) :
    tree.resolve path = .ok (.node found node) := by
  unfold find at h
  split at h
  · cases h
  · cases h
  · rename_i hresolve
    split at h
    · cases h
    · cases h
      exact hresolve

theorem exists?_eq_true : tree.exists? path = true ↔ ∃ found, tree.find path = .ok found := by
  unfold exists?
  cases tree.find path with
  | error fault => simp [Except.isOk, Except.toBool]
  | ok found => simp [Except.isOk, Except.toBool]

/-- Where a path names something, something stands at its location. -/
theorem kindAt?_ne_none_of_exists? (h : tree.exists? path = true) :
    tree.kindAt? (tree.locationOf path) ≠ none := by
  obtain ⟨⟨found, node⟩, hfind⟩ := exists?_eq_true.mp h
  obtain ⟨rfl, hnode⟩ := resolve_node (find_ok hfind)
  simp [kindAt?_of_at? hnode]

/-- Where a path names a directory, all locations on its way are directories. -/
theorem kindAt?_of_isDirectory (h : tree.isDirectory path = true) {other : Location}
    (hother : other ∈ tree.wayTo path) : tree.kindAt? other = some .directory := by
  unfold isDirectory at h
  split at h
  · rename_i found node hfind
    have hresolve := find_ok hfind
    rcases directory_of_mem_wayTo hresolve hother with rfl | hdirectory
    · obtain ⟨rfl, hnode⟩ := resolve_node hresolve
      cases node with
      | dir entries => exact kindAt?_of_at? hnode
      | file contents => cases h
    · exact hdirectory
  · cases h

/-! ## Making directories -/

theorem applyAll_append (tree : FileTree) (first second : List Change) :
    tree.applyAll (first ++ second) = (tree.applyAll first).applyAll second :=
  List.foldl_append ..

/-- What making a directory did: it was made at the location of its path, and it can be reached. -/
theorem makeDirectory_ok {change : Change} (h : tree.makeDirectory path = .ok change) :
    steps path ≠ [] ∧ tree.Grows [tree.locationOf path] (tree.apply change) ∧
      ∀ other ∈ tree.wayTo path, (tree.apply change).kindAt? other = some .directory := by
  unfold makeDirectory at h
  split at h
  · cases h
  · cases h
  · rename_i directory name hresolve
    cases h
    obtain ⟨hlocation, hsteps, hparent, hfree⟩ := resolve_vacant hresolve
    have hputs : tree.Puts (directory ++ [name]) .directory
        (tree.apply (.makeDirectory (directory ++ [name]))) := by
      refine puts_apply (.makeDirectory (directory ++ [name])) (fun _ => ?_) ?_
      · rw [Change.location, List.dropLast_concat, hparent]
      · rw [Change.location, hfree]
        simp
    have hgrows := hputs.grows hfree
    rw [hlocation]
    refine ⟨hsteps, hgrows, fun other hother => ?_⟩
    rcases directory_of_mem_wayTo hresolve hother with rfl | hdirectory
    · rw [hlocation]
      exact hputs.kindAt?_self
    · exact hgrows.kindAt?_of_some hdirectory

/-- Some changes, after each of which directories were put at some of the given locations where
nothing was. -/
def GrowsAlong (tree : FileTree) (ways : List Location) (changes : List Change) : Prop :=
  ∀ front, front <+: changes →
    ∃ created, created ⊆ ways ∧ tree.Grows created (tree.applyAll front)

namespace GrowsAlong

variable {ways : List Location} {changes : List Change}

theorem nil (tree : FileTree) (ways : List Location) : tree.GrowsAlong ways [] := by
  intro front hfront
  rw [List.prefix_nil.mp hfront]
  exact ⟨[], List.nil_subset _, Grows.refl tree⟩

theorem current_eq (h : tree.GrowsAlong ways changes) :
    (tree.applyAll changes).current = tree.current := by
  obtain ⟨created, -, hcreated⟩ := h changes List.prefix_rfl
  exact hcreated.current_eq

/-- One more directory is made. -/
theorem concat {change : Change} {location : Location} (h : tree.GrowsAlong ways changes)
    (hlocation : location ∈ ways)
    (hmade : (tree.applyAll changes).Grows [location] ((tree.applyAll changes).apply change)) :
    tree.GrowsAlong ways (changes ++ [change]) := by
  intro front hfront
  rcases List.prefix_concat_iff.mp hfront with rfl | hfront
  · obtain ⟨created, hcreated, hgrows⟩ := h changes List.prefix_rfl
    rw [applyAll_append]
    refine ⟨created ++ [location], ?_, hgrows.trans hmade⟩
    exact List.append_subset.mpr ⟨hcreated, List.cons_subset.mpr ⟨hlocation, List.nil_subset _⟩⟩
  · exact h front hfront

end GrowsAlong

/-- What is made on the way to a path: directories at some of the given locations where nothing was,
and after a success the whole way. -/
structure MakesWay (tree : FileTree) (ways : List Location) (path : String) (made : Made) : Prop where
  grows : tree.GrowsAlong ways made.changes
  way : made.fault = none → ∀ other ∈ tree.wayTo path,
    (tree.applyAll made.changes).kindAt? other = some .directory

namespace MakesWay

variable {ways : List Location} {made : Made}

theorem grows_nothing : tree.GrowsAlong ways ({} : Made).changes := .nil tree ways

theorem of_isEmpty {path : List Char} (h : path.isEmpty = true) :
    MakesWay tree ways (String.ofList path) {} := by
  rw [List.isEmpty_iff.mp h]
  exact ⟨grows_nothing, fun _ other hother => by cases hother⟩

theorem of_fault {fault : Fault} (hgrows : tree.GrowsAlong ways made.changes) :
    MakesWay tree ways path { made with fault := some fault } :=
  ⟨hgrows, fun h => by cases h⟩

theorem of_isDirectory (hgrows : tree.GrowsAlong ways made.changes)
    (hdirectory : (tree.applyAll made.changes).isDirectory path = true) :
    MakesWay tree ways path made := by
  refine ⟨hgrows, fun _ other hother => kindAt?_of_isDirectory hdirectory ?_⟩
  rwa [wayTo_congr hgrows.current_eq]

/-- A directory that cannot be made may be there. -/
theorem of_refused {grown : FileTree} {fault : Fault} (hgrows : tree.GrowsAlong ways made.changes)
    (hgrown : tree.applyAll made.changes = grown) :
    MakesWay tree ways path
      (if grown.isDirectory path then made else { made with fault := some fault }) := by
  subst hgrown
  split
  · rename_i hdirectory
    exact .of_isDirectory hgrows hdirectory
  · exact .of_fault hgrows

theorem of_makeDirectory {change : Change}
    (hways : steps path ≠ [] → tree.locationOf path ∈ ways)
    (hgrows : tree.GrowsAlong ways made.changes)
    (hmade : (tree.applyAll made.changes).makeDirectory path = .ok change) :
    MakesWay tree ways path { made with changes := made.changes ++ [change] } := by
  obtain ⟨hsteps, hgrown, hway⟩ := makeDirectory_ok hmade
  rw [locationOf_congr hgrows.current_eq] at hgrown
  refine ⟨hgrows.concat (hways hsteps) hgrown, fun _ other hother => ?_⟩
  rw [← wayTo_congr hgrows.current_eq] at hother
  rw [applyAll_append]
  exact hway other hother

end MakesWay

theorem makesWay_makeWithin (tree : FileTree) {ways : List Location} {path : List Char}
    {parents : List (List Char)}
    (hways : ∀ passed ∈ path :: parents, steps (String.ofList passed) ≠ [] →
      tree.locationOf (String.ofList passed) ∈ ways) :
    MakesWay tree ways (String.ofList path) (tree.makeWithin path parents) := by
  have hself := hways path (List.mem_cons_self ..)
  induction parents generalizing path with
  | nil =>
      rw [makeWithin]
      split
      · exact .of_isEmpty ‹_›
      split
      · rename_i hmade
        exact .of_makeDirectory hself MakesWay.grows_nothing hmade
      · exact .of_fault MakesWay.grows_nothing
      · exact .of_refused MakesWay.grows_nothing rfl
  | cons parent outer ih =>
      have hparent : MakesWay tree ways (String.ofList parent) (tree.makeWithin parent outer) :=
        ih (fun passed hpassed => hways passed (List.mem_cons_of_mem _ hpassed))
          (hways parent (by simp))
      -- the path is tried at once, and again after its parent where that was missing
      rw [makeWithin]
      split
      · exact .of_isEmpty ‹_›
      split
      · rename_i hmade
        exact .of_makeDirectory hself MakesWay.grows_nothing hmade
      · dsimp only
        split
        · rename_i hfault
          exact ⟨hparent.grows, fun hok => by simp [hok] at hfault⟩
        split
        · rename_i hmade
          exact .of_makeDirectory hself hparent.grows hmade
        · exact .of_refused hparent.grows rfl
      · exact .of_refused MakesWay.grows_nothing rfl

theorem makesWay_makeDirectories (tree : FileTree) (path : String) :
    MakesWay tree (tree.wayTo path) path (tree.makeDirectories path) := by
  have hways : ∀ passed ∈ path.toList :: parents path.toList, steps (String.ofList passed) ≠ [] →
      tree.locationOf (String.ofList passed) ∈ tree.wayTo path := by
    intro passed hpassed hsteps
    rcases List.mem_cons.mp hpassed with rfl | hpassed
    · rw [String.ofList_toList] at hsteps ⊢
      exact follow_mem_way _ hsteps
    · have hmem := locationOf_mem_wayTo_of_mem_parents tree hpassed hsteps
      rwa [String.ofList_toList] at hmem
  have hmade := makesWay_makeWithin tree hways
  rwa [String.ofList_toList] at hmade

/-- Whatever the outcome, directories are put at locations on the way where nothing was. -/
theorem makeDirectories_grows (tree : FileTree) (path : String) :
    tree.GrowsAlong (tree.wayTo path) (tree.makeDirectories path).changes :=
  (makesWay_makeDirectories tree path).grows

/-- The second tree is the first one with the directories made that were missing on the way to a
path, and the whole way is there. -/
structure Opens (before : FileTree) (path : String) (after : FileTree) : Prop where
  grows : before.Grows (before.wayTo path) after
  way : ∀ other ∈ before.wayTo path, after.kindAt? other = some .directory

theorem MakesWay.opens {made : Made} (h : MakesWay tree (tree.wayTo path) path made)
    (hok : made.fault = none) : tree.Opens path (tree.applyAll made.changes) := by
  have hway := h.way hok
  obtain ⟨created, hsubset, hcreated⟩ := h.grows _ List.prefix_rfl
  refine ⟨⟨hcreated.current_eq, fun other => ?_⟩, hway⟩
  by_cases hother : other ∈ tree.wayTo path
  · -- a directory is there now, which was made if nothing was there
    rw [hway other hother]
    have hafter := hcreated.kindAt?_eq other
    rw [hway other hother] at hafter
    by_cases hfree : tree.kindAt? other = none
    · simp [hfree, hother]
    · simpa [hfree] using hafter
  · have hnot : other ∉ created := fun hmem => hother (hsubset hmem)
    rw [hcreated.kindAt?_eq other]
    simp [hother, hnot]

/-- After a success the whole way is there. -/
theorem makeDirectories_ok (h : (tree.makeDirectories path).fault = none) :
    tree.Opens path (tree.applyAll (tree.makeDirectories path).changes) :=
  (makesWay_makeDirectories tree path).opens h

/-- A directory whose parent is there is made at once. -/
theorem makeDirectories_of_makeDirectory {change : Change} (hne : path ≠ "")
    (h : tree.makeDirectory path = .ok change) :
    tree.makeDirectories path = { changes := [change] } := by
  have hpath : ¬ path.toList.isEmpty = true := by simpa using hne
  rw [makeDirectories]
  cases parents path.toList with
  | nil => rw [makeWithin, if_neg hpath, String.ofList_toList, h]
  | cons parent outer => rw [makeWithin, if_neg hpath, String.ofList_toList, h]

/-- Nothing is made where a directory is. -/
theorem makeDirectories_of_isDirectory (h : tree.isDirectory path = true)
    (hthere : tree.makeDirectory path = .error .alreadyExists) : tree.makeDirectories path = {} := by
  rw [makeDirectories]
  by_cases hpath : path.toList.isEmpty = true
  · cases parents path.toList with
    | nil => rw [makeWithin, if_pos hpath]
    | cons parent outer => rw [makeWithin, if_pos hpath]
  · cases parents path.toList with
    | nil => rw [makeWithin, if_neg hpath, String.ofList_toList, hthere, h]; rfl
    | cons parent outer => rw [makeWithin, if_neg hpath, String.ofList_toList, hthere, h]; rfl

/-! ## Writing files -/

theorem resolve_of_target {place : Place} (h : tree.target path = .ok place) :
    tree.resolve path = .ok place ∧ (endsInSlash path = true → place.isDir = true) := by
  unfold target at h
  split at h
  · cases h
  · rename_i hresolve
    split at h
    · cases h
    · rename_i hslash
      cases h
      refine ⟨hresolve, fun hends => ?_⟩
      simpa [hends] using hslash

/-- A free name is a target where nothing stands, in a directory. -/
theorem target_vacant {directory : Location} {name : String}
    (h : tree.target path = .ok (.vacant directory name)) :
    tree.locationOf path = directory ++ [name] ∧ tree.kindAt? directory = some .directory ∧
      tree.kindAt? (tree.locationOf path) = none ∧ tree.exists? path = false := by
  obtain ⟨hresolve, -⟩ := resolve_of_target h
  obtain ⟨hlocation, -, hparent, hfree⟩ := resolve_vacant hresolve
  refine ⟨hlocation, hparent, hlocation ▸ hfree, ?_⟩
  rw [exists?, find, hresolve]
  rfl

theorem target_node {found : Location} {node : Node}
    (h : tree.target path = .ok (.node found node)) :
    found = tree.locationOf path ∧ tree.at? (tree.locationOf path) = some node ∧
      tree.exists? path = true := by
  obtain ⟨hresolve, hslash⟩ := resolve_of_target h
  obtain ⟨rfl, hnode⟩ := resolve_node hresolve
  refine ⟨rfl, hnode, ?_⟩
  have hnot : (endsInSlash path && !node.isDir) = false := by
    cases hends : endsInSlash path with
    | false => rfl
    | true => rw [show node.isDir = true from hslash hends]; rfl
  rw [exists?, find, hresolve]
  simp [hnot, Except.isOk, Except.toBool]

/-- Some changes that write a file at a location: after each of them, if any, some file is put there
and nothing else is changed, and after all of them it is the file with the contents. -/
structure WritesAlong (tree : FileTree) (location : Location) (contents : ByteArray)
    (changes : List Change) : Prop where
  partly : ∀ front, front <+: changes →
    front = [] ∨ ∃ written, tree.Puts location (.file written) (tree.applyAll front)
  wholly : tree.Puts location (.file contents) (tree.applyAll changes)

/-- A file is written by making it and filling it. -/
theorem writesAlong {location : Location} (contents : ByteArray)
    (hparent : location ≠ [] → tree.kindAt? location.dropLast = some .directory)
    (hold : tree.kindAt? location ≠ some .directory) :
    tree.WritesAlong location contents [.makeFile location, .fill location contents] := by
  refine ⟨fun front hfront => ?_, puts_file contents hparent hold⟩
  rcases List.prefix_cons_iff.mp hfront with rfl | ⟨rest, rfl, hrest⟩
  · exact .inl rfl
  rcases List.prefix_cons_iff.mp hrest with rfl | ⟨more, rfl, hmore⟩
  · exact .inr ⟨_, puts_makeFile hparent hold⟩
  · rw [List.prefix_nil.mp hmore]
    exact .inr ⟨_, puts_file contents hparent hold⟩

theorem writesAlong_vacant {directory : Location} {name : String} (contents : ByteArray)
    (h : tree.target path = .ok (.vacant directory name)) :
    tree.WritesAlong (tree.locationOf path) contents
      [.makeFile (directory ++ [name]), .fill (directory ++ [name]) contents] := by
  obtain ⟨hlocation, hparent, hfree, -⟩ := target_vacant h
  rw [← hlocation]
  refine writesAlong contents (fun _ => ?_) (by simp [hfree])
  rw [hlocation, List.dropLast_concat, hparent]

/-- A new file is written where nothing is. -/
theorem writeNew_ok {contents : ByteArray} {changes : List Change}
    (h : tree.writeNew path contents = .ok changes) :
    tree.kindAt? (tree.locationOf path) = none ∧
      tree.WritesAlong (tree.locationOf path) contents changes := by
  unfold writeNew at h
  split at h
  · cases h
  · cases h
  · rename_i htarget
    cases h
    exact ⟨(target_vacant htarget).2.2.1, writesAlong_vacant contents htarget⟩

/-- What stands somewhere stands in a directory. -/
theorem kindAt?_dropLast {location : Location} (h : tree.kindAt? location ≠ none)
    (hne : location ≠ []) : tree.kindAt? location.dropLast = some .directory := by
  have hself : tree.root.kindAt? (location.dropLast ++ [location.getLast hne]) ≠ none := by
    rwa [List.dropLast_append_getLast]
  exact Node.kindAt?_directory_of_append _ (List.cons_ne_nil _ _) hself

/-- What a file that is written replaces: nothing, or a file. -/
theorem write_ok {contents : ByteArray} {changes : List Change}
    (h : tree.write path contents = .ok changes) :
    (tree.exists? path = false ∧ tree.kindAt? (tree.locationOf path) = none ∨
      tree.exists? path = true ∧
        ∃ old, tree.kindAt? (tree.locationOf path) = some (.file old)) ∧
      tree.WritesAlong (tree.locationOf path) contents changes := by
  unfold write at h
  split at h
  · cases h
  · cases h
  · rename_i found old htarget
    cases h
    obtain ⟨rfl, hnode, hthere⟩ := target_node htarget
    have hkind := kindAt?_of_at? hnode
    exact ⟨.inr ⟨hthere, old, hkind⟩, writesAlong contents (kindAt?_dropLast (by simp [hkind]))
      (by simp [hkind, Node.kind])⟩
  · rename_i htarget
    cases h
    obtain ⟨-, -, hfree, hthere⟩ := target_vacant htarget
    exact ⟨.inl ⟨hthere, hfree⟩, writesAlong_vacant contents htarget⟩

theorem walk_ne_alreadyExists {location : Location} {steps : List String} :
    tree.walk location steps ≠ .error .alreadyExists := by
  induction steps generalizing location with
  | nil =>
      rw [walk]
      split <;> simp
  | cons step rest ih =>
      rw [walk]
      split
      · simp
      · simp
      split
      · exact ih
      split
      · exact ih
      split
      · simp
      split
      · exact ih
      split <;> simp

theorem target_ne_alreadyExists : tree.target path ≠ .error .alreadyExists := by
  unfold target
  split
  · rename_i hresolve
    rintro h
    cases h
    unfold resolve at hresolve
    split at hresolve
    · cases hresolve
    split at hresolve
    · cases hresolve
    split at hresolve
    · cases hresolve
    · exact walk_ne_alreadyExists hresolve
  · split <;> simp

/-- A name that is taken is only met where the path names something. -/
theorem exists?_of_writeNew {contents : ByteArray}
    (h : tree.writeNew path contents = .error .alreadyExists) : tree.exists? path = true := by
  unfold writeNew at h
  split at h
  · rename_i htarget
    cases h
    exact absurd htarget target_ne_alreadyExists
  · rename_i htarget
    exact (target_node htarget).2.2
  · cases h

end RouteScaffold.Files.FileTree
