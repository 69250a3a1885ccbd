import RouteScaffold.Proofs.Files.Sibling
import RouteScaffold.Proofs.Files.Visits

/-!
# Paved ways

The way of a path is paved when all that the path looks at before its end is directories (`Paved`).  Then, and
only then, the path leads somewhere: to what stands at its location, or to a free name there (`Leads`).  A path
that ends in a slash leads to directories only.

Calls are decided by this.  A path names something when it leads to it (`exists?_iff_leads`), a new file is
written where a path leads to a free name (`writeNew_of_leads`), and any one where it leads to no directory
(`write_of_leads`).  Otherwise the fault tells what is in the way (`Explains`).
-/

namespace RouteScaffold.Files

theorem isAbsolute_of_steps_eq_nil {path : String} (hne : path.isEmpty = false) (h : steps path = []) :
    isAbsolute path = true := by
  rw [steps, List.map_eq_nil_iff, List.filter_eq_nil_iff] at h
  rw [isAbsolute, decide_eq_true_eq]
  cases hpath : path.toList with
  | nil => simp [String.toList_eq_nil_iff.mp hpath] at hne
  | cons c rest =>
      by_cases hslash : c = '/'
      · rw [hslash, List.head?_cons]
      · -- otherwise the first piece is not empty
        obtain ⟨piece, more, hrest⟩ := Text.exists_slashPieces_eq_cons rest
        rw [hpath, Text.slashPieces_cons hslash hrest] at h
        simpa using h _ List.mem_cons_self

namespace FileTree

variable {tree : FileTree} {location : Location} {path : String}

/-! ## Following steps -/

theorem spotFrom_cons_short {step : String} (rest : List String)
    (hhere : tree.shapeAt? location = some true) (hshort : step.utf8ByteSize ≤ nameLimit) :
    tree.spotFrom location (step :: rest) =
      if rest = [] ∧ tree.shapeAt? (followStep location step) = none then .ok (.free location step)
      else tree.spotFrom (followStep location step) rest := by
  rw [spotFrom_followStep, hhere]
  exact if_neg (Nat.not_lt.mpr hshort)

/-- Steps lead somewhere when they are short and all they pass is directories. -/
theorem exists_spotFrom_iff {steps : List String} (hstart : steps = [] → tree.shapeAt? location ≠ none) :
    (∃ found, tree.spotFrom location steps = .ok found) ↔
      (∀ step ∈ steps, step.utf8ByteSize ≤ nameLimit) ∧
        ∀ passed ∈ (location :: way location steps).dropLast, tree.shapeAt? passed = some true := by
  induction steps generalizing location with
  | nil =>
      obtain ⟨isDirectory, hshape⟩ := Option.ne_none_iff_exists'.mp (hstart rfl)
      rw [spotFrom_nil, hshape]
      simp [way]
  | cons step rest ih =>
      rw [way, List.dropLast_cons_cons, List.forall_mem_cons, List.forall_mem_cons]
      constructor
      · rintro ⟨found, hfound⟩
        obtain ⟨hstep, hrest⟩ := List.forall_mem_cons.mp (short_of_spotFrom hfound)
        have hhere := shapeAt?_of_spotFrom hfound (List.cons_ne_nil _ _)
        rw [spotFrom_cons_short rest hhere hstep] at hfound
        refine ⟨⟨hstep, hrest⟩, hhere, ?_⟩
        -- the last step need not lead to anything
        by_cases hlast : rest = []
        · rw [hlast]
          simp [way]
        · rw [if_neg fun h => hlast h.1] at hfound
          exact ((ih fun hnil => absurd hnil hlast).mp ⟨found, hfound⟩).2
      · rintro ⟨⟨hstep, hrest⟩, hhere, hway⟩
        rw [spotFrom_cons_short rest hhere hstep]
        split
        · exact ⟨_, rfl⟩
        · rename_i hnot
          exact (ih fun hnil hnone => hnot ⟨hnil, hnone⟩).mpr ⟨hrest, hway⟩

/-! ## Paths -/

/-- The way of a path is paved: the path passes, its steps are short, and all it looks at before its end is
directories. -/
structure Paved (tree : FileTree) (path : String) : Prop where
  passes : Passes path
  short : ∀ step ∈ Files.steps path, step.utf8ByteSize ≤ nameLimit
  way : ∀ location ∈ (tree.visits path).dropLast, tree.kindAt? location = some .directory

/-- A path leads to what stands at its location, or to the free name there. -/
structure Leads (tree : FileTree) (path : String) (found : Option Kind) : Prop where
  paved : tree.Paved path
  kindAt?_eq : tree.kindAt? (tree.locationOf path) = found
  /-- A slash at the end asks for a directory. -/
  directory : endsInSlash path = true → found = some .directory

/-- A path without steps starts at the root, where something always stands. -/
theorem shapeAt?_startOf_ne_none (hpasses : Passes path) (h : Files.steps path = []) :
    tree.shapeAt? (tree.startOf path) ≠ none := by
  rw [startOf, if_pos (isAbsolute_of_steps_eq_nil hpasses.ne_empty h), shapeAt?, kindAt?, Node.kindAt?_nil]
  exact Option.some_ne_none _

theorem exists_spot_iff_paved : (∃ found, tree.spot path = .ok found) ↔ tree.Paved path := by
  have hiff : Passes path → ((∃ found, tree.spot path = .ok found) ↔
      (∀ step ∈ Files.steps path, step.utf8ByteSize ≤ nameLimit) ∧
        ∀ passed ∈ (tree.visits path).dropLast, tree.kindAt? passed = some .directory) := by
    intro hpasses
    simp only [← shapeAt?_eq_true]
    rw [spot_of_passes hpasses]
    exact exists_spotFrom_iff (shapeAt?_startOf_ne_none hpasses)
  constructor
  · rintro ⟨found, hfound⟩
    have hpasses := passes_of_spot hfound
    obtain ⟨hshort, hway⟩ := (hiff hpasses).mp ⟨found, hfound⟩
    exact ⟨hpasses, hshort, hway⟩
  · exact fun h => (hiff h.passes).mpr ⟨h.short, h.way⟩

theorem shapeAt?_of_spot_there {isDirectory : Bool} (h : tree.spot path = .ok (.there location isDirectory)) :
    tree.locationOf path = location ∧ tree.shapeAt? location = some isDirectory := by
  refine ⟨locationOf_of_spot_there h, ?_⟩
  rw [spot_of_passes (passes_of_spot h)] at h
  exact (spotFrom_there h).2

theorem kindAt?_of_spot_free {directory : Location} {name : String}
    (h : tree.spot path = .ok (.free directory name)) : tree.kindAt? (tree.locationOf path) = none := by
  obtain ⟨hlocation, -, -, hfree⟩ := resolve_vacant (resolve_of_spot_free h)
  rw [hlocation, hfree]

namespace Leads

variable {kind : Kind}

/-- A path leads to one thing only. -/
theorem iff_eq {found other : Option Kind} (h : tree.Leads path found) :
    tree.Leads path other ↔ other = found := by
  constructor
  · intro hother
    rw [← hother.kindAt?_eq, h.kindAt?_eq]
  · rintro rfl
    exact h

theorem spot_some (h : tree.Leads path (some kind)) :
    tree.spot path = .ok (.there (tree.locationOf path) kind.isDirectory) := by
  obtain ⟨⟨location, isDirectory⟩ | ⟨directory, name⟩, hspot⟩ := exists_spot_iff_paved.mpr h.paved
  · obtain ⟨rfl, hshape⟩ := shapeAt?_of_spot_there hspot
    rw [shapeAt?, h.kindAt?_eq, Option.map_some] at hshape
    rw [hspot, Option.some.inj hshape]
  · cases (kindAt?_of_spot_free hspot).symm.trans h.kindAt?_eq

theorem spot_none (h : tree.Leads path none) :
    (∃ directory name, tree.spot path = .ok (.free directory name) ∧
      tree.locationOf path = directory ++ [name]) ∧ endsInSlash path = false := by
  have hslash : endsInSlash path = false := by
    rw [← Bool.not_eq_true]
    exact fun hslash => nomatch h.directory hslash
  refine ⟨?_, hslash⟩
  obtain ⟨⟨location, isDirectory⟩ | ⟨directory, name⟩, hspot⟩ := exists_spot_iff_paved.mpr h.paved
  · obtain ⟨rfl, hshape⟩ := shapeAt?_of_spot_there hspot
    rw [shapeAt?, h.kindAt?_eq] at hshape
    cases hshape
  · exact ⟨directory, name, hspot, locationOf_of_spot_free hspot⟩

end Leads

theorem leads_of_spot_there {isDirectory : Bool} (h : tree.spot path = .ok (.there location isDirectory))
    (hslash : endsInSlash path = true → isDirectory = true) : ∃ kind, tree.Leads path (some kind) := by
  obtain ⟨rfl, hshape⟩ := shapeAt?_of_spot_there h
  obtain ⟨kind, hkind, rfl⟩ := Option.map_eq_some_iff.mp hshape
  refine ⟨kind, exists_spot_iff_paved.mp ⟨_, h⟩, hkind, fun hends => ?_⟩
  rw [Kind.isDirectory_eq_true.mp (hslash hends)]

theorem leads_of_spot_free {directory : Location} {name : String}
    (h : tree.spot path = .ok (.free directory name)) (hslash : endsInSlash path = false) :
    tree.Leads path none :=
  ⟨exists_spot_iff_paved.mp ⟨_, h⟩, kindAt?_of_spot_free h, fun hends => by simp [hslash] at hends⟩

/-! ## Calls -/

theorem exists?_iff_leads : tree.exists? path = true ↔ ∃ kind, tree.Leads path (some kind) := by
  constructor
  · intro h
    rw [exists?_eq] at h
    split at h
    · rename_i hspot
      refine leads_of_spot_there hspot fun hslash => ?_
      simpa [hslash] using h
    · cases h
  · rintro ⟨kind, h⟩
    rw [exists?_eq, h.spot_some, Bool.or_eq_true, Bool.not_eq_true', ← Bool.not_eq_true]
    by_cases hslash : endsInSlash path = true
    · exact .inl (Kind.isDirectory_eq_true.mpr (Option.some.inj (h.directory hslash)))
    · exact .inr hslash

variable (contents : ByteArray)

/-- A new file is written where the path leads to a free name. -/
theorem writeNew_of_leads (h : tree.Leads path none) :
    tree.writeNew path contents =
      .ok [.makeFile (tree.locationOf path), .fill (tree.locationOf path) contents] := by
  obtain ⟨⟨directory, name, hspot, hlocation⟩, hslash⟩ := h.spot_none
  rw [writeNew_eq, hspot, hslash, hlocation]
  rfl

/-- A file is written where the path leads to a free name or to a file. -/
theorem write_of_leads {found : Option Kind} (h : tree.Leads path found) (hfound : found ≠ some .directory) :
    tree.write path contents =
      .ok [.makeFile (tree.locationOf path), .fill (tree.locationOf path) contents] := by
  have hslash : endsInSlash path = false := by
    rw [← Bool.not_eq_true]
    exact fun hslash => hfound (h.directory hslash)
  cases found with
  | none =>
      obtain ⟨⟨directory, name, hspot, hlocation⟩, -⟩ := h.spot_none
      rw [write_eq, hspot, hslash, hlocation]
      rfl
  | some kind =>
      cases kind with
      | directory => exact absurd rfl hfound
      | file old =>
          rw [write_eq, h.spot_some, hslash]
          rfl

theorem write_of_leads_directory (h : tree.Leads path (some .directory)) :
    tree.write path contents = .error .isDirectory := by
  rw [write_eq, h.spot_some]
  rfl

/-! ## Files that are put -/

section

variable {contents} {before after : FileTree} {place : Location}

theorem Paved.of_directories (h : before.Paved path) (hcurrent : after.current = before.current)
    (hdirectories : ∀ location, before.kindAt? location = some .directory →
      after.kindAt? location = some .directory) : after.Paved path := by
  refine ⟨h.passes, h.short, fun location hlocation => hdirectories _ (h.way _ ?_)⟩
  rwa [visits_congr hcurrent] at hlocation

variable (hputs : before.Puts place (.file contents) after) (hold : before.kindAt? place ≠ some .directory)

include hputs hold

/-- A file that is put where no directory is changes nothing about directories. -/
theorem Puts.paved_iff : after.Paved path ↔ before.Paved path := by
  have hplace := hputs.kindAt?_self
  constructor
  · refine fun h => h.of_directories hputs.current_eq.symm fun location hdirectory => ?_
    rw [← hputs.kindAt?_of_ne, hdirectory]
    rintro rfl
    cases hplace.symm.trans hdirectory
  · refine fun h => h.of_directories hputs.current_eq fun location hdirectory => ?_
    rw [hputs.kindAt?_of_ne, hdirectory]
    rintro rfl
    exact hold hdirectory

theorem Puts.leads_iff {found : Option Kind} (hne : before.locationOf path ≠ place) :
    after.Leads path found ↔ before.Leads path found := by
  have hlocation := locationOf_congr hputs.current_eq path
  have hkind : after.kindAt? (after.locationOf path) = before.kindAt? (before.locationOf path) := by
    rw [hlocation, hputs.kindAt?_of_ne hne]
  have hpaved : after.Paved path ↔ before.Paved path := hputs.paved_iff hold
  constructor
  · exact fun h => ⟨hpaved.mp h.paved, hkind ▸ h.kindAt?_eq, h.directory⟩
  · exact fun h => ⟨hpaved.mpr h.paved, hkind ▸ h.kindAt?_eq, h.directory⟩

end

/-! ## Faults -/

/-- A fault that is met when some steps are taken from the locations that are passed: a step is too long, nothing
is at a location, or a file. -/
inductive Blocks (tree : FileTree) (steps : List String) (passed : List Location) : Fault → Prop
  | long {step : String} (hmem : step ∈ steps) (hlong : nameLimit < step.utf8ByteSize) :
      Blocks tree steps passed .nameTooLong
  | missing {location : Location} (hmem : location ∈ passed) (hnone : tree.kindAt? location = none) :
      Blocks tree steps passed .notFound
  | file {location : Location} {contents : ByteArray} (hmem : location ∈ passed)
      (hfile : tree.kindAt? location = some (.file contents)) : Blocks tree steps passed .notDirectory

/-- A fault tells why a file cannot be written at a path. -/
inductive Explains (tree : FileTree) (path : String) : Fault → Prop
  | nul (hmem : '\x00' ∈ path.toList) : Explains tree path .nulByte
  | empty (hempty : path = "") : Explains tree path .notFound
  | long (hsize : pathLimit ≤ path.utf8ByteSize) : Explains tree path .nameTooLong
  | blocked {fault : Fault} (hblocks : tree.Blocks (Files.steps path) (tree.visits path).dropLast fault) :
      Explains tree path fault
  | slash (hslash : endsInSlash path = true) : Explains tree path .isDirectory
  | directory (hdirectory : tree.kindAt? (tree.locationOf path) = some .directory) :
      Explains tree path .isDirectory

theorem Blocks.mono {steps more : List String} {passed others : List Location} {fault : Fault}
    (h : tree.Blocks steps passed fault) (hsteps : steps ⊆ more) (hpassed : passed ⊆ others) :
    tree.Blocks more others fault := by
  cases h with
  | long hmem hlong => exact .long (hsteps hmem) hlong
  | missing hmem hnone => exact .missing (hpassed hmem) hnone
  | file hmem hfile => exact .file (hpassed hmem) hfile

theorem blocks_of_spotFrom {steps : List String} {fault : Fault}
    (hstart : steps = [] → tree.shapeAt? location ≠ none)
    (h : tree.spotFrom location steps = .error fault) :
    tree.Blocks steps (location :: way location steps).dropLast fault := by
  induction steps generalizing location with
  | nil =>
      obtain ⟨isDirectory, hshape⟩ := Option.ne_none_iff_exists'.mp (hstart rfl)
      rw [spotFrom_nil, hshape] at h
      cases h
  | cons step rest ih =>
      rw [way, List.dropLast_cons_cons]
      -- each fault of a step is met where the step is taken
      rw [spotFrom_followStep] at h
      split at h
      · rename_i hhere
        cases h
        exact .missing List.mem_cons_self (Option.map_eq_none_iff.mp hhere)
      · rename_i hhere
        cases h
        obtain ⟨kind, hkind, hfile⟩ := Option.map_eq_some_iff.mp hhere
        cases kind with
        | directory => cases hfile
        | file contents => exact .file List.mem_cons_self hkind
      split at h
      · cases h
        exact .long List.mem_cons_self ‹_›
      split at h
      · cases h
      · rename_i hnot
        exact (ih (fun hnil hnone => hnot ⟨hnil, hnone⟩) h).mono (List.subset_cons_self ..)
          (List.subset_cons_self ..)

theorem explains_of_spot {fault : Fault} (h : tree.spot path = .error fault) :
    tree.Explains path fault := by
  by_cases hpasses : Passes path
  · rw [spot_of_passes hpasses] at h
    exact .blocked (blocks_of_spotFrom (shapeAt?_startOf_ne_none hpasses) h)
  rw [spot_eq_ite] at h
  split at h
  · rename_i hnul
    cases h
    exact .nul (List.contains_iff_mem.mp hnul)
  rename_i hnul
  split at h
  · rename_i hempty
    cases h
    exact .empty (String.isEmpty_iff.mp hempty)
  rename_i hempty
  split at h
  · rename_i hsize
    cases h
    exact .long hsize
  · rename_i hsize
    exact absurd ⟨by simpa using hnul, by simpa using hempty, Nat.not_le.mp hsize⟩ hpasses

/-- Where a path leads nowhere no file is written, and the fault tells why. -/
theorem exists_fault_of_not_leads (h : ∀ found, ¬ tree.Leads path found) :
    ∃ fault, tree.Explains path fault ∧ ∀ contents,
      tree.writeNew path contents = .error fault ∧ tree.write path contents = .error fault := by
  rcases hspot : tree.spot path with fault | ⟨location, isDirectory⟩ | ⟨directory, name⟩
  · refine ⟨fault, explains_of_spot hspot, fun contents => ?_⟩
    rw [writeNew_eq, write_eq, hspot]
    exact ⟨rfl, rfl⟩
  · -- a path that leads to something ends in a slash, and that is no directory
    have hends : endsInSlash path = true ∧ isDirectory = false := by
      by_contra hnot
      have hslash : endsInSlash path = true → isDirectory = true := by
        intro hslash
        cases isDirectory with
        | true => rfl
        | false => exact absurd ⟨hslash, rfl⟩ hnot
      obtain ⟨kind, hkind⟩ := leads_of_spot_there hspot hslash
      exact h _ hkind
    refine ⟨.isDirectory, .slash hends.1, fun contents => ?_⟩
    rw [writeNew_eq, write_eq, hspot, hends.1, hends.2]
    exact ⟨rfl, rfl⟩
  · have hends : endsInSlash path = true := by
      by_contra hslash
      exact h _ (leads_of_spot_free hspot (Bool.not_eq_true _ ▸ hslash))
    refine ⟨.isDirectory, .slash hends, fun contents => ?_⟩
    rw [writeNew_eq, write_eq, hspot, hends]
    exact ⟨rfl, rfl⟩

/-! ## Names in a directory -/

theorem nul_not_mem_join {directory name : String} (hdirectory : '\x00' ∉ directory.toList)
    (hname : '\x00' ∉ name.toList) : '\x00' ∉ (join directory name).toList := by
  rw [join, String.toList_ofList]
  unfold push
  split
  · exact hname
  · simp [hdirectory, hname]
  · simp [hdirectory, hname]

section

variable {directory name : String} (hname : IsName name) (hnul : '\x00' ∉ name.toList)

include hname hnul

/-- A path that ends in a name leads on from what its directory leads to. -/
theorem spot_join (hdirectory : '\x00' ∉ directory.toList)
    (hsize : (join directory name).utf8ByteSize < pathLimit) (tree : FileTree) :
    tree.spot (join directory name) =
      tree.onward (tree.spotFrom (tree.startOf directory) (Files.steps directory)) [name] := by
  have hpasses : Passes (join directory name) := by
    refine ⟨?_, isEmpty_join hname directory, hsize⟩
    rw [List.contains_eq_mem, decide_eq_false_iff_not]
    exact nul_not_mem_join hdirectory hnul
  rw [spot_of_passes hpasses, startOf_join hname, steps_join hname,
    spotFrom_append _ _ _ (List.cons_ne_nil _ _)]

/-- A short name in a directory leads somewhere, unless its path is too long. -/
theorem paved_join (hshort : name.utf8ByteSize ≤ nameLimit)
    (hsize : (join directory name).utf8ByteSize < pathLimit) (hdirectory : '\x00' ∉ directory.toList)
    {found : Location}
    (hspot : tree.spotFrom (tree.startOf directory) (Files.steps directory) = .ok (.there found true)) :
    tree.Paved (join directory name) := by
  rw [← exists_spot_iff_paved, spot_join hname hnul hdirectory hsize, hspot, onward,
    spotFrom_cons_short [] (spotFrom_there hspot).2 hshort]
  split
  · exact ⟨_, rfl⟩
  · rename_i hthere
    obtain ⟨isDirectory, hshape⟩ := Option.ne_none_iff_exists'.mp fun hnone => hthere ⟨rfl, hnone⟩
    rw [spotFrom_nil, hshape]
    exact ⟨_, rfl⟩

end

end FileTree

end RouteScaffold.Files
