import RouteScaffold.Proofs.Route.Descent

/-!
# The directory of a mapped path

A mapped path is cut into pieces at its slashes.  Some of them are kept, those that are neither empty nor a single
dot, and the directory is the destination with the kept pieces pushed onto it one after the other; it is refused
exactly when a piece is a step to the parent (`directory?_exact`).

Nothing is pushed that starts with a slash, so that the destination is never replaced: its text stays in front, and
the directory is absolute exactly when the destination is.  And the kept pieces can be told from the directory, so
that two paths share a directory only when they keep the same pieces.
-/

namespace RouteScaffold.Files

/-! ## Pushing -/

/-- A path with a piece after it: a slash goes between them unless the path is empty or ends in one. -/
def pushed (path piece : String) : String :=
  if path = "" ∨ endsInSlash path = true then path ++ piece else path ++ "/" ++ piece

theorem join_eq_pushed (path piece : String) : join path piece = pushed path piece := by
  rw [← String.toList_inj, join, String.toList_ofList, push, pushed, endsInSlash]
  split
  · rename_i hlast
    have hempty : path = "" := String.toList_eq_nil_iff.mp (List.getLast?_eq_none_iff.mp hlast)
    rw [if_pos (.inl hempty), hempty]
    rfl
  · rename_i hlast
    rw [if_pos (.inr (by simp [hlast])), String.toList_append]
  · rename_i c hslash hlast
    have hne : path ≠ "" := by
      rintro rfl
      cases hlast
    have hopen : path.toList.getLast? ≠ some '/' := by
      rw [hlast]
      exact fun h => hslash (Option.some.inj h)
    rw [if_neg (by simp [hne, hopen]), String.toList_append, String.toList_append, List.append_assoc]
    rfl

/-- Names are pushed one after the other. -/
theorem below_eq_foldl (path : String) (names : List String) : below path names = names.foldl pushed path := by
  induction names generalizing path with
  | nil => exact below_nil path
  | cons name rest ih =>
      rw [List.foldl_cons, ← ih, ← join_eq_pushed, below, below, join, String.toList_ofList]
      rfl

theorem prefix_push (path segment : List Char) : path <+: push path segment := by
  unfold push
  split
  · rename_i hlast
    rw [List.getLast?_eq_none_iff.mp hlast]
    exact List.nil_prefix
  · exact List.prefix_append _ _
  · exact List.prefix_append _ _

/-- The text of a path stays in front of the names that are pushed onto it. -/
theorem prefix_below (path : String) (names : List String) : path.toList <+: (below path names).toList := by
  rw [below, String.toList_ofList, pushNames]
  generalize path.toList = front
  induction names generalizing front with
  | nil => exact List.prefix_rfl
  | cons name rest ih => exact (prefix_push front name.toList).trans (ih _)

end RouteScaffold.Files

namespace RouteScaffold.Route

open Files (below pushed)

/-! ## Pieces -/

/-- The pieces of a text between its slashes. -/
def pieces (text : String) : List String := (text.toList.splitOn '/').map String.ofList

/-- The pieces of a text that are neither empty nor a single dot. -/
def keptPieces (text : String) : List String :=
  (pieces text).filter fun piece => piece ≠ "" ∧ piece ≠ "."

/-- The names that a mapped path takes are its kept pieces. -/
theorem segments_eq_keptPieces (mapped : String) : segments mapped = keptPieces mapped := by
  have hkept : ∀ piece : List Char,
      Files.isStep piece = decide (String.ofList piece ≠ "" ∧ String.ofList piece ≠ ".") := by
    intro piece
    rw [Bool.eq_iff_iff, decide_eq_true_iff, ne_eq, ne_eq, String.ofList_eq_empty_iff, Files.ofList_eq_dot]
    simp [Files.isStep]
  rw [segments, keptPieces, pieces, List.filter_map, Text.slashPieces_eq_splitOn]
  exact congrArg _ (List.filter_congr fun piece _ => hkept piece)

/-- A step to the parent is kept. -/
theorem parent_mem_keptPieces {mapped : String} : ".." ∈ keptPieces mapped ↔ ".." ∈ pieces mapped := by
  rw [keptPieces, List.mem_filter]
  exact and_iff_left (by decide)

/-! ## Directories -/

/-- The directory of a mapped path is the destination with the kept pieces pushed onto it. -/
theorem directory?_eq_foldl (destination mapped : String) :
    directory? destination mapped =
      if ".." ∈ pieces mapped then none else some ((keptPieces mapped).foldl pushed destination) := by
  rw [directory?_eq, segments_eq_keptPieces, Files.below_eq_foldl]
  exact if_congr parent_mem_keptPieces rfl rfl

theorem directory?_eq_none_iff {destination mapped : String} :
    directory? destination mapped = none ↔ ".." ∈ pieces mapped := by
  rw [directory?_eq_foldl]
  split <;> simp_all

/-- Where there is no step to the parent, the kept pieces are names. -/
theorem isName_of_mem_keptPieces {mapped : String} (h : ".." ∉ pieces mapped) :
    ∀ piece ∈ keptPieces mapped, Files.IsName piece := by
  rw [← segments_eq_keptPieces]
  refine isName_of_mem_segments ?_
  rwa [segments_eq_keptPieces, parent_mem_keptPieces]

theorem directory?_eq_some {destination mapped directory : String}
    (h : directory? destination mapped = some directory) :
    ".." ∉ pieces mapped ∧ directory = below destination (keptPieces mapped) := by
  rw [directory?_eq_foldl, ← Files.below_eq_foldl] at h
  split at h
  · cases h
  · rename_i hparent
    exact ⟨hparent, (Option.some.inj h).symm⟩

/-- Paths that are not refused have one directory exactly when they keep the same pieces. -/
theorem directory?_inj {destination first second : String} (hfirst : ".." ∉ pieces first)
    (hsecond : ".." ∉ pieces second) :
    directory? destination first = directory? destination second ↔ keptPieces first = keptPieces second := by
  rw [directory?_eq_foldl, directory?_eq_foldl, if_neg hfirst, if_neg hsecond, Option.some_inj,
    ← Files.below_eq_foldl, ← Files.below_eq_foldl]
  exact Files.below_inj destination (isName_of_mem_keptPieces hfirst) (isName_of_mem_keptPieces hsecond)

/-- The destination is the start of each directory below it, which is absolute when the destination is. -/
theorem directory?_below {destination mapped directory : String}
    (h : directory? destination mapped = some directory) :
    destination.toList <+: directory.toList ∧ Files.isAbsolute directory = Files.isAbsolute destination := by
  obtain ⟨hparent, rfl⟩ := directory?_eq_some h
  refine ⟨Files.prefix_below destination _, ?_⟩
  rw [below, Files.isAbsolute_pushNames _ (isName_of_mem_keptPieces hparent), String.ofList_toList]

/-- A mapped path is refused exactly when one of its pieces is a step to the parent, and otherwise has the
directory that is the destination with the kept pieces pushed onto it.  So two paths that are not refused have one
directory exactly when they keep the same pieces, and no path leads away from the destination. -/
theorem directory?_exact (destination : String) :
    (∀ mapped, directory? destination mapped =
      if ".." ∈ pieces mapped then none else some ((keptPieces mapped).foldl pushed destination)) ∧
      (∀ first second, ".." ∉ pieces first → ".." ∉ pieces second →
        (directory? destination first = directory? destination second ↔
          keptPieces first = keptPieces second)) ∧
        ∀ mapped directory, directory? destination mapped = some directory →
          destination.toList <+: directory.toList ∧
            Files.isAbsolute directory = Files.isAbsolute destination :=
  ⟨directory?_eq_foldl destination, fun _ _ => directory?_inj, fun _ _ => directory?_below⟩

/-- Slashes at the start and at the end of a path and between its pieces do not matter, and the directory stays a
relative one. -/
theorem directory?_exact_slashed :
    ".." ∉ pieces "//a/.//b/" ∧ ".." ∉ pieces "a/b" ∧ keptPieces "//a/.//b/" = keptPieces "a/b" ∧
      directory? "out" "//a/.//b/" = directory? "out" "a/b" ∧
        directory? "out" "//a/.//b/" = some "out/a/b" ∧ "out".toList <+: "out/a/b".toList ∧
          Files.isAbsolute "out/a/b" = Files.isAbsolute "out" := by
  have hfirst : ".." ∉ pieces "//a/.//b/" := by decide
  have hsecond : ".." ∉ pieces "a/b" := by decide
  have hkept : keptPieces "//a/.//b/" = keptPieces "a/b" := by decide
  have hdirectory : directory? "out" "//a/.//b/" = some "out/a/b" := by cbv
  obtain ⟨-, hinj, hbelow⟩ := directory?_exact "out"
  exact ⟨hfirst, hsecond, hkept, (hinj _ _ hfirst hsecond).mpr hkept, hdirectory, hbelow _ _ hdirectory⟩

end RouteScaffold.Route
