import RouteScaffold.Proofs.Files.Parents
import RouteScaffold.Scaffold.Basic

/-!
# Where routes lead

A mapped path takes some names below the destination: its pieces that are more than nothing or a
single dot.  The directory of a route is the destination with these names pushed onto it, and it is
refused exactly when a step to a parent is among them (`directory?_eq`).  So everything that is
written for a document stands at the location of the destination followed by names, and where two
modules go is decided by their names alone (`below_inj`).
-/

namespace RouteScaffold.Files

/-- The path that some names lead to below a path. -/
def below (path : String) (names : List String) : String :=
  String.ofList (pushNames path.toList names)

theorem below_nil (path : String) : below path [] = path := String.ofList_toList

theorem below_append (path : String) (front back : List String) :
    below path (front ++ back) = below (below path front) back := by
  rw [below, below, below, String.toList_ofList, pushNames, List.foldl_append]
  rfl

section

variable (path : String) {names : List String} (h : ∀ name ∈ names, IsName name)

include h

theorem steps_below : steps (below path names) = steps path ++ names := by
  rw [below, steps_pushNames _ h, String.ofList_toList]

theorem FileTree.locationOf_below (tree : FileTree) :
    tree.locationOf (below path names) = tree.locationOf path ++ names := by
  rw [below, tree.locationOf_pushNames _ h, String.ofList_toList]

theorem FileTree.mem_wayTo_below (tree : FileTree) {other : Location} :
    other ∈ tree.wayTo (below path names) ↔
      other ∈ tree.wayTo path ∨
        ∃ front, front ≠ [] ∧ front <+: names ∧ other = tree.locationOf path ++ front := by
  rw [below, tree.mem_wayTo_pushNames _ h, String.ofList_toList]

end

/-- Different names lead to different paths. -/
theorem below_inj (path : String) {first second : List String}
    (hfirst : ∀ name ∈ first, IsName name) (hsecond : ∀ name ∈ second, IsName name) :
    below path first = below path second ↔ first = second := by
  constructor
  · -- the names can be told from the steps of the path
    intro h
    have hsteps := congrArg steps h
    rw [steps_below path hfirst, steps_below path hsecond] at hsteps
    exact List.append_cancel_left hsteps
  · rintro rfl
    rfl

end RouteScaffold.Files

namespace RouteScaffold.Route

open Files (Component IsName below)

/-- The names that a mapped path takes below a destination. -/
def segments (mapped : String) : List String :=
  ((Text.slashPieces mapped.toList).filter Files.isStep).map String.ofList

/-- Slashes at the start of a path give only empty pieces. -/
theorem inner_dropWhile (path : List Char) :
    Files.inner (path.dropWhile (· = '/')) = Files.inner path := by
  induction path with
  | nil => rfl
  | cons c rest ih =>
      by_cases hc : c = '/'
      · subst hc
        rw [List.dropWhile_cons_of_pos (by simp), ih, Files.inner, Files.inner,
          Text.slashPieces_cons_slash]
        rfl
      · rw [List.dropWhile_cons_of_neg (by simpa using hc)]

/-- A path without slashes at its start does not start at the root. -/
theorem descend_start (directory : List Char) (path : List Char) (found : List Component) :
    descend directory (Files.start (path.dropWhile (· = '/')) ++ found) =
      descend directory found := by
  have hhead : (path.dropWhile (· = '/')).head? ≠ some '/' := by
    intro h
    have hslash := List.head?_dropWhile_not (· = '/') path
    rw [h] at hslash
    simp at hslash
  rcases Files.start_cases (path.dropWhile (· = '/')) with ⟨-, habsolute⟩ | ⟨hstart, -⟩ | ⟨hstart, -⟩
  · rw [Files.isAbsolute_ofList] at habsolute
    exact absurd (of_decide_eq_true habsolute) hhead
  · rw [hstart]
    rfl
  · rw [hstart]
    rfl

theorem descend_inner (directory : List Char) (path : List Char) :
    descend directory (Files.inner path) =
      if ".." ∈ segments (String.ofList path) then none
      else some (Files.pushNames directory (segments (String.ofList path))) := by
  rw [segments, String.toList_ofList, Files.inner]
  induction (Text.slashPieces path).filter Files.isStep generalizing directory with
  | nil => rfl
  | cons piece rest ih =>
      rw [List.map_cons, List.map_cons]
      by_cases hpiece : piece = Files.parentSegment
      · rw [hpiece]
        exact (if_pos (List.mem_cons_self ..)).symm
      · have hname : ¬ ".." = String.ofList piece := by
          rw [show ".." = String.ofList Files.parentSegment from rfl, String.ofList_inj]
          exact fun h => hpiece h.symm
        have hmem : ".." ∈ rest.map String.ofList ↔
            ".." ∈ String.ofList piece :: rest.map String.ofList := by
          rw [List.mem_cons, or_iff_right hname]
        rw [Component.ofPiece, if_neg hpiece, descend, ih]
        refine if_congr hmem rfl ?_
        rw [Files.pushNames, Files.pushNames, List.foldl_cons, String.toList_ofList]

/-- The directory of a mapped path is the destination with the names of the path below it. -/
theorem directory?_eq (destination mapped : String) :
    directory? destination mapped =
      if ".." ∈ segments mapped then none else some (below destination (segments mapped)) := by
  rw [directory?, Files.components_eq, descend_start, inner_dropWhile, descend_inner,
    String.ofList_toList]
  split <;> rfl

theorem isName_of_mem_segments {mapped : String} (h : ".." ∉ segments mapped) :
    ∀ name ∈ segments mapped, IsName name := by
  intro name hname
  obtain ⟨piece, hpiece, rfl⟩ := List.mem_map.mp hname
  obtain ⟨hmem, hstep⟩ := List.mem_filter.mp hpiece
  have hkept : piece ≠ [] ∧ piece ≠ ['.'] := by simpa [Files.isStep] using hstep
  refine ⟨?_, ?_, ?_, fun hparent => h (hparent ▸ hname)⟩
  · rw [Ne, String.ofList_eq_empty_iff]
    exact hkept.1
  · rw [String.toList_ofList]
    exact Text.slash_not_mem_of_mem_slashPieces hmem
  · rw [Ne, Files.ofList_eq_dot]
    exact hkept.2

end RouteScaffold.Route

namespace RouteScaffold.Scaffold

open Files (FileTree IsName Location below)
open OpenApi (Method)

/-! ## Files of modules -/

theorem isName_fileName (method : Method) (style : Style) : IsName (fileName method style) := by
  cases method <;> cases style <;> constructor <;> decide

theorem nul_not_mem_fileName (style : Style) (method : Method) :
    '\x00' ∉ (fileName method style).toList := by
  cases style <;> cases method <;> decide

theorem fileName_short (method : Method) (style : Style) :
    (fileName method style).utf8ByteSize ≤ Files.nameLimit := by
  cases style <;> cases method <;> decide

theorem fileName_inj {first second : Method} {style : Style} :
    fileName first style = fileName second style ↔ first = second := by
  constructor
  · cases first <;> cases second <;> cases style <;> decide
  · rintro rfl
    rfl

namespace Route

/-- The names of the directory of a route below its destination. -/
def segments (route : Route) : List String := RouteScaffold.Route.segments route.mapped

variable {destination template : String} {route : Route}

theorem of?_eq (destination template : String) :
    Route.of? destination template =
      if ".." ∈ RouteScaffold.Route.segments (RouteScaffold.Route.mapTemplate template) then none
      else some ⟨template, RouteScaffold.Route.mapTemplate template,
        below destination (RouteScaffold.Route.segments (RouteScaffold.Route.mapTemplate template))⟩ := by
  rw [Route.of?, RouteScaffold.Route.directory?_eq]
  split <;> rfl

/-- The directory of a route is the destination with the route's segments, all of them names, below
it. -/
theorem of?_eq_some (h : Route.of? destination template = some route) :
    route.template = template ∧ route.mapped = RouteScaffold.Route.mapTemplate template ∧
      route.directory = below destination route.segments ∧ ∀ name ∈ route.segments, IsName name := by
  rw [of?_eq] at h
  split at h
  · cases h
  · rename_i hparent
    cases h
    exact ⟨rfl, rfl, rfl, RouteScaffold.Route.isName_of_mem_segments hparent⟩

/-- The names of a module's file below its destination. -/
def fileNames (route : Route) (method : Method) (style : Style) : List String :=
  route.segments ++ [fileName method style]

theorem isName_of_mem_fileNames (h : Route.of? destination template = some route) (method : Method)
    (style : Style) : ∀ name ∈ route.fileNames method style, IsName name := by
  intro name hname
  rcases List.mem_append.mp hname with hname | hname
  · exact (of?_eq_some h).2.2.2 name hname
  · rw [List.mem_singleton.mp hname]
    exact isName_fileName method style

theorem scaffold_file (h : Route.of? destination template = some route) (method : Method)
    (style : Style) (found : Synthesis) :
    (route.scaffold method style found).file = below destination (route.fileNames method style) := by
  rw [fileNames, Files.below_append, ← (of?_eq_some h).2.2.1]
  rfl

end Route

end RouteScaffold.Scaffold
