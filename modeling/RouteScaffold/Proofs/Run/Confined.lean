import RouteScaffold.Proofs.Run.Along

/-!
# Nothing is written outside the destination

Whatever the paths of a document are, a run changes only what stands below its destination and, where
directories are missing, on the way to it (`run_confined`).  What is appended to the destination are
names: they are not empty, hold no slash, and lead neither nowhere nor to a parent.  `Becomes` lists
what a run may make of a single location.  It can be chained, so it holds after each change of a run,
whether the run succeeds, fails, or is cut short.
-/

namespace RouteScaffold.Run

open Files (FileTree IsName Kind Location below)
open OpenApi (Method)
open Scaffold (Route fileName)

/-- What an emitter may make of what stands at a location. -/
inductive Becomes (emitter : Emitter) (files : FileTree) (location : Location) :
    Option Kind → Option Kind → Prop
  | unchanged (kind : Option Kind) : Becomes emitter files location kind kind
  /-- A directory is made where a lexical prefix of the destination leads to. -/
  | prefixed (hway : location ∈ files.wayTo emitter.destination) :
      Becomes emitter files location none (some .directory)
  /-- A directory is made at one or more names below the destination. -/
  | below {names : List String} (hne : names ≠ []) (hnames : ∀ name ∈ names, IsName name)
      (hlocation : location = files.locationOf emitter.destination ++ names) :
      Becomes emitter files location none (some .directory)
  /-- A file of a method is written at names below the destination, where nothing is or in place of a
  file that is overwritten. -/
  | module {names : List String} {method : Method} {old : Option Kind} (contents : ByteArray)
      (hnames : ∀ name ∈ names, IsName name)
      (hlocation : location =
        files.locationOf emitter.destination ++ names ++ [fileName method emitter.style])
      (hold : old = none ∨ emitter.policy = .overwrite ∧ ∃ replaced, old = some (.file replaced)) :
      Becomes emitter files location old (some (.file contents))

namespace Becomes

variable {emitter : Emitter} {files : FileTree} {location : Location}
  {first second third : Option Kind}

theorem trans (hfirst : Becomes emitter files location first second)
    (hsecond : Becomes emitter files location second third) :
    Becomes emitter files location first third := by
  cases hsecond with
  | unchanged => exact hfirst
  | prefixed hway =>
      cases hfirst with
      | unchanged => exact .prefixed hway
  | below hne hnames hlocation =>
      cases hfirst with
      | unchanged => exact .below hne hnames hlocation
  | module contents hnames hlocation hold =>
      -- what is written over a module of the same run was nothing or a file before
      refine .module contents hnames hlocation ?_
      cases hfirst with
      | unchanged => exact hold
      | prefixed hway => simp at hold
      | below hne hmore hplace => simp at hold
      | module middle hmore hplace hbefore => exact hbefore

theorem congr {other : FileTree} (hcurrent : other.current = files.current)
    (h : Becomes emitter other location first second) :
    Becomes emitter files location first second := by
  cases h with
  | unchanged => exact .unchanged _
  | prefixed hway => exact .prefixed (by rwa [← FileTree.wayTo_congr hcurrent])
  | below hne hnames hlocation =>
      exact .below hne hnames (by rwa [← FileTree.locationOf_congr hcurrent])
  | module contents hnames hlocation hold =>
      exact .module contents hnames (by rwa [← FileTree.locationOf_congr hcurrent]) hold

end Becomes

/-- Two trees of which the second one is the first one with each location as an emitter may make it. -/
structure Confined (emitter : Emitter) (files after : FileTree) : Prop where
  current_eq : after.current = files.current
  becomes : ∀ location,
    Becomes emitter files location (files.kindAt? location) (after.kindAt? location)

theorem chains_confined (emitter : Emitter) : Chains (Confined emitter) where
  refl _ := ⟨rfl, fun _ => .unchanged _⟩
  trans hfirst hsecond :=
    ⟨hsecond.current_eq.trans hfirst.current_eq, fun location =>
      (hfirst.becomes location).trans ((hsecond.becomes location).congr hfirst.current_eq)⟩

theorem confined_of_grows {emitter : Emitter} {tree after : FileTree} {created : List Location}
    (hgrows : tree.Grows created after)
    (h : ∀ location ∈ created, Becomes emitter tree location none (some .directory)) :
    Confined emitter tree after := by
  refine ⟨hgrows.current_eq, fun location => ?_⟩
  rw [hgrows.kindAt?_eq]
  split
  · rename_i hnew
    rw [hnew.1]
    exact h location hnew.2
  · exact .unchanged _

/-- What is on the way to the directory of a route is on the way to the destination or below it. -/
theorem becomes_of_mem_wayTo {emitter : Emitter} {template : String} {route : Route}
    (hroute : Route.of? emitter.destination template = some route) {tree : FileTree}
    {location : Location} (hway : location ∈ tree.wayTo route.directory) :
    Becomes emitter tree location none (some .directory) := by
  obtain ⟨-, -, hdirectory, hnames⟩ := Route.of?_eq_some hroute
  rw [hdirectory, tree.mem_wayTo_below emitter.destination hnames] at hway
  rcases hway with hway | ⟨front, hne, hfront, hlocation⟩
  · exact .prefixed hway
  · exact .below hne (fun name hname => hnames name (hfront.subset hname)) hlocation

theorem allows_confined (emitter : Emitter) : emitter.Allows (Confined emitter) where
  chains := chains_confined emitter
  destination _ _ _ hcreated hgrows :=
    confined_of_grows hgrows fun _ hlocation => .prefixed (hcreated hlocation)
  route _ _ hroute _ _ _ hcreated hgrows :=
    confined_of_grows hgrows fun _ hlocation => becomes_of_mem_wayTo hroute (hcreated hlocation)
  module template route hroute method tree written after hplaces hputs := by
    refine ⟨hputs.current_eq, fun location => ?_⟩
    rw [hputs.kindAt?_eq]
    split
    · rename_i hlocation
      have hplace : location = tree.locationOf emitter.destination ++ route.segments ++
          [fileName method emitter.style] := by
        rw [hlocation, tree.locationOf_below emitter.destination
          (Route.isName_of_mem_fileNames hroute method emitter.style), Route.fileNames,
          List.append_assoc]
      exact .module written (Route.of?_eq_some hroute).2.2.2 hplace (hlocation ▸ hplaces)
    · exact .unchanged _

/-- A run changes nothing outside its destination but directories that are missing on the way to it.
This holds for the files it leaves and after each of its changes. -/
theorem run_confined (settings : Settings) (files : FileTree) :
    Confined settings.emitter files (run settings files).workspace.files ∧
      ∀ made, made <+: (run settings files).workspace.changes →
        Confined settings.emitter files (files.applyAll made) := by
  obtain ⟨made, hchanges, hfiles, hmade⟩ := along_run (allows_confined settings.emitter) files
  rw [List.nil_append] at hchanges
  rw [hfiles, hchanges]
  exact ⟨hmade made List.prefix_rfl, hmade⟩

end RouteScaffold.Run
