import RouteScaffold.Proofs.Files.Visits
import RouteScaffold.Proofs.Run.Effect

/-!
# What jobs look at

The jobs of an emitter look at what the path of its destination passes, and at what stands at the
destination and below (`Emitter.Sees`).  On trees that are alike there they have the same effects, and
what they put goes into directories there (`performAllEffect_alikeOn`).  Of the components they look at
what the synthesis of their operations tells and at nothing else.
-/

namespace RouteScaffold.Run

open Document (Components Operation)
open Files (Change FileTree IsName Location below)
open OpenApi (Method)
open Scaffold (Route)

/-- Effects that are the same, of changes that put something into directories at some locations. -/
structure Effect.SameWithin {α : Type} (seen : Location → Prop) (first second : Effect α) : Prop where
  eq : first = second
  puts : FileTree.PutsWithin seen first.changes

namespace Effect.SameWithin

variable {α β : Type} {seen : Location → Prop} {first second : Effect α}

theorem of_eq {effect : Effect α} (h : effect.changes = []) : effect.SameWithin seen effect := by
  refine ⟨rfl, ?_⟩
  rw [h]
  intro change hchange
  cases hchange

theorem map (h : first.SameWithin seen second) (f : α → β) :
    (first.map f).SameWithin seen (second.map f) :=
  ⟨congrArg _ h.eq, h.puts⟩

theorem behind {changes : List Change} (hchanges : FileTree.PutsWithin seen changes)
    (h : first.SameWithin seen second) :
    (first.behind changes).SameWithin seen (second.behind changes) :=
  ⟨congrArg _ h.eq, fun change hchange =>
    (List.mem_append.mp hchange).elim (hchanges change) (h.puts change)⟩

end Effect.SameWithin

namespace Emitter

variable {emitter : Emitter} {components others : Components} {seen : Location → Prop}
  {first second : FileTree}

/-! ## Calls -/

theorem makeDirectoriesEffect_alikeOn (h : FileTree.AlikeOn seen first second) {path : String}
    (hseen : ∀ visited ∈ first.visits path, seen visited) :
    (Action.makeDirectoriesEffect path first).SameWithin seen
      (Action.makeDirectoriesEffect path second) := by
  obtain ⟨hmade, hputs⟩ := h.makeDirectories_eq hseen
  exact ⟨by rw [Action.makeDirectoriesEffect, Action.makeDirectoriesEffect, hmade], hputs⟩

/-- The changes of emitting a scaffold are at the location of its file. -/
theorem location_of_emitEffect {policy : Policy} {scaffold : Scaffold} {files : FileTree}
    {change : Change} (h : change ∈ (emitEffect policy scaffold files).changes) :
    change.location = files.locationOf scaffold.file := by
  have hwritten : ∀ {contents : ByteArray}, change ∈ [Change.makeFile (files.locationOf scaffold.file),
      Change.fill (files.locationOf scaffold.file) contents] →
        change.location = files.locationOf scaffold.file := by
    intro contents hchange
    rcases List.mem_cons.mp hchange with rfl | hchange
    · rfl
    · rw [List.mem_singleton.mp hchange]
      rfl
  cases policy with
  | skipExisting =>
      rw [emitEffect] at h
      split at h
      · cases h
      unfold writeNewEffect at h
      split at h
      · rename_i hwrite
        rw [(FileTree.changes_of_writeNew hwrite).1] at h
        exact hwritten h
      · cases h
      · cases h
  | overwrite =>
      rw [emitEffect, overwriteEffect] at h
      split at h
      · rename_i hwrite
        rw [FileTree.changes_of_write hwrite] at h
        exact hwritten h
      · cases h

/-- Emitting a scaffold looks at what its path leads to. -/
theorem emitEffect_of_spot_eq (policy : Policy) {scaffold : Scaffold}
    (h : first.spot scaffold.file = second.spot scaffold.file) :
    emitEffect policy scaffold first = emitEffect policy scaffold second := by
  cases policy with
  | skipExisting =>
      rw [emitEffect, emitEffect, writeNewEffect, writeNewEffect, FileTree.exists?_eq,
        FileTree.exists?_eq, FileTree.writeNew_eq, FileTree.writeNew_eq, h]
  | overwrite =>
      rw [emitEffect, emitEffect, overwriteEffect, overwriteEffect, FileTree.exists?_eq,
        FileTree.exists?_eq, FileTree.write_eq, FileTree.write_eq, h]

theorem emitEffect_alikeOn (h : FileTree.AlikeOn seen first second) (policy : Policy)
    {scaffold : Scaffold} (hseen : ∀ visited ∈ first.visits scaffold.file, seen visited)
    (hplace : first.locationOf scaffold.file ≠ [] →
      seen (first.locationOf scaffold.file).dropLast) :
    (emitEffect policy scaffold first).SameWithin seen (emitEffect policy scaffold second) := by
  refine ⟨emitEffect_of_spot_eq policy (h.spot_eq hseen), ?_⟩
  intro change hchange hne
  rw [location_of_emitEffect hchange] at hne ⊢
  exact hplace hne

/-! ## Jobs -/

/-- The locations that the jobs of an emitter look at: those that the path of the destination passes,
and those at the destination and below. -/
def Sees (emitter : Emitter) (files : FileTree) (location : Location) : Prop :=
  location ∈ files.visits emitter.destination ∨ files.locationOf emitter.destination <+: location

theorem sees_of_mem_visits {files : FileTree} {names : List String}
    (hnames : ∀ name ∈ names, IsName name) {location : Location}
    (h : location ∈ files.visits (below emitter.destination names)) : emitter.Sees files location := by
  rcases List.mem_cons.mp h with rfl | hway
  · left
    rw [below, files.startOf_pushNames _ hnames, String.ofList_toList]
    exact List.mem_cons_self
  · rcases (files.mem_wayTo_below _ hnames).mp hway with hway | ⟨front, -, -, rfl⟩
    · exact .inl (List.mem_cons_of_mem _ hway)
    · exact .inr (List.prefix_append _ _)

/-- Whether the operation of a job, if it has one, is the same to some components. -/
def SameSynthesis (components others : Components) (job : Job) : Prop :=
  ∀ operation ∈ job.operations, Synthesis.synthesize components operation.2.2 =
    Synthesis.synthesize others operation.2.2

theorem performEffect_alikeOn {files : FileTree}
    (h : FileTree.AlikeOn (emitter.Sees files) first second) (hcurrent : first.current = files.current)
    {job : Job} (hjob : SameSynthesis components others job) :
    (emitter.performEffect components first job).SameWithin (emitter.Sees files)
      (emitter.performEffect others second job) := by
  -- all that is made is below the destination, and so are the locations looked at
  have hdirectory : ∀ names : List String, (∀ name ∈ names, IsName name) →
      (Action.makeDirectoriesEffect (below emitter.destination names) first).SameWithin
        (emitter.Sees files)
        (Action.makeDirectoriesEffect (below emitter.destination names) second) :=
    fun names hnames => makeDirectoriesEffect_alikeOn h fun visited hvisited =>
      sees_of_mem_visits hnames (FileTree.visits_congr hcurrent _ ▸ hvisited)
  cases job with
  | destination =>
      have hmade := hdirectory [] (by simp)
      rw [Files.below_nil] at hmade
      exact hmade.map _
  | route template =>
      rw [performEffect, performEffect]
      cases hroute : Route.of? emitter.destination template with
      | none => exact .of_eq rfl
      | some route =>
          obtain ⟨-, -, hbelow, hnames⟩ := Scaffold.Route.of?_eq_some hroute
          dsimp only
          rw [hbelow]
          exact (hdirectory _ hnames).map _
  | scaffold template method operation =>
      -- both sets of components find out the same, so one scaffold is emitted
      have hfound := hjob _ (List.mem_singleton.mpr rfl)
      dsimp only at hfound
      rw [performEffect, performEffect]
      cases hroute : Route.of? emitter.destination template with
      | none => exact .of_eq rfl
      | some route =>
          have hnames := Scaffold.Route.isName_of_mem_fileNames hroute method emitter.style
          have hfile : ∀ found, (route.scaffold method emitter.style found).file =
              below emitter.destination (route.fileNames method emitter.style) :=
            Scaffold.Route.scaffold_file hroute method emitter.style
          dsimp only
          unfold entryOf scaffoldOf
          rw [hfound]
          refine (emitEffect_alikeOn h emitter.policy (fun visited hvisited => ?_) fun _ => ?_).map _
          · rw [hfile] at hvisited
            exact sees_of_mem_visits hnames (FileTree.visits_congr hcurrent _ ▸ hvisited)
          · rw [hfile, first.locationOf_below _ hnames, Scaffold.Route.fileNames, ← List.append_assoc,
              List.dropLast_concat, FileTree.locationOf_congr hcurrent]
            exact .inr (List.prefix_append _ _)

/-- Jobs do the same on trees that are alike where the jobs look, with components that tell the same
about their operations. -/
theorem performAllEffect_alikeOn {files : FileTree} {jobs : List Job}
    (h : FileTree.AlikeOn (emitter.Sees files) first second) (hcurrent : first.current = files.current)
    (hjobs : ∀ job ∈ jobs, SameSynthesis components others job) :
    (emitter.performAllEffect components first jobs).SameWithin (emitter.Sees files)
      (emitter.performAllEffect others second jobs) := by
  induction jobs generalizing first second with
  | nil => exact .of_eq rfl
  | cons job rest ih =>
      obtain ⟨hjob, hrest⟩ := List.forall_mem_cons.mp hjobs
      obtain ⟨heq, hputs⟩ := performEffect_alikeOn h hcurrent hjob
      rw [performAllEffect, performAllEffect, ← heq]
      cases (emitter.performEffect components first job).result with
      | error failure => exact ⟨rfl, hputs⟩
      | ok entries =>
          have hafter := ih (h.applyAll hputs)
            ((FileTree.current_applyAll first _).trans hcurrent) hrest
          exact (hafter.map _).behind hputs

end Emitter

end RouteScaffold.Run
