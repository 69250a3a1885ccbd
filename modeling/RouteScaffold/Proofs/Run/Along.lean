import RouteScaffold.Proofs.Run.Ending

/-!
# After each change

An action may be cut short after any of the changes it makes.  `Action.Along` says that a relation
holds from the files an action starts with to those after each of its changes, whether it succeeds or
fails.  A relation that can be chained holds along a sequence of actions when it holds along each, so
that for a whole run only two things need a look (`Emitter.Allows`, `along_run`): directories put on
the way to the destination or to a route, and files put in the place of a module.
-/

namespace RouteScaffold.Run

open Document (Components)
open Files (Change FileTree Location below)
open Scaffold (Route)

/-- A relation of files that can be chained. -/
structure Chains (R : FileTree → FileTree → Prop) : Prop where
  refl : ∀ files, R files files
  trans : ∀ {first second third}, R first second → R second third → R first third

/-- A relation that holds from the files of a workspace to those after each of the changes that lead
to another one. -/
def Workspace.Along (R : FileTree → FileTree → Prop) (before after : Workspace) : Prop :=
  ∃ made, after.changes = before.changes ++ made ∧ after.files = before.files.applyAll made ∧
    ∀ front, front <+: made → R before.files (before.files.applyAll front)

namespace Workspace.Along

variable {R : FileTree → FileTree → Prop} {before middle after : Workspace}

theorem of_eq (hR : Chains R) (hchanges : after.changes = before.changes)
    (hfiles : after.files = before.files) : before.Along R after := by
  refine ⟨[], by rw [hchanges, List.append_nil], hfiles, fun front hfront => ?_⟩
  rw [List.prefix_nil.mp hfront]
  exact hR.refl before.files

theorem trans (hR : Chains R) (hfirst : before.Along R middle) (hsecond : middle.Along R after) :
    before.Along R after := by
  obtain ⟨made, hchanges, hfiles, hmade⟩ := hfirst
  obtain ⟨more, hrest, hleft, hmore⟩ := hsecond
  refine ⟨made ++ more, ?_, ?_, fun front hfront => ?_⟩
  · rw [hrest, hchanges, List.append_assoc]
  · rw [hleft, hfiles, FileTree.applyAll_append]
  · rcases List.prefix_or_prefix_of_prefix hfront (List.prefix_append made more) with h | h
    · exact hmade front h
    · -- the first action is complete, the second one is cut short
      obtain ⟨back, rfl⟩ := h
      have hback := hmore back ((List.prefix_append_right_inj made).mp hfront)
      rw [FileTree.applyAll_append]
      rw [hfiles] at hback
      exact hR.trans (hmade made List.prefix_rfl) hback

end Workspace.Along

namespace Action

variable {α β : Type} {R : FileTree → FileTree → Prop}

/-- A relation that holds from the files an action starts with to those after each of its changes. -/
def Along (R : FileTree → FileTree → Prop) (action : Action α) : Prop :=
  ∀ workspace : Workspace, workspace.Along R (action.runOn workspace).2

section

variable (hR : Chains R)

include hR

theorem along_pure (value : α) : Along R (pure value : Action α) :=
  fun _ => .of_eq hR rfl rfl

theorem along_fail (failure : Failure) : Along R (fail failure : Action α) :=
  fun _ => .of_eq hR rfl rfl

theorem along_files : Along R files :=
  fun _ => .of_eq hR rfl rfl

theorem along_logEvent (event : Event) : Along R (logEvent event) :=
  fun _ => .of_eq hR rfl rfl

theorem along_bind {action : Action α} {next : α → Action β} (haction : Along R action)
    (hnext : ∀ value, Along R (next value)) : Along R (action >>= next) := by
  intro workspace
  have hfirst := haction workspace
  rw [runOn_bind]
  rcases hrun : action.runOn workspace with ⟨failure | value, middle⟩
  · rwa [hrun] at hfirst
  · rw [hrun] at hfirst
    exact hfirst.trans hR (hnext value middle)

theorem along_forM {γ : Type} {action : γ → Action PUnit} (values : List γ)
    (h : ∀ value, Along R (action value)) : Along R (values.forM action) := by
  induction values with
  | nil => exact along_pure hR PUnit.unit
  | cons value rest ih => exact along_bind hR (h value) fun _ => ih

end

theorem along_makeDirectories {path : String}
    (h : ∀ tree created after, created ⊆ tree.wayTo path → tree.Grows created after → R tree after) :
    Along R (makeDirectories path) := by
  intro workspace
  rw [runOn_makeDirectories]
  refine ⟨_, rfl, rfl, fun front hfront => ?_⟩
  obtain ⟨created, hcreated, hgrows⟩ := FileTree.makeDirectories_grows workspace.files path front hfront
  exact h _ _ _ hcreated hgrows

end Action

namespace Emitter

open Run.Action

variable {R : FileTree → FileTree → Prop} {scaffold : Scaffold}

/-- Whether a scaffold may be put at its file: nothing is there, or a file that is overwritten. -/
def Places (policy : Policy) (files : FileTree) (path : String) : Prop :=
  files.kindAt? (files.locationOf path) = none ∨
    policy = .overwrite ∧ ∃ old, files.kindAt? (files.locationOf path) = some (.file old)

theorem along_of_writes (hR : Chains R) {tree : FileTree} {location : Location}
    {contents : ByteArray} {changes front : List Change}
    (hwrites : tree.WritesAlong location contents changes) (hfront : front <+: changes)
    (h : ∀ written after, tree.Puts location (.file written) after → R tree after) :
    R tree (tree.applyAll front) := by
  rcases hwrites.partly front hfront with rfl | ⟨written, hputs⟩
  · exact hR.refl tree
  · exact h written _ hputs

theorem along_writeNew (hR : Chains R)
    (h : ∀ tree written after, Places .skipExisting tree scaffold.file →
      tree.Puts (tree.locationOf scaffold.file) (.file written) after → R tree after) :
    Along R (writeNew scaffold) := by
  intro workspace
  rw [writeNew, runOn_bind, runOn_files]
  dsimp only
  split
  · rename_i hwrite
    obtain ⟨hfree, hwrites⟩ := FileTree.writeNew_ok hwrite
    exact ⟨_, rfl, rfl, fun front hfront =>
      along_of_writes hR hwrites hfront fun written after => h _ written after (.inl hfree)⟩
  · exact along_pure hR _ workspace
  · exact along_fail hR _ workspace

theorem along_overwrite (hR : Chains R)
    (h : ∀ tree written after, Places .overwrite tree scaffold.file →
      tree.Puts (tree.locationOf scaffold.file) (.file written) after → R tree after)
    (existed : Bool) : Along R (overwrite scaffold existed) := by
  intro workspace
  rw [overwrite, runOn_bind, runOn_files]
  dsimp only
  split
  · rename_i hwrite
    obtain ⟨hold, hwrites⟩ := FileTree.write_ok hwrite
    have hplaces : Places .overwrite workspace.files scaffold.file := by
      rcases hold with ⟨-, hfree⟩ | ⟨-, hold⟩
      · exact .inl hfree
      · exact .inr ⟨rfl, hold⟩
    exact ⟨_, rfl, rfl, fun front hfront =>
      along_of_writes hR hwrites hfront fun written after => h _ written after hplaces⟩
  · exact along_fail hR _ workspace

theorem along_emit (hR : Chains R) {policy : Policy}
    (h : ∀ tree written after, Places policy tree scaffold.file →
      tree.Puts (tree.locationOf scaffold.file) (.file written) after → R tree after) :
    Along R (emit policy scaffold) := by
  have hlogged : ∀ {call : Action Outcome}, Along R call → Along R (do
      let outcome ← call
      logEvent (.emitted scaffold.file outcome)
      return outcome) :=
    fun hcall => along_bind hR hcall fun _ =>
      along_bind hR (along_logEvent hR _) fun _ => along_pure hR _
  refine along_bind hR (along_files hR) fun tree => ?_
  cases policy with
  | skipExisting =>
      dsimp only
      split
      · exact along_bind hR (along_logEvent hR _) fun _ => along_pure hR _
      · exact hlogged (along_writeNew hR h)
  | overwrite =>
      dsimp only
      split
      · exact along_bind hR (along_logEvent hR _) fun _ => along_pure hR _
      · exact hlogged (along_overwrite hR h _)

/-! ## The emitter -/

/-- A relation that holds whenever an emitter puts directories on the way to its destination or to a
route, or a file in the place of a module. -/
structure Allows (emitter : Emitter) (R : FileTree → FileTree → Prop) : Prop where
  chains : Chains R
  destination : ∀ tree created after, created ⊆ tree.wayTo emitter.destination →
    tree.Grows created after → R tree after
  route : ∀ template route, Route.of? emitter.destination template = some route →
    ∀ tree created after, created ⊆ tree.wayTo route.directory → tree.Grows created after →
      R tree after
  module : ∀ template route, Route.of? emitter.destination template = some route →
    ∀ method tree written after,
      let path := below emitter.destination (route.fileNames method emitter.style)
      Places emitter.policy tree path → tree.Puts (tree.locationOf path) (.file written) after →
        R tree after

variable {emitter : Emitter} (h : emitter.Allows R)

include h

theorem along_prepare (template : String) : Along R (emitter.prepare template) := by
  rw [prepare]
  split
  · exact along_fail h.chains _
  · rename_i route hroute
    exact along_bind h.chains (along_makeDirectories (h.route template route hroute)) fun _ =>
      along_pure h.chains _

theorem along_perform (components : Components) (job : Job) :
    Along R (emitter.perform components job) := by
  cases job with
  | destination =>
      refine along_bind h.chains ?_ fun _ => along_pure h.chains _
      refine along_bind h.chains (along_files h.chains) fun tree => ?_
      have hmake := along_makeDirectories h.destination
      split
      · exact along_bind h.chains (along_logEvent h.chains _) fun _ => hmake
      · exact hmake
  | route template =>
      exact along_bind h.chains (along_prepare h template) fun _ => along_pure h.chains _
  | scaffold template method operation =>
      rw [perform]
      split
      · exact along_fail h.chains _
      · rename_i route hroute
        refine along_bind h.chains ?_ fun _ => along_pure h.chains _
        refine along_bind h.chains (along_logEvent h.chains _) fun _ => ?_
        refine along_bind h.chains (along_forM h.chains _ fun _ => along_logEvent h.chains _)
          fun _ => ?_
        refine along_bind h.chains (along_emit h.chains ?_) fun _ => along_pure h.chains _
        intro tree written after hplaces hputs
        rw [Route.scaffold_file hroute] at hplaces hputs
        exact h.module template route hroute method tree written after hplaces hputs

theorem along_performAll (components : Components) (jobs : List Job) :
    Along R (emitter.performAll components jobs) := by
  induction jobs with
  | nil => exact along_pure h.chains _
  | cons job rest ih =>
      exact along_bind h.chains (along_perform h components job) fun _ =>
        along_bind h.chains ih fun _ => along_pure h.chains _

theorem along_emitDocument (document : Document) : Along R (emitter.emitDocument document) := by
  rw [emitDocument_eq]
  exact along_bind h.chains (along_performAll h document.components _) fun _ =>
    along_pure h.chains _

end Emitter

/-- What an emitter allows holds after each change of a run. -/
theorem along_run {settings : Settings} {R : FileTree → FileTree → Prop}
    (h : settings.emitter.Allows R) (files : FileTree) :
    Workspace.Along R { files } (run settings files).workspace := by
  rw [run]
  dsimp only
  split
  · exact .of_eq h.chains rfl rfl
  rename_i tree description hexamine
  split
  · exact .of_eq h.chains rfl rfl
  rename_i document hread
  -- until here only events were logged
  have hemit := Emitter.along_emitDocument h document
    ((({ files } : Workspace).record (.reading settings.source)).record
      (.valid description.title description.version))
  rw [Action.runOn] at hemit
  split
  · rename_i hrun
    rw [hrun] at hemit
    exact hemit
  · rename_i hrun
    rw [hrun] at hemit
    exact hemit

end RouteScaffold.Run
