import RouteScaffold.Proofs.Run.Along
import RouteScaffold.Proofs.Run.Progress

/-!
# What is kept without force

As long as files are skipped nothing that is there is ever changed: not by a run, not by preparing a
route and not by emitting a scaffold, in whatever order they come, whether they succeed or fail, and
also when they are cut short after some of their changes (`kept_of_skip`).
-/

namespace RouteScaffold.Run

open Files (FileTree)

/-- Whatever stands somewhere stays there as it is. -/
def Keeps (before after : FileTree) : Prop :=
  ∀ location kind, before.kindAt? location = some kind → after.kindAt? location = some kind

theorem chains_keeps : Chains Keeps where
  refl _ _ _ h := h
  trans hfirst hsecond location kind h := hsecond location kind (hfirst location kind h)

theorem keeps_of_grows {tree after : FileTree} {created : List Files.Location}
    (h : tree.Grows created after) : Keeps tree after :=
  fun _ _ hkind => h.kindAt?_of_some hkind

theorem keeps_of_puts {tree after : FileTree} {path : String} {kind : Files.Kind}
    (hplaces : Emitter.Places .skipExisting tree path)
    (hputs : tree.Puts (tree.locationOf path) kind after) : Keeps tree after := by
  rcases hplaces with hfree | ⟨hpolicy, -⟩
  · intro location other hother
    rw [hputs.kindAt?_of_ne, hother]
    rintro rfl
    simp [hfree] at hother
  · cases hpolicy

theorem Emitter.allows_keeps {emitter : Emitter} (hpolicy : emitter.policy = .skipExisting) :
    emitter.Allows Keeps where
  chains := chains_keeps
  destination _ _ _ _ hgrows := keeps_of_grows hgrows
  route _ _ _ _ _ _ _ hgrows := keeps_of_grows hgrows
  module _ _ _ _ _ _ _ hplaces hputs := keeps_of_puts (hpolicy ▸ hplaces) hputs

/-! ## Sequences of calls -/

/-- A call that may change files: a whole run, or a single call of an emitter. -/
inductive Call where
  | run (settings : Settings)
  | prepare (emitter : Emitter) (template : String)
  | emit (emitter : Emitter) (scaffold : Scaffold)

namespace Call

/-- What happens in a call to a file that is in the place of a scaffold. -/
def policy : Call → Policy
  | run settings => settings.policy
  | prepare emitter _ => emitter.policy
  | emit emitter _ => emitter.policy

/-- What a call leaves, whether it succeeds or fails. -/
def workspace (call : Call) (files : FileTree) : Workspace :=
  match call with
  | run settings => (Run.run settings files).workspace
  | prepare emitter template => ((emitter.prepare template).runOn { files }).2
  | emit emitter scaffold => ((Emitter.emit emitter.policy scaffold).runOn { files }).2

/-- What every emitter of a policy allows holds along the calls with this policy, if it holds as well of files that
are put anywhere. -/
theorem along {R : FileTree → FileTree → Prop} {call : Call}
    (hallows : ∀ emitter : Emitter, emitter.policy = call.policy → emitter.Allows R)
    (hputs : ∀ tree path written after, Emitter.Places call.policy tree path →
      tree.Puts (tree.locationOf path) (.file written) after → R tree after) (files : FileTree) :
    Workspace.Along R { files } (call.workspace files) := by
  cases call with
  | run settings => exact along_run (hallows settings.emitter rfl) files
  | prepare emitter template => exact Emitter.along_prepare (hallows emitter rfl) template { files }
  | emit emitter scaffold =>
      exact Emitter.along_emit (hallows emitter rfl).chains
        (fun tree written after => hputs tree scaffold.file written after) { files }

end Call

/-- A call with the count of changes after which it is cut short, if it is. -/
structure Step where
  call : Call
  cut : Option Nat := none

/-- The files after a step. -/
def Step.after (files : FileTree) (step : Step) : FileTree :=
  match step.cut with
  | none => (step.call.workspace files).files
  | some count => files.applyAll ((step.call.workspace files).changes.take count)

/-- The files after some steps, one after another. -/
def afterSteps (files : FileTree) (steps : List Step) : FileTree := steps.foldl Step.after files

/-- What holds along the call of a step holds of the step, also if it is cut short. -/
theorem Step.of_along {R : FileTree → FileTree → Prop} {step : Step} {files : FileTree}
    (h : Workspace.Along R { files } (step.call.workspace files)) : R files (step.after files) := by
  obtain ⟨made, hchanges, hfiles, hmade⟩ := h
  rw [List.nil_append] at hchanges
  -- a step that is cut short leaves the first of its changes
  unfold Step.after
  split
  · rw [hfiles]
    exact hmade made List.prefix_rfl
  · rw [hchanges]
    exact hmade _ (List.take_prefix _ _)

theorem Chains.afterSteps {R : FileTree → FileTree → Prop} (hR : Chains R) {steps : List Step}
    (h : ∀ step ∈ steps, ∀ files, R files (step.after files)) (files : FileTree) :
    R files (afterSteps files steps) := by
  induction steps generalizing files with
  | nil => exact hR.refl files
  | cons step rest ih =>
      obtain ⟨hstep, hrest⟩ := List.forall_mem_cons.mp h
      exact hR.trans (hstep files) (ih hrest (step.after files))

theorem Step.keeps {step : Step} (hpolicy : step.call.policy = .skipExisting) (files : FileTree) :
    Keeps files (step.after files) := by
  refine Step.of_along (Call.along ?_ ?_ files)
  · exact fun emitter hemitter => Emitter.allows_keeps (hemitter.trans hpolicy)
  · exact fun tree path written after hplaces => keeps_of_puts (hpolicy ▸ hplaces)

theorem keeps_afterSteps {steps : List Step}
    (hpolicy : ∀ step ∈ steps, step.call.policy = .skipExisting) (files : FileTree) :
    Keeps files (afterSteps files steps) :=
  chains_keeps.afterSteps (fun step hstep files => step.keeps (hpolicy step hstep) files) files

/-- Without force no file that was there is lost or changed by any sequence of calls, no directory is
lost, and a file that one of them leaves is not changed by a later one. -/
theorem kept_of_skip {steps : List Step}
    (hpolicy : ∀ step ∈ steps, step.call.policy = .skipExisting) (files : FileTree) :
    (∀ location contents, files.kindAt? location = some (.file contents) →
        (afterSteps files steps).kindAt? location = some (.file contents)) ∧
      (∀ location, files.kindAt? location = some .directory →
        (afterSteps files steps).kindAt? location = some .directory) ∧
      ∀ done step rest, steps = done ++ step :: rest → ∀ location contents,
        (step.after (afterSteps files done)).kindAt? location = some (.file contents) →
          (afterSteps files steps).kindAt? location = some (.file contents) := by
  have hkeeps := keeps_afterSteps hpolicy files
  refine ⟨fun location contents => hkeeps location _, fun location => hkeeps location _, ?_⟩
  rintro done step rest rfl location contents hwritten
  have hrest : ∀ other ∈ rest, other.call.policy = .skipExisting :=
    fun other hother => hpolicy other (by simp [hother])
  have hafter := keeps_afterSteps hrest (step.after (afterSteps files done)) location _ hwritten
  rw [afterSteps, List.foldl_append, List.foldl_cons]
  exact hafter

/-- The source is kept by a run that is cut short and another one after it. -/
theorem kept_of_skip_twin :
    (afterSteps twinFiles [⟨.run twinSettings, some 3⟩, ⟨.run twinSettings, none⟩]).kindAt?
      ["api.json"] = some (.file twinSource.toUTF8) := by
  have hthere : ∀ contents, (twinTree contents []).kindAt? ["api.json"] = some (.file contents) :=
    fun _ => rfl
  exact (kept_of_skip (by simp [Call.policy, twinSettings]) twinFiles).1 _ _ (hthere _)

end RouteScaffold.Run
