import RouteScaffold.Proofs.Run.Ending

/-!
# Stages, failures and logs

A failure tells the stage of a run at which it happened (`Failure.stage`), whatever the run was asked
for: `examine` fails with what is wrong while validating, `readDocument` with what is wrong while
parsing, and the actions of the emitter with what is wrong while emitting.  The actions of the emitter
log no errors (`Action.Quiet`), so the only error in the log of a run is the one that it ends with.

`Accounts` puts the stage of a run, its result, its log and the files it leaves together, and
`accounts_run` says that all runs are like that.
-/

namespace RouteScaffold.Run

open Document (Components Operation PathItem)
open Files (Change FileTree)
open OpenApi (Description Method)
open Scaffold (Route)

/-- The stage at which a failure happens. -/
def Failure.stage : Failure → Stage
  | sourceNotFound _ => .validating
  | unreadable .. => .validating
  | malformed _ => .validating
  | unfit _ => .validating
  | violated _ => .validating
  | unreadableDocument _ => .parsing
  | escapingPath _ => .emitting
  | unwritable .. => .emitting

/-! ## Logs without errors -/

/-- Logs of which the second one goes on after the first one without errors. -/
def GoesOn (before after : List Event) : Prop :=
  ∃ more, after = before ++ more ∧ ∀ event ∈ more, event.level ≠ .error

namespace GoesOn

variable {before middle after : List Event}

theorem refl (log : List Event) : GoesOn log log :=
  ⟨[], (List.append_nil log).symm, fun _ hmem => (List.not_mem_nil hmem).elim⟩

theorem trans (hfirst : GoesOn before middle) (hsecond : GoesOn middle after) :
    GoesOn before after := by
  obtain ⟨more, rfl, hmore⟩ := hfirst
  obtain ⟨rest, rfl, hrest⟩ := hsecond
  refine ⟨more ++ rest, List.append_assoc .., fun event hevent => ?_⟩
  rcases List.mem_append.mp hevent with hevent | hevent
  · exact hmore event hevent
  · exact hrest event hevent

theorem concat {event : Event} (h : GoesOn before after) (hlevel : event.level ≠ .error) :
    GoesOn before (after ++ [event]) :=
  h.trans ⟨[event], rfl, fun _ hmem => List.mem_singleton.mp hmem ▸ hlevel⟩

end GoesOn

/-! ## Quiet actions -/

namespace Action

variable {α β : Type}

/-- An action that logs no error, and that fails only in the ways of emitting. -/
def Quiet (action : Action α) : Prop :=
  ∀ workspace : Workspace, GoesOn workspace.log (action.runOn workspace).2.log ∧
    ∀ failure, (action.runOn workspace).1 = .error failure → failure.stage = .emitting

theorem quiet_pure (value : α) : Quiet (pure value : Action α) := by
  intro workspace
  refine ⟨.refl _, fun failure hfailure => ?_⟩
  cases hfailure

theorem quiet_fail {failure : Failure} (hstage : failure.stage = .emitting) :
    Quiet (fail failure : Action α) := by
  intro workspace
  refine ⟨.refl _, fun other hother => ?_⟩
  cases hother
  exact hstage

theorem quiet_files : Quiet files := by
  intro workspace
  refine ⟨.refl _, fun failure hfailure => ?_⟩
  cases hfailure

theorem quiet_logEvent {event : Event} (hlevel : event.level ≠ .error) :
    Quiet (logEvent event) := by
  intro workspace
  refine ⟨(GoesOn.refl _).concat hlevel, fun failure hfailure => ?_⟩
  cases hfailure

theorem quiet_makeChanges (changes : List Change) : Quiet (makeChanges changes) := by
  intro workspace
  refine ⟨.refl _, fun failure hfailure => ?_⟩
  cases hfailure

theorem Quiet.bind {action : Action α} {next : α → Action β} (haction : action.Quiet)
    (hnext : ∀ value, (next value).Quiet) : (action >>= next).Quiet := by
  intro workspace
  obtain ⟨hlog, hfails⟩ := haction workspace
  rw [runOn_bind]
  rcases hrun : action.runOn workspace with ⟨failure | value, middle⟩
  · rw [hrun] at hlog hfails
    refine ⟨hlog, fun other hother => ?_⟩
    cases hother
    exact hfails failure rfl
  · rw [hrun] at hlog
    obtain ⟨hrest, hlater⟩ := hnext value middle
    exact ⟨hlog.trans hrest, hlater⟩

theorem quiet_forM {γ : Type} {action : γ → Action PUnit} (values : List γ)
    (h : ∀ value, (action value).Quiet) : Quiet (values.forM action) := by
  induction values with
  | nil => exact quiet_pure PUnit.unit
  | cons value rest ih => exact (h value).bind fun _ => ih

theorem quiet_makeDirectories (path : String) : Quiet (makeDirectories path) := by
  refine quiet_files.bind fun tree => (quiet_makeChanges _).bind fun _ => ?_
  cases (tree.makeDirectories path).fault with
  | none => exact quiet_pure ()
  | some fault => exact quiet_fail rfl

end Action

namespace Emitter

open Run.Action

variable (emitter : Emitter) (components : Components)

theorem quiet_writeNew (scaffold : Scaffold) : (writeNew scaffold).Quiet := by
  refine quiet_files.bind fun tree => ?_
  split
  · exact (quiet_makeChanges _).bind fun _ => quiet_pure _
  · exact quiet_pure _
  · exact quiet_fail rfl

theorem quiet_overwrite (scaffold : Scaffold) (existed : Bool) :
    (overwrite scaffold existed).Quiet := by
  refine quiet_files.bind fun tree => ?_
  split
  · exact (quiet_makeChanges _).bind fun _ => quiet_pure _
  · exact quiet_fail rfl

theorem quiet_emit (policy : Policy) (scaffold : Scaffold) : (emit policy scaffold).Quiet := by
  have hlevel : ∀ event : Event, event.level = .info ∨ event.level = .debug →
      (logEvent event).Quiet := by
    intro event hevent
    refine quiet_logEvent ?_
    rcases hevent with hevent | hevent <;> simp [hevent]
  have hlogged : ∀ call : Action Outcome, call.Quiet → Action.Quiet (do
      let outcome ← call
      logEvent (.emitted scaffold.file outcome)
      return outcome) :=
    fun call hcall => hcall.bind fun _ => (hlevel _ (.inr rfl)).bind fun _ => quiet_pure _
  refine quiet_files.bind fun tree => ?_
  dsimp only
  split
  · exact (hlevel _ (.inl rfl)).bind fun _ => quiet_pure _
  · cases policy with
    | skipExisting => exact hlogged _ (quiet_writeNew scaffold)
    | overwrite => exact hlogged _ (quiet_overwrite scaffold _)

theorem quiet_emitOperation (route : Route) (method : Method) (operation : Operation) :
    (emitter.emitOperation components route method operation).Quiet := by
  refine (quiet_logEvent (by simp [Event.level])).bind fun _ => ?_
  refine (quiet_forM _ fun note => quiet_logEvent (by simp [Event.level])).bind fun _ => ?_
  exact (quiet_emit emitter.policy _).bind fun _ => quiet_pure _

theorem quiet_emitOperations (route : Route) (report : Report) (operations : List (Method × Operation)) :
    (emitter.emitOperations components route report operations).Quiet := by
  induction operations generalizing report with
  | nil => exact quiet_pure report
  | cons first rest ih =>
      exact (emitter.quiet_emitOperation components route first.1 first.2).bind fun _ => ih _

theorem quiet_prepare (template : String) : (emitter.prepare template).Quiet := by
  rw [prepare]
  cases Route.of? emitter.destination template with
  | none => exact quiet_fail rfl
  | some route => exact (quiet_makeDirectories route.directory).bind fun _ => quiet_pure route

theorem quiet_emitPaths (report : Report) (paths : List (String × PathItem)) :
    (emitter.emitPaths components report paths).Quiet := by
  induction paths generalizing report with
  | nil => exact quiet_pure report
  | cons first rest ih =>
      refine (emitter.quiet_prepare first.1).bind fun route => ?_
      exact (emitter.quiet_emitOperations components route report first.2.operations).bind fun _ => ih _

theorem quiet_makeDestination : emitter.makeDestination.Quiet := by
  have hmake := quiet_makeDirectories emitter.destination
  refine quiet_files.bind fun tree => ?_
  split
  · exact (quiet_logEvent (by simp [Event.level])).bind fun _ => hmake
  · exact hmake

theorem quiet_emitDocument (document : Document) : (emitter.emitDocument document).Quiet := by
  refine emitter.quiet_makeDestination.bind fun _ => ?_
  exact emitter.quiet_emitPaths document.components {} document.paths

end Emitter

/-! ## Failures before emitting -/

theorem stage_of_mapError {ε α : Type} {step : Except ε α} {f : ε → Failure} {stage : Stage}
    (hstage : ∀ fault, (f fault).stage = stage) {failure : Failure}
    (h : step.mapError f = .error failure) : failure.stage = stage := by
  cases step with
  | ok value => simp [Except.mapError] at h
  | error fault =>
      obtain rfl : f fault = failure := Except.error.inj h
      exact hstage fault

/-- Two readings of which the first or the second one fails. -/
theorem stage_of_bind {α β : Type} {step : Except Failure α} {next : α → Except Failure β}
    {stage : Stage} (hstep : ∀ failure, step = .error failure → failure.stage = stage)
    (hnext : ∀ value failure, next value = .error failure → failure.stage = stage)
    {failure : Failure} (h : step >>= next = .error failure) : failure.stage = stage := by
  cases step with
  | error fault => exact hstep failure (congrArg _ (Except.error.inj h))
  | ok value => exact hnext value failure h

theorem stage_of_readSource {files : FileTree} {path : String} {failure : Failure}
    (h : readSource files path = .error failure) : failure.stage = .validating := by
  unfold readSource at h
  split at h
  · cases h
  · cases h
    rfl
  · cases h
    rfl

theorem stage_of_validate {format : Option Source.Format} {strict : Bool} {contents : String}
    {failure : Failure} (h : validate format strict contents = .error failure) :
    failure.stage = .validating := by
  unfold validate at h
  refine stage_of_bind (fun _ => stage_of_mapError (f := .malformed) fun _ => rfl)
    (fun tree _ htree => ?_) h
  refine stage_of_bind (fun _ => stage_of_mapError (f := .unfit) fun _ => rfl)
    (fun description _ hrest => ?_) htree
  generalize (if strict then OpenApi.violations tree description else []) = violations at hrest
  dsimp only at hrest
  split at hrest
  · cases hrest
  · cases hrest
    rfl

theorem stage_of_examine {settings : Settings} {files : FileTree} {failure : Failure}
    (h : examine settings files = .error failure) : failure.stage = .validating := by
  unfold examine at h
  split at h
  · cases h
    rfl
  · exact stage_of_bind (fun _ => stage_of_readSource) (fun _ _ => stage_of_validate) h

theorem stage_of_readDocument {tree : Json} {failure : Failure}
    (h : readDocument tree = .error failure) : failure.stage = .parsing :=
  stage_of_mapError (f := .unreadableDocument) (fun _ => rfl) h

/-- A run that has no document does not come to emitting. -/
theorem stage_of_document {settings : Settings} {files : FileTree} {failure : Failure}
    (h : settings.document files = .error failure) : failure.stage ≠ .emitting := by
  unfold Settings.document at h
  cases hexamine : examine settings files with
  | error fault =>
      rw [hexamine] at h
      obtain rfl : fault = failure := Except.error.inj h
      simp [stage_of_examine hexamine]
  | ok found =>
      rw [hexamine] at h
      simp [stage_of_readDocument h]

/-! ## The whole run -/

/-- How the stage of a run that started with some files, its result, its log and the files it leaves
fit together. -/
structure Accounts (files : FileTree) (finished : Finished) : Prop where
  completed : finished.stage = .completed ↔ ∃ report, finished.result = .ok report
  failed : finished.stage = .failed ↔ ∃ failure, finished.result = .error failure
  /-- A run that fails logs one error, and one that succeeds logs none. -/
  errors : finished.workspace.log.countP (·.level = .error) =
    if finished.stage = .failed then 1 else 0
  /-- The error is the last event, and tells the stage of the failure. -/
  last : ∀ failure, finished.result = .error failure →
    finished.workspace.log.getLast? = some (.failed failure.stage failure)
  /-- A failure before emitting leaves all files as they were. -/
  unchanged : ∀ failure, finished.result = .error failure →
    failure.stage = .validating ∨ failure.stage = .parsing →
      finished.workspace.files = files ∧ finished.workspace.changes = []

theorem countP_error_of_goesOn {log : List Event} (h : GoesOn [] log) :
    log.countP (·.level = .error) = 0 := by
  obtain ⟨more, rfl, hmore⟩ := h
  exact List.countP_eq_zero.mpr fun event hevent => by simpa using hmore event hevent

theorem accounts_failure {files : FileTree} {failure : Failure} {workspace : Workspace}
    (hlog : GoesOn [] workspace.log)
    (hfiles : failure.stage = .validating ∨ failure.stage = .parsing →
      workspace.files = files ∧ workspace.changes = []) :
    Accounts files (.failure failure.stage failure workspace) where
  completed := by simp [Finished.failure]
  failed := by simp [Finished.failure]
  errors := by
    have hnone := countP_error_of_goesOn hlog
    simp only [Finished.failure, Workspace.record, List.countP_append, hnone]
    rfl
  last other hother := by
    cases hother
    exact List.getLast?_concat
  unchanged other hother hstage := by
    cases hother
    exact hfiles hstage

theorem accounts_completed {files : FileTree} {report : Report} {workspace : Workspace}
    (hlog : GoesOn [] workspace.log) :
    Accounts files ⟨.completed, .ok report, workspace.record (.completed report)⟩ where
  completed := by simp
  failed := by simp
  errors := countP_error_of_goesOn (hlog.concat (by simp [Event.level]))
  last failure hfailure := by cases hfailure
  unchanged failure hfailure := by cases hfailure

/-- Whatever a run is asked for and whatever the files are, its stage, its result, its log and what it
does to the files fit together. -/
theorem accounts_run (settings : Settings) (files : FileTree) :
    Accounts files (run settings files) := by
  have hreading : GoesOn [] [.reading settings.source] :=
    (GoesOn.refl []).concat (by simp [Event.level])
  rw [run]
  dsimp only
  split
  · rename_i failure hexamine
    rw [← stage_of_examine hexamine]
    exact accounts_failure hreading fun _ => ⟨rfl, rfl⟩
  rename_i tree description hexamine
  have hvalid : GoesOn [] ([.reading settings.source] ++
      [.valid description.title description.version]) :=
    hreading.concat (by simp [Event.level])
  split
  · rename_i failure hread
    rw [← stage_of_readDocument hread]
    exact accounts_failure hvalid fun _ => ⟨rfl, rfl⟩
  rename_i document hread
  obtain ⟨hlog, hstage⟩ := settings.emitter.quiet_emitDocument document
    ((({ files } : Workspace).record (.reading settings.source)).record
      (.valid description.title description.version))
  rw [Action.runOn] at hlog hstage
  split
  · rename_i failure after hemit
    rw [hemit] at hlog hstage
    -- nothing is said of the files of a run that fails while emitting
    have hemitting := hstage failure rfl
    rw [← hemitting]
    refine accounts_failure (hvalid.trans hlog) fun hearly => ?_
    simp [hemitting] at hearly
  · rename_i report after hemit
    rw [hemit] at hlog
    exact accounts_completed (hvalid.trans hlog)

end RouteScaffold.Run
