import RouteScaffold.Proofs.Files.Resume
import RouteScaffold.Proofs.Run.Along

/-!
# Effects

How an action ends and which changes it makes is decided by the files it starts with.
`Action.Does` says that an action has an effect on some files, whatever was logged before.  The
effects of the actions that touch files are written down as functions, and put together for the jobs
of a run (`does_performAll`) and for a whole run (`run_eq_effect`).

Effects do not look at what files hold: on trees of one shape they are the same
(`performAllEffect_congr`).  What an emitter allows holds after each of the changes
(`Allows.performAllEffect`), so that nothing that is there is lost (`covers_performAllEffect`).
-/

namespace RouteScaffold.Run

open Document (Components Operation)
open Files (Change FileTree)
open OpenApi (Method)
open Scaffold (Route)

/-- How an action ends and the changes it makes. -/
structure Effect (α : Type) where
  result : Except Failure α
  changes : List Change

namespace Effect

variable {α β : Type}

/-- Some files after the changes. -/
def after (effect : Effect α) (files : FileTree) : FileTree := files.applyAll effect.changes

def map (f : α → β) (effect : Effect α) : Effect β := ⟨effect.result.map f, effect.changes⟩

theorem map_map {γ : Type} (f : α → β) (g : β → γ) (effect : Effect α) :
    (effect.map f).map g = effect.map fun value => g (f value) := by
  rcases effect with ⟨failure | value, changes⟩ <;> rfl

/-- An effect with more changes before it. -/
def behind (changes : List Change) (effect : Effect α) : Effect α :=
  ⟨effect.result, changes ++ effect.changes⟩

theorem after_behind (changes : List Change) (effect : Effect α) (files : FileTree) :
    (effect.behind changes).after files = effect.after (files.applyAll changes) := by
  rw [after, behind, FileTree.applyAll_append, after]

theorem behind_behind (first second : List Change) (effect : Effect α) :
    (effect.behind second).behind first = effect.behind (first ++ second) := by
  rw [behind, behind, behind, List.append_assoc]

theorem map_behind (f : α → β) (changes : List Change) (effect : Effect α) :
    (effect.behind changes).map f = (effect.map f).behind changes := rfl

end Effect

namespace Action

variable {α β : Type} {files : FileTree}

/-- An action has an effect on some files: it ends that way and makes those changes. -/
def Does (action : Action α) (files : FileTree) (effect : Effect α) : Prop :=
  ∀ workspace : Workspace, workspace.files = files → ∃ log, action.runOn workspace =
    (effect.result, ⟨effect.after files, workspace.changes ++ effect.changes, log⟩)

/-- An action that changes nothing. -/
theorem does_nothing {action : Action α} {result : Except Failure α}
    (h : ∀ workspace : Workspace, workspace.files = files →
      ∃ log, action.runOn workspace = (result, { workspace with log })) :
    action.Does files ⟨result, []⟩ := by
  intro workspace hfiles
  obtain ⟨log, hrun⟩ := h workspace hfiles
  refine ⟨log, ?_⟩
  rw [hrun, List.append_nil, ← hfiles]
  rfl

theorem does_pure (value : α) (files : FileTree) : (pure value : Action α).Does files ⟨.ok value, []⟩ :=
  does_nothing fun workspace _ => ⟨workspace.log, rfl⟩

theorem does_fail (failure : Failure) (files : FileTree) :
    (fail failure : Action α).Does files ⟨.error failure, []⟩ :=
  does_nothing fun workspace _ => ⟨workspace.log, rfl⟩

theorem does_files (tree : FileTree) : Action.files.Does tree ⟨.ok tree, []⟩ := by
  refine does_nothing ?_
  rintro workspace rfl
  exact ⟨workspace.log, rfl⟩

theorem does_logEvent (event : Event) (files : FileTree) : (logEvent event).Does files ⟨.ok (), []⟩ :=
  does_nothing fun _ _ => ⟨_, rfl⟩

theorem does_makeChanges (changes : List Change) (files : FileTree) :
    (makeChanges changes).Does files ⟨.ok (), changes⟩ := by
  rintro workspace rfl
  exact ⟨workspace.log, rfl⟩

theorem Does.bind {action : Action α} {next : α → Action β} {value : α} {changes : List Change}
    {effect : Effect β} (haction : action.Does files ⟨.ok value, changes⟩)
    (hnext : (next value).Does (files.applyAll changes) effect) :
    (action >>= next).Does files (effect.behind changes) := by
  intro workspace hfiles
  obtain ⟨log, hrun⟩ := haction workspace hfiles
  obtain ⟨rest, hrest⟩ := hnext ⟨files.applyAll changes, workspace.changes ++ changes, log⟩ rfl
  refine ⟨rest, ?_⟩
  have hafter : Effect.after ⟨.ok value, changes⟩ files = files.applyAll changes := rfl
  rw [runOn_bind, hrun, hafter]
  dsimp only
  rw [hrest, Effect.behind, Effect.after, Effect.after, FileTree.applyAll_append,
    List.append_assoc]

theorem Does.bind_error {action : Action α} {next : α → Action β} {failure : Failure}
    {changes : List Change} (haction : action.Does files ⟨.error failure, changes⟩) :
    (action >>= next).Does files ⟨.error failure, changes⟩ := by
  intro workspace hfiles
  obtain ⟨log, hrun⟩ := haction workspace hfiles
  exact ⟨log, by rw [runOn_bind, hrun]; rfl⟩

/-- What is made of a value at the end of an action. -/
theorem Does.map {action : Action α} {effect : Effect α} (f : α → β)
    (haction : action.Does files effect) :
    (action >>= fun value => pure (f value)).Does files (effect.map f) := by
  rcases effect with ⟨failure | value, changes⟩
  · exact haction.bind_error
  · have hbind : (action >>= fun value => pure (f value)).Does files
        (Effect.behind changes ⟨.ok (f value), []⟩) := haction.bind (does_pure (f value) _)
    rwa [Effect.behind, List.append_nil] at hbind

/-- Something without changes in front of an action. -/
theorem Does.after_nothing {action : Action α} {next : α → Action β} {value : α}
    {effect : Effect β} (haction : action.Does files ⟨.ok value, []⟩)
    (hnext : (next value).Does files effect) : (action >>= next).Does files effect :=
  haction.bind hnext

/-- The effect of making a directory with its parents. -/
def makeDirectoriesEffect (path : String) (files : FileTree) : Effect Unit where
  result :=
    match (files.makeDirectories path).fault with
    | none => .ok ()
    | some fault => .error (.unwritable path fault)
  changes := (files.makeDirectories path).changes

theorem does_makeDirectories (path : String) (files : FileTree) :
    (makeDirectories path).Does files (makeDirectoriesEffect path files) := by
  rintro workspace rfl
  exact ⟨workspace.log, by rw [runOn_makeDirectories]; rfl⟩

end Action

namespace Emitter

open Run.Action

/-! ## Emitting a scaffold -/

/-- The effect of writing a scaffold that has nothing in its place. -/
def writeNewEffect (scaffold : Scaffold) (files : FileTree) : Effect Outcome :=
  match files.writeNew scaffold.file scaffold.text.toUTF8 with
  | .ok changes => ⟨.ok .written, changes⟩
  | .error .alreadyExists => ⟨.ok .skipped, []⟩
  | .error fault => ⟨.error (.unwritable scaffold.file fault), []⟩

/-- The effect of writing a scaffold in place of what may be there. -/
def overwriteEffect (scaffold : Scaffold) (files : FileTree) : Effect Outcome :=
  match files.write scaffold.file scaffold.text.toUTF8 with
  | .ok changes => ⟨.ok (if files.exists? scaffold.file then .overwritten else .written), changes⟩
  | .error fault => ⟨.error (.unwritable scaffold.file fault), []⟩

/-- The effect of emitting a scaffold. -/
def emitEffect (policy : Policy) (scaffold : Scaffold) (files : FileTree) : Effect Outcome :=
  match policy with
  | .skipExisting =>
    if files.exists? scaffold.file then ⟨.ok .skipped, []⟩ else writeNewEffect scaffold files
  | .overwrite => overwriteEffect scaffold files

theorem does_writeNew (scaffold : Scaffold) (files : FileTree) :
    (writeNew scaffold).Does files (writeNewEffect scaffold files) := by
  refine (does_files files).after_nothing ?_
  rw [writeNewEffect]
  cases files.writeNew scaffold.file scaffold.text.toUTF8 with
  | ok changes => exact (does_makeChanges changes files).map fun _ => Outcome.written
  | error fault => cases fault <;> first | exact does_pure _ files | exact does_fail _ files

theorem does_overwrite (scaffold : Scaffold) (files : FileTree) :
    (overwrite scaffold (files.exists? scaffold.file)).Does files
      (overwriteEffect scaffold files) := by
  refine (does_files files).after_nothing ?_
  rw [overwriteEffect]
  cases files.write scaffold.file scaffold.text.toUTF8 with
  | ok changes => exact (does_makeChanges changes files).map fun _ => _
  | error fault => exact does_fail _ files

theorem does_logged {call : Action Outcome} {files : FileTree} {effect : Effect Outcome}
    (event : Outcome → Event) (hcall : call.Does files effect) :
    (do
      let outcome ← call
      logEvent (event outcome)
      return outcome : Action Outcome).Does files effect := by
  rcases effect with ⟨failure | outcome, changes⟩
  · exact hcall.bind_error
  · have hlog : (logEvent (event outcome) >>= fun _ => pure outcome : Action Outcome).Does
        (files.applyAll changes) ⟨.ok outcome, []⟩ :=
      (does_logEvent (event outcome) _).after_nothing (does_pure outcome _)
    have hbind : (call >>= fun outcome => logEvent (event outcome) >>= fun _ => pure outcome :
        Action Outcome).Does files (Effect.behind changes ⟨.ok outcome, []⟩) := hcall.bind hlog
    rwa [Effect.behind, List.append_nil] at hbind

theorem does_emit (policy : Policy) (scaffold : Scaffold) (files : FileTree) :
    (emit policy scaffold).Does files (emitEffect policy scaffold files) := by
  refine (does_files files).after_nothing ?_
  cases policy with
  | skipExisting =>
      rw [emitEffect]
      cases hthere : files.exists? scaffold.file with
      | true => exact (does_logEvent _ files).after_nothing (does_pure Outcome.skipped files)
      | false => exact does_logged (.emitted scaffold.file) (does_writeNew scaffold files)
  | overwrite =>
      have hfirst : ¬ (files.exists? scaffold.file &&
          decide (Policy.overwrite = Policy.skipExisting)) = true := by simp
      dsimp only
      rw [emitEffect, if_neg hfirst]
      exact does_logged (.emitted scaffold.file) (does_overwrite scaffold files)

/-! ## Jobs -/

variable (emitter : Emitter) (components : Components)

/-- The effect of a job. -/
def performEffect (files : FileTree) : Job → Effect (List Entry)
  | .destination => (makeDirectoriesEffect emitter.destination files).map fun _ => []
  | .route template =>
    match Route.of? emitter.destination template with
    | none => ⟨.error (.escapingPath (RouteScaffold.Route.mapTemplate template)), []⟩
    | some route => (makeDirectoriesEffect route.directory files).map fun _ => []
  | .scaffold template method operation =>
    match Route.of? emitter.destination template with
    | none => ⟨.error (.escapingPath (RouteScaffold.Route.mapTemplate template)), []⟩
    | some route =>
      (emitEffect emitter.policy (emitter.scaffoldOf components route method operation) files).map
        fun outcome => [emitter.entryOf components route method operation outcome]

/-- The effect of some jobs one after another. -/
def performAllEffect (files : FileTree) : List Job → Effect (List Entry)
  | [] => ⟨.ok [], []⟩
  | job :: rest =>
    let first := emitter.performEffect components files job
    match first.result with
    | .error failure => ⟨.error failure, first.changes⟩
    | .ok entries =>
      ((performAllEffect (first.after files) rest).map (entries ++ ·)).behind first.changes

theorem does_makeDestination (files : FileTree) : emitter.makeDestination.Does files
    (makeDirectoriesEffect emitter.destination files) := by
  rw [makeDestination]
  refine (does_files files).after_nothing ?_
  have hmake := does_makeDirectories emitter.destination files
  split
  · exact (does_logEvent _ files).after_nothing hmake
  · exact hmake

theorem does_emitOperation (route : Route) (method : Method) (operation : Operation)
    (files : FileTree) :
    (emitter.emitOperation components route method operation).Does files
      ((emitEffect emitter.policy (emitter.scaffoldOf components route method operation) files).map
        (emitter.entryOf components route method operation)) := by
  have hnotes : ∀ notes : List Note,
      Does (notes.forM fun note => logEvent (.gap note)) files ⟨.ok (), []⟩ :=
    fun notes => does_nothing fun workspace _ => ⟨_, runOn_forM_logEvent .gap notes workspace⟩
  exact (does_logEvent _ files).after_nothing
    ((hnotes _).after_nothing ((does_emit _ _ files).map _))

theorem does_perform (job : Job) (files : FileTree) :
    (emitter.perform components job).Does files (emitter.performEffect components files job) := by
  cases job with
  | destination => exact (emitter.does_makeDestination files).map fun _ => []
  | route template =>
      rw [perform, performEffect, prepare]
      cases Route.of? emitter.destination template with
      | none => exact (does_fail _ files).bind_error
      | some route =>
          have hprepare := (does_makeDirectories route.directory files).map fun _ => route
          have hperform := hprepare.map fun _ => ([] : List Entry)
          rw [Effect.map_map] at hperform
          exact hperform
  | scaffold template method operation =>
      rw [perform, performEffect]
      cases Route.of? emitter.destination template with
      | none => exact does_fail _ files
      | some route =>
          have hemit := emitter.does_emitOperation components route method operation files
          have hperform := hemit.map fun entry => [entry]
          rw [Effect.map_map] at hperform
          exact hperform

theorem does_performAll (jobs : List Job) (files : FileTree) :
    (emitter.performAll components jobs).Does files
      (emitter.performAllEffect components files jobs) := by
  induction jobs generalizing files with
  | nil => exact does_pure [] files
  | cons job rest ih =>
      have hjob := emitter.does_perform components job files
      rw [performAllEffect]
      rcases hfirst : emitter.performEffect components files job with ⟨failure | entries, changes⟩
      · rw [hfirst] at hjob
        exact hjob.bind_error
      · rw [hfirst] at hjob
        exact hjob.bind ((ih _).map (entries ++ ·))

variable {emitter components} {files first second : FileTree}

theorem performAllEffect_cons_ok {job : Job} {entries : List Entry} (rest : List Job)
    (h : (emitter.performEffect components files job).result = .ok entries) :
    emitter.performAllEffect components files (job :: rest) =
      ((emitter.performAllEffect components
          ((emitter.performEffect components files job).after files) rest).map (entries ++ ·)).behind
        (emitter.performEffect components files job).changes := by
  rw [performAllEffect, h]

/-- A job with a known effect in front of others. -/
theorem performAllEffect_cons_of_eq {job : Job} {entries : List Entry} {changes : List Change}
    {middle : FileTree} (rest : List Job)
    (h : emitter.performEffect components files job = ⟨.ok entries, changes⟩)
    (hmiddle : files.applyAll changes = middle) :
    emitter.performAllEffect components files (job :: rest) =
      ((emitter.performAllEffect components middle rest).map (entries ++ ·)).behind changes := by
  rw [performAllEffect_cons_ok rest (congrArg Effect.result h), h, ← hmiddle]
  rfl

theorem performAllEffect_cons_error {job : Job} {failure : Failure} (rest : List Job)
    (h : (emitter.performEffect components files job).result = .error failure) :
    emitter.performAllEffect components files (job :: rest) =
      ⟨.error failure, (emitter.performEffect components files job).changes⟩ := by
  rw [performAllEffect, h]

/-! ## Trees of one shape -/

theorem emitEffect_congr (h : first.Alike second) (policy : Policy) (scaffold : Scaffold) :
    emitEffect policy scaffold first = emitEffect policy scaffold second := by
  cases policy with
  | skipExisting =>
      rw [emitEffect, emitEffect, writeNewEffect, writeNewEffect, h.exists?_eq, h.writeNew_eq]
  | overwrite =>
      rw [emitEffect, emitEffect, overwriteEffect, overwriteEffect, h.exists?_eq, h.write_eq]

theorem performEffect_congr (h : first.Alike second) (job : Job) :
    emitter.performEffect components first job = emitter.performEffect components second job := by
  have hmake : ∀ path, makeDirectoriesEffect path first = makeDirectoriesEffect path second := by
    intro path
    rw [makeDirectoriesEffect, makeDirectoriesEffect, h.makeDirectories_eq]
  cases job with
  | destination => rw [performEffect, performEffect, hmake]
  | route template => simp only [performEffect, hmake]
  | scaffold template method operation => simp only [performEffect, emitEffect_congr h]

/-- Jobs do the same on trees of one shape. -/
theorem performAllEffect_congr (h : first.Alike second) (jobs : List Job) :
    emitter.performAllEffect components first jobs =
      emitter.performAllEffect components second jobs := by
  induction jobs generalizing first second with
  | nil => rfl
  | cons job rest ih =>
      have hjob : emitter.performEffect components first job =
        emitter.performEffect components second job := performEffect_congr h job
      have hrest := ih (h.applyAll (emitter.performEffect components second job).changes)
      rw [performAllEffect, performAllEffect, hjob, Effect.after, Effect.after, hrest]

/-! ## After each change -/

variable {R : FileTree → FileTree → Prop}

/-- What an emitter allows holds after each of the changes of its jobs. -/
theorem Allows.performAllEffect (h : emitter.Allows R) (components : Components) (jobs : List Job)
    (files : FileTree) {front : List Change}
    (hfront : front <+: (emitter.performAllEffect components files jobs).changes) :
    R files (files.applyAll front) := by
  obtain ⟨log, hrun⟩ := emitter.does_performAll components jobs files { files } rfl
  obtain ⟨made, hchanges, -, hmade⟩ := along_performAll h components jobs { files }
  rw [hrun, List.nil_append, List.nil_append] at hchanges
  exact hmade front (hchanges ▸ hfront)

/-- A file that is put in a place for a scaffold takes nothing away. -/
theorem covers_of_puts {policy : Policy} {path : String} {written : ByteArray}
    (hplaces : Places policy first path)
    (hputs : first.Puts (first.locationOf path) (.file written) second) : first.Covers second := by
  refine hputs.covers ?_
  rcases hplaces with hfree | ⟨-, old, hfile⟩
  · simp [hfree]
  · simp [hfile]

/-- No emitter loses anything that is there. -/
theorem allows_covers (emitter : Emitter) : emitter.Allows FileTree.Covers where
  chains := ⟨FileTree.Covers.refl, FileTree.Covers.trans⟩
  destination _ _ _ _ hgrows := hgrows.covers
  route _ _ _ _ _ _ _ hgrows := hgrows.covers
  module _ _ _ _ _ _ _ hplaces hputs := covers_of_puts hplaces hputs

theorem covers_performAllEffect (jobs : List Job) (files : FileTree) :
    files.Covers ((emitter.performAllEffect components files jobs).after files) :=
  emitter.allows_covers.performAllEffect components jobs files List.prefix_rfl

end Emitter

/-! ## Runs -/

/-- The effect of a run. -/
def runEffect (settings : Settings) (files : FileTree) : Effect Report :=
  match settings.document files with
  | .error failure => ⟨.error failure, []⟩
  | .ok document =>
    (settings.emitter.performAllEffect document.components files (documentJobs document)).map
      Report.ofEntries

theorem run_eq_effect (settings : Settings) (files : FileTree) :
    (run settings files).result = (runEffect settings files).result ∧
      (run settings files).workspace.files = (runEffect settings files).after files ∧
      (run settings files).workspace.changes = (runEffect settings files).changes := by
  rw [runEffect]
  cases hdocument : settings.document files with
  | error failure =>
      obtain ⟨stage, log, -, hrun⟩ := run_of_document_error hdocument
      rw [hrun]
      exact ⟨rfl, rfl, rfl⟩
  | ok document =>
      have hemit := (settings.emitter.does_performAll document.components (documentJobs document)
        files).map Report.ofEntries
      rw [← Emitter.emitDocument_eq] at hemit
      obtain ⟨title, version, hrun⟩ := run_of_document_ok hdocument
      obtain ⟨log, hleft⟩ := hemit
        { files, log := [.reading settings.source, .valid title version] } rfl
      rw [hrun, hleft]
      dsimp only
      cases (Effect.map Report.ofEntries (settings.emitter.performAllEffect document.components files
        (documentJobs document))).result <;> exact ⟨rfl, rfl, rfl⟩

theorem run_of_document {settings : Settings} {files : FileTree} {document : Document}
    (h : settings.document files = .ok document) :
    let effect := settings.emitter.performAllEffect document.components files (documentJobs document)
    (run settings files).result = effect.result.map Report.ofEntries ∧
      (run settings files).workspace.files = effect.after files ∧
      (run settings files).workspace.changes = effect.changes := by
  have heffect := run_eq_effect settings files
  rw [runEffect, h] at heffect
  exact heffect

end RouteScaffold.Run
