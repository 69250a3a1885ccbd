import RouteScaffold.Proofs.Files.Count
import RouteScaffold.Proofs.Run.Ending

/-!
# What runs log

Each entry of a report stands for some events (`Entry.events`): one for its operation, one for each of its
gaps, and one for what was done with its file.  The log of a run that succeeds is made of these, entry by
entry, between the events of the stages (`log_of_run`).  In step with the log go the files: those that are
reported to be written are added, and no others (`Tallies`).

Making a new file may tell that the name is taken after all.  That a scaffold is then logged as emitted
though it was skipped does not happen, since a name that is taken is found before.
-/

namespace RouteScaffold.Run

open Document (Components Operation PathItem)
open Files (Change FileTree)
open OpenApi (Method)
open Scaffold (Route)

/-! ## Events of entries -/

/-- The event for what was done with a file. -/
def Outcome.event (file : String) : Outcome → Event
  | written => .emitted file written
  | skipped => .skipping file
  | overwritten => .emitted file overwritten

/-- The events for an entry of a report. -/
def Entry.events (entry : Entry) : List Event :=
  .operation entry.scaffold.method entry.scaffold.mapped ::
    (entry.notes.map .gap ++ [entry.outcome.event entry.scaffold.file])

/-- From one workspace to another some entries are reported: the log goes on with their events, and the
files that were written are added. -/
structure Tallies (before : Workspace) (entries : List Entry) (after : Workspace) : Prop where
  log_eq : after.log = before.log ++ entries.flatMap Entry.events
  weight_eq : after.files.root.weight =
    before.files.root.weight + entries.countP (·.outcome = .written)

namespace Tallies

variable {before middle after : Workspace} {first second : List Entry}

theorem refl (workspace : Workspace) : Tallies workspace [] workspace :=
  ⟨(List.append_nil _).symm, rfl⟩

theorem trans (hfirst : Tallies before first middle) (hsecond : Tallies middle second after) :
    Tallies before (first ++ second) after where
  log_eq := by
    rw [hsecond.log_eq, hfirst.log_eq, List.flatMap_append, List.append_assoc]
  weight_eq := by
    rw [hsecond.weight_eq, hfirst.weight_eq, List.countP_append, Nat.add_assoc]

end Tallies

/-! ## Emitting -/

namespace Emitter

open Run.Action

variable {emitter : Emitter} {components : Components} {workspace after : Workspace}

theorem tallies_makeDirectories {path : String}
    (h : (makeDirectories path).runOn workspace = (.ok (), after)) : Tallies workspace [] after := by
  rw [runOn_makeDirectories] at h
  obtain ⟨-, rfl⟩ := Prod.mk.inj h
  exact ⟨(List.append_nil _).symm, FileTree.weight_makeDirectories workspace.files path⟩

/-- What is done with a file, before it is logged. -/
structure Handles (before : Workspace) (outcome : Outcome) (after : Workspace) : Prop where
  log_eq : after.log = before.log
  weight_eq : after.files.root.weight =
    before.files.root.weight + if outcome = .written then 1 else 0

theorem handles_writeNew {scaffold : Scaffold} {outcome : Outcome}
    (hfree : workspace.files.exists? scaffold.file = false)
    (h : (writeNew scaffold).runOn workspace = (.ok outcome, after)) :
    outcome ≠ .skipped ∧ Handles workspace outcome after := by
  rw [writeNew, runOn_bind, runOn_files] at h
  dsimp only at h
  split at h
  · rename_i hwrite
    rw [runOn_bind, runOn_makeChanges] at h
    cases h
    exact ⟨by simp, rfl, FileTree.weight_writeNew hwrite⟩
  · -- a name that is taken would have been found before
    rename_i hwrite
    rw [FileTree.exists?_of_writeNew hwrite] at hfree
    cases hfree
  · cases h

theorem handles_overwrite {scaffold : Scaffold} {outcome : Outcome}
    (h : (overwrite scaffold (workspace.files.exists? scaffold.file)).runOn workspace =
      (.ok outcome, after)) : outcome ≠ .skipped ∧ Handles workspace outcome after := by
  rw [overwrite, runOn_bind, runOn_files] at h
  dsimp only at h
  split at h
  · rename_i hwrite
    have hweight := FileTree.weight_write hwrite
    rw [runOn_bind, runOn_makeChanges] at h
    cases h
    cases hthere : workspace.files.exists? scaffold.file with
    | true =>
        rw [hthere] at hweight
        exact ⟨by simp, rfl, hweight⟩
    | false =>
        rw [hthere] at hweight
        exact ⟨by simp, rfl, hweight⟩
  · cases h

theorem event_of_ne_skipped {outcome : Outcome} (file : String) (hne : outcome ≠ .skipped) :
    outcome.event file = .emitted file outcome := by
  cases outcome with
  | skipped => exact absurd rfl hne
  | _ => rfl

/-- Emitting a scaffold logs what was done with its file, and adds the file if it was written. -/
theorem tells_emit {policy : Policy} {scaffold : Scaffold} {outcome : Outcome}
    (h : (emit policy scaffold).runOn workspace = (.ok outcome, after)) :
    after.log = workspace.log ++ [outcome.event scaffold.file] ∧
      after.files.root.weight =
        workspace.files.root.weight + if outcome = .written then 1 else 0 := by
  -- what comes of a call is logged after it
  have hlogged : ∀ call : Action Outcome,
      (∀ {found middle}, call.runOn workspace = (.ok found, middle) →
        found ≠ .skipped ∧ Handles workspace found middle) →
      (do
        let outcome ← call
        logEvent (.emitted scaffold.file outcome)
        return outcome : Action Outcome).runOn workspace = (.ok outcome, after) →
      after.log = workspace.log ++ [outcome.event scaffold.file] ∧
        after.files.root.weight =
          workspace.files.root.weight + if outcome = .written then 1 else 0 := by
    intro call hcall hrun
    obtain ⟨found, middle, hfound, hrest⟩ := runOn_bind_ok.mp hrun
    obtain ⟨hne, hhandles⟩ := hcall hfound
    cases hrest
    rw [event_of_ne_skipped _ hne, ← hhandles.log_eq]
    exact ⟨rfl, hhandles.weight_eq⟩
  rw [emit, runOn_bind, runOn_files] at h
  dsimp only at h
  split at h
  · cases h
    exact ⟨rfl, rfl⟩
  · rename_i hskip
    simp only [Bool.and_eq_true, decide_eq_true_eq, not_and] at hskip
    cases policy with
    | skipExisting =>
        have hfree : workspace.files.exists? scaffold.file = false := by
          rw [← Bool.not_eq_true]
          exact fun hthere => hskip hthere rfl
        exact hlogged _ (handles_writeNew hfree) h
    | overwrite => exact hlogged _ handles_overwrite h

theorem tallies_emitOperation {route : Route} {method : Method} {operation : Operation} {entry : Entry}
    (h : (emitter.emitOperation components route method operation).runOn workspace =
      (.ok entry, after)) : Tallies workspace [entry] after := by
  rw [emitOperation, runOn_bind, runOn_logEvent] at h
  dsimp only at h
  rw [runOn_bind, runOn_forM_logEvent] at h
  dsimp only at h
  obtain ⟨outcome, _, hemit, hrest⟩ := runOn_bind_ok.mp h
  cases hrest
  obtain ⟨hlog, hweight⟩ := tells_emit hemit
  refine ⟨?_, ?_⟩
  · rw [hlog]
    simp [Entry.events, Workspace.record, Route.scaffold]
  · rw [hweight]
    cases outcome <;> rfl

theorem tallies_emitOperations {route : Route} {operations : List (Method × Operation)}
    {report filled : Report}
    (h : (emitter.emitOperations components route report operations).runOn workspace =
      (.ok filled, after)) :
    ∃ entries, filled = entries.foldl Report.record report ∧ Tallies workspace entries after := by
  induction operations generalizing workspace report with
  | nil =>
      cases h
      exact ⟨[], rfl, .refl _⟩
  | cons first rest ih =>
      obtain ⟨entry, middle, hentry, hrest⟩ := runOn_bind_ok.mp h
      obtain ⟨entries, hfilled, htallies⟩ := ih hrest
      exact ⟨entry :: entries, hfilled, (tallies_emitOperation hentry).trans htallies⟩

theorem tallies_emitPaths {paths : List (String × PathItem)} {report filled : Report}
    (h : (emitter.emitPaths components report paths).runOn workspace = (.ok filled, after)) :
    ∃ entries, filled = entries.foldl Report.record report ∧ Tallies workspace entries after := by
  induction paths generalizing workspace report with
  | nil =>
      cases h
      exact ⟨[], rfl, .refl _⟩
  | cons first rest ih =>
      obtain ⟨route, prepared, hprepare, hpath⟩ := runOn_bind_ok.mp h
      obtain ⟨found, middle, hfound, hrest⟩ := runOn_bind_ok.mp hpath
      obtain ⟨own, rfl, hown⟩ := tallies_emitOperations hfound
      obtain ⟨more, hfilled, hmore⟩ := ih hrest
      refine ⟨own ++ more, by rw [hfilled, List.foldl_append], ?_⟩
      exact (tallies_makeDirectories (prepare_ok hprepare).2).trans (hown.trans hmore)

/-- The event of a run that makes its destination, where that is missing. -/
def opening (emitter : Emitter) (files : FileTree) : List Event :=
  if files.exists? emitter.destination then [] else [.creatingDestination emitter.destination]

/-- A document is emitted after the destination was made. -/
theorem tallies_emitDocument {document : Document} {report : Report}
    (h : (emitter.emitDocument document).runOn workspace = (.ok report, after)) :
    ∃ entries, report = .ofEntries entries ∧
      Tallies { workspace with log := workspace.log ++ emitter.opening workspace.files } entries after := by
  obtain ⟨_, opened, hmade, hpaths⟩ := runOn_bind_ok.mp h
  obtain ⟨entries, hreport, htallies⟩ := tallies_emitPaths hpaths
  have hopened : Tallies { workspace with log := workspace.log ++ emitter.opening workspace.files }
      [] opened := by
    rw [makeDestination, runOn_bind, runOn_files] at hmade
    dsimp only at hmade
    rw [opening]
    cases hthere : workspace.files.exists? emitter.destination with
    | true =>
        rw [hthere] at hmade
        rw [if_pos rfl, List.append_nil]
        exact tallies_makeDirectories hmade
    | false =>
        rw [hthere] at hmade
        rw [if_neg Bool.false_ne_true]
        exact tallies_makeDirectories hmade
  exact ⟨entries, hreport, hopened.trans htallies⟩

end Emitter

/-! ## The whole run -/

/-- A run that succeeds logs the events of its stages and between them those of its entries, and adds
the files that it reports to be written. -/
theorem log_of_run {settings : Settings} {files : FileTree} {report : Report}
    (h : (run settings files).result = .ok report) :
    (∃ title version, (run settings files).workspace.log =
      [.reading settings.source, .valid title version] ++ settings.emitter.opening files ++
        report.entries.flatMap Entry.events ++ [.completed report]) ∧
      (run settings files).workspace.files.root.weight =
        files.root.weight + report.count .written := by
  obtain ⟨document, hdocument, -⟩ := doneAll_of_run h
  obtain ⟨title, version, hrun⟩ := run_of_document_ok hdocument
  rw [hrun] at h ⊢
  split at h
  · cases h
  rename_i found after hemit
  obtain rfl : found = report := Except.ok.inj h
  obtain ⟨entries, rfl, htallies⟩ := Emitter.tallies_emitDocument hemit
  refine ⟨⟨title, version, ?_⟩, ?_⟩
  · simp [Workspace.record, htallies.log_eq]
  · rw [Report.count_ofEntries]
    exact htallies.weight_eq

end RouteScaffold.Run
