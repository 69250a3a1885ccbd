import RouteScaffold.Proofs.Run.Settled
import RouteScaffold.Run.Compile

/-!
# How runs end

A run that has no document does not come to emitting and changes no file (`run_of_document_error`).  One
that has a document ends as emitting it does (`run_of_document_ok`): it works through the jobs of the
document (`run_ends`).  When all of them are done it reports one entry for each operation of the
document, in its order, with the scaffold of that operation (`Emitter.DoneAll.scaffolds_eq`), its gaps
and an outcome that the policy allows (`Emitter.DoneAll.forall₂_reports`).
-/

namespace RouteScaffold.Run

open Document (Components Operation PathItem)
open Files (FileTree IsName below)
open OpenApi (Method)
open Scaffold (Route fileName)

/-! ## The scaffolds of a document -/

/-- The operation that a job emits the scaffold of. -/
def Job.operations : Job → List (String × Method × Operation)
  | .destination => []
  | .route _ => []
  | .scaffold template method operation => [(template, method, operation)]

theorem operations_pathJobs (path : String × PathItem) :
    (pathJobs path).flatMap Job.operations =
      path.2.operations.map fun (method, operation) => (path.1, method, operation) := by
  rw [pathJobs, List.flatMap_cons, Job.operations, List.nil_append, List.flatMap_map]
  exact (List.map_eq_flatMap ..).symm

/-- The jobs for a document emit the scaffolds of its operations. -/
theorem operations_documentJobs (document : Document) :
    (documentJobs document).flatMap Job.operations = document.operations := by
  rw [documentJobs, List.flatMap_cons, Job.operations, List.nil_append, List.flatMap_assoc,
    Document.operations]
  exact List.flatMap_congr fun path _ => operations_pathJobs path

/-- The gaps of an operation of a document. -/
def notesOf (components : Components) : String × Method × Operation → List Note
  | (template, method, operation) =>
    (Synthesis.synthesize components operation).gaps.map fun gap => ⟨method, template, gap⟩

namespace Emitter

variable {emitter : Emitter} {components : Components}

/-- The scaffold of an operation of a document, unless its route would leave the destination. -/
def scaffold? (emitter : Emitter) (components : Components) :
    String × Method × Operation → Option Scaffold
  | (template, method, operation) =>
    (Route.of? emitter.destination template).map fun route =>
      emitter.scaffoldOf components route method operation

theorem Done.scaffolds_eq {job : Job} {before after : FileTree} {entries : List Entry}
    (h : emitter.Done components job before entries after) :
    entries.map (some ·.scaffold) = job.operations.map (emitter.scaffold? components) := by
  cases h with
  | destination hopens => rfl
  | route hroute hopens => rfl
  | scaffold hroute hemits => simp [Job.operations, scaffold?, entryOf, hroute]

/-- What is reported are the scaffolds of the operations, one by one. -/
theorem DoneAll.scaffolds_eq {jobs : List Job} {before after : FileTree} {entries : List Entry}
    (h : emitter.DoneAll components jobs before entries after) :
    entries.map (some ·.scaffold) =
      (jobs.flatMap Job.operations).map (emitter.scaffold? components) := by
  induction h with
  | nil tree => rfl
  | cons hjob hrest ih =>
      rw [List.map_append, List.flatMap_cons, List.map_append, hjob.scaffolds_eq, ih]

/-- An entry of a report that is about an operation, with an outcome that the policy allows. -/
structure Reports (emitter : Emitter) (components : Components) (entry : Entry)
    (operation : String × Method × Operation) : Prop where
  keys_eq : (entry.scaffold.template, entry.scaffold.method) = (operation.1, operation.2.1)
  notes_eq : entry.notes = notesOf components operation
  kept : emitter.policy = .skipExisting → entry.outcome ≠ .overwritten
  forced : emitter.policy = .overwrite → entry.outcome ≠ .skipped

theorem reports_entryOf {template : String} {route : Route} {method : Method} {operation : Operation}
    {outcome : Outcome} {before after : FileTree}
    (hroute : Route.of? emitter.destination template = some route)
    (hemits : Emits emitter.policy (emitter.scaffoldOf components route method operation) before
      outcome after) :
    emitter.Reports components (emitter.entryOf components route method operation outcome)
      (template, method, operation) := by
  obtain rfl : route.template = template := (Route.of?_eq_some hroute).1
  refine ⟨rfl, rfl, fun hpolicy houtcome => ?_, fun hpolicy houtcome => ?_⟩
  · cases hemits with
    | overwritten hforce hold hputs => cases hpolicy.symm.trans hforce
    | _ => cases houtcome
  · cases hemits with
    | skipped hskip hthere => cases hpolicy.symm.trans hskip
    | _ => cases houtcome

/-- Jobs that are done report their operations one by one. -/
theorem DoneAll.forall₂_reports {jobs : List Job} {before after : FileTree} {entries : List Entry}
    (h : emitter.DoneAll components jobs before entries after) :
    List.Forall₂ (emitter.Reports components) entries (jobs.flatMap Job.operations) := by
  induction h with
  | nil tree => exact .nil
  | cons hjob hrest ih =>
      rw [List.flatMap_cons]
      cases hjob with
      | destination hopens => exact ih
      | route hroute hopens => exact ih
      | scaffold hroute hemits => exact .cons (reports_entryOf hroute hemits) ih

/-- The names below the destination of the module of an operation. -/
def moduleNames (emitter : Emitter) (operation : String × Method × Operation) : List String :=
  RouteScaffold.Route.segments (RouteScaffold.Route.mapTemplate operation.1) ++
    [fileName operation.2.1 emitter.style]

/-- The file of a scaffold is at the names of its operation below the destination. -/
theorem file_of_scaffold? {operation : String × Method × Operation} {scaffold : Scaffold}
    (h : emitter.scaffold? components operation = some scaffold) :
    scaffold.file = below emitter.destination (emitter.moduleNames operation) ∧
      ∀ name ∈ emitter.moduleNames operation, IsName name := by
  obtain ⟨route, hroute, rfl⟩ := Option.map_eq_some_iff.mp h
  have hnames : emitter.moduleNames operation =
      route.fileNames operation.2.1 emitter.style := by
    rw [Route.fileNames, Scaffold.Route.segments, (Route.of?_eq_some hroute).2.1]
    rfl
  rw [hnames]
  exact ⟨Route.scaffold_file hroute .., Route.isName_of_mem_fileNames hroute _ _⟩

/-- The location of a scaffold's file is that of the destination followed by the names of its
operation. -/
theorem locationOf_of_scaffold? {operation : String × Method × Operation} {scaffold : Scaffold}
    (h : emitter.scaffold? components operation = some scaffold) (files : FileTree) :
    files.locationOf scaffold.file =
      files.locationOf emitter.destination ++ emitter.moduleNames operation := by
  rw [(file_of_scaffold? h).1, files.locationOf_below _ (file_of_scaffold? h).2]

/-- Scaffolds of one destination go to one location exactly when they have the same file. -/
theorem locationOf_file_inj {first second : String × Method × Operation} {scaffold other : Scaffold}
    (hfirst : emitter.scaffold? components first = some scaffold)
    (hsecond : emitter.scaffold? components second = some other) (files : FileTree) :
    files.locationOf scaffold.file = files.locationOf other.file ↔ scaffold.file = other.file := by
  rw [locationOf_of_scaffold? hfirst, locationOf_of_scaffold? hsecond, List.append_cancel_left_eq,
    (file_of_scaffold? hfirst).1, (file_of_scaffold? hsecond).1,
    Files.below_inj _ (file_of_scaffold? hfirst).2 (file_of_scaffold? hsecond).2]

/-- Each entry is about an operation of the jobs. -/
theorem DoneAll.exists_operation {jobs : List Job} {before after : FileTree} {entries : List Entry}
    (h : emitter.DoneAll components jobs before entries after) {entry : Entry}
    (hentry : entry ∈ entries) :
    ∃ operation ∈ jobs.flatMap Job.operations,
      emitter.scaffold? components operation = some entry.scaffold := by
  have hmem : some entry.scaffold ∈ entries.map (some ·.scaffold) := List.mem_map_of_mem hentry
  rw [h.scaffolds_eq] at hmem
  exact List.mem_map.mp hmem

/-- Each entry was emitted after the jobs before it were done, and before the jobs after it were. -/
theorem DoneAll.exists_emits {jobs : List Job} {before after : FileTree} {front back : List Entry}
    {entry : Entry} (h : emitter.DoneAll components jobs before (front ++ entry :: back) after) :
    ∃ done job rest middle left, jobs = done ++ job :: rest ∧
      emitter.DoneAll components done before front middle ∧
        Emits emitter.policy entry.scaffold middle entry.outcome left ∧
          emitter.DoneAll components rest left back after := by
  generalize hall : front ++ entry :: back = all at h
  induction h generalizing front with
  | nil tree => simp at hall
  | cons hjob hrest ih =>
      rename_i job rest first middle last entries more
      -- an entry that is none of the first job's is one of the rest
      have hlater : ∀ later, later ++ entry :: back = more →
          ∃ done current left reached tree, job :: rest = done ++ current :: left ∧
            emitter.DoneAll components done first (entries ++ later) reached ∧
              Emits emitter.policy entry.scaffold reached entry.outcome tree ∧
                emitter.DoneAll components left tree back last := by
        intro later hmore
        obtain ⟨done, current, left, reached, tree, rfl, hdone, hemits, hleft⟩ := ih hmore
        exact ⟨job :: done, current, left, reached, tree, rfl, .cons hjob hdone, hemits, hleft⟩
      cases hjob with
      | destination hopens => exact hlater front hall
      | route hroute hopens => exact hlater front hall
      | scaffold hroute hemits =>
          cases front with
          | nil =>
              obtain ⟨rfl, rfl⟩ := List.cons.inj hall
              exact ⟨[], _, rest, first, middle, rfl, .nil first, hemits, hrest⟩
          | cons head later =>
              obtain ⟨rfl, hmore⟩ := List.cons.inj hall
              exact hlater later hmore

end Emitter

/-! ## Ends of runs -/

/-- The document that a run reads from its source. -/
def Settings.document (settings : Settings) (files : FileTree) : Except Failure Document := do
  let (tree, _) ← examine settings files
  readDocument tree

section

variable {settings : Settings} {files : FileTree}

/-- A run that has no document fails before emitting. -/
theorem run_of_document_error {failure : Failure} (h : settings.document files = .error failure) :
    ∃ stage log, stage ≠ .emitting ∧
      run settings files = .failure stage failure { files, log } := by
  rw [Settings.document] at h
  rw [run]
  dsimp only
  cases hexamine : examine settings files with
  | error fault =>
      rw [hexamine] at h
      obtain rfl : fault = failure := Except.error.inj h
      exact ⟨.validating, _, by decide, rfl⟩
  | ok found =>
      rw [hexamine] at h
      dsimp only
      rw [show readDocument found.1 = .error failure from h]
      exact ⟨.parsing, _, by decide, rfl⟩

/-- A run that has a document ends as emitting it does. -/
theorem run_of_document_ok {document : Document} (h : settings.document files = .ok document) :
    ∃ title version, run settings files =
      match (settings.emitter.emitDocument document).runOn
        { files, log := [.reading settings.source, .valid title version] } with
      | (.error failure, after) => .failure .emitting failure after
      | (.ok report, after) => ⟨.completed, .ok report, after.record (.completed report)⟩ := by
  rw [Settings.document] at h
  rw [run]
  dsimp only
  cases hexamine : examine settings files with
  | error fault =>
      rw [hexamine] at h
      cases h
  | ok found =>
      rw [hexamine] at h
      dsimp only
      rw [show readDocument found.1 = .ok document from h]
      exact ⟨found.2.title, found.2.version, rfl⟩

end

/-- How a run ends, and the files it leaves. -/
inductive RunEnds (settings : Settings) (files : FileTree) : Except Failure Report → FileTree → Prop
  /-- There is no document: nothing is changed. -/
  | unread (failure : Failure) (hdocument : settings.document files = .error failure) :
      RunEnds settings files (.error failure) files
  /-- All jobs for the document are done. -/
  | completed {document : Document} {entries : List Entry} {after : FileTree}
      (hdocument : settings.document files = .ok document)
      (hdone : settings.emitter.DoneAll document.components (documentJobs document) files entries
        after) :
      RunEnds settings files (.ok (.ofEntries entries)) after
  /-- The first jobs are done, and the next one stops. -/
  | stopped {document : Document} {done rest : List Job} {job : Job} {entries : List Entry}
      {middle after : FileTree} (failure : Failure)
      (hdocument : settings.document files = .ok document)
      (hjobs : documentJobs document = done ++ job :: rest)
      (hdone : settings.emitter.DoneAll document.components done files entries middle)
      (hstops : settings.emitter.Stops document.components job middle failure after) :
      RunEnds settings files (.error failure) after

theorem ends_of_emitDocument {settings : Settings} {files : FileTree} {document : Document}
    {workspace after : Workspace} {result : Except Failure Report}
    (hemit : (settings.emitter.emitDocument document).runOn workspace = (result, after))
    (hdocument : settings.document files = .ok document) (hfiles : workspace.files = files) :
    RunEnds settings files result after.files := by
  subst hfiles
  rw [Emitter.emitDocument_eq] at hemit
  cases result with
  | ok report =>
      obtain ⟨entries, _, hperform, hreturn⟩ := Action.runOn_bind_ok.mp hemit
      cases hreturn
      exact .completed hdocument (Emitter.doneAll_of_performAll hperform)
  | error failure =>
      rcases Action.runOn_bind_error.mp hemit with hperform | ⟨_, _, _, hreturn⟩
      · obtain ⟨done, job, rest, entries, middle, hjobs, hdone, hstops⟩ :=
          Emitter.stops_of_performAll hperform
        exact .stopped failure hdocument hjobs hdone hstops
      · cases hreturn

theorem run_ends (settings : Settings) (files : FileTree) :
    RunEnds settings files (run settings files).result (run settings files).workspace.files := by
  cases hdocument : settings.document files with
  | error failure =>
      obtain ⟨stage, log, -, hrun⟩ := run_of_document_error hdocument
      rw [hrun]
      exact .unread failure hdocument
  | ok document =>
      obtain ⟨title, version, hrun⟩ := run_of_document_ok hdocument
      rw [hrun]
      split
      · rename_i failure after hemit
        exact show RunEnds settings files (.error failure) after.files from
          ends_of_emitDocument hemit hdocument rfl
      · rename_i report after hemit
        exact show RunEnds settings files (.ok report) after.files from
          ends_of_emitDocument hemit hdocument rfl

/-- A run that succeeds reports the entries of its jobs. -/
theorem exists_entries_of_run {settings : Settings} {files : FileTree} {report : Report}
    (h : (run settings files).result = .ok report) : ∃ entries, report = .ofEntries entries := by
  have hends := run_ends settings files
  rw [h] at hends
  cases hends with
  | completed hdocument hdone => exact ⟨_, rfl⟩

/-- The counters of a run that succeeds are in step with its entries. -/
theorem count_of_run {settings : Settings} {files : FileTree} {report : Report}
    (h : (run settings files).result = .ok report) (outcome : Outcome) :
    report.count outcome = report.entries.countP fun entry => entry.outcome = outcome := by
  obtain ⟨entries, rfl⟩ := exists_entries_of_run h
  rw [Report.count_ofEntries, Report.entries_ofEntries]

/-- A run that succeeds does all jobs for its document. -/
theorem doneAll_of_run {settings : Settings} {files : FileTree} {report : Report}
    (h : (run settings files).result = .ok report) :
    ∃ document, settings.document files = .ok document ∧
      settings.emitter.DoneAll document.components (documentJobs document) files report.entries
        (run settings files).workspace.files := by
  have hends := run_ends settings files
  rw [h] at hends
  cases hends with
  | completed hdocument hdone => exact ⟨_, hdocument, by rwa [Report.entries_ofEntries]⟩

end RouteScaffold.Run
