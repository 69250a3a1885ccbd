import RouteScaffold.Proofs.OpenApi.Operations
import RouteScaffold.Proofs.Run.Effect
import RouteScaffold.Proofs.Run.Log
import RouteScaffold.Proofs.Run.Unresolved

/-!
# Reports account for documents

The report of a run that succeeds has one entry for each key of the source's tree that stands for an
operation, in the order of the tree, whatever other keys there are and whatever files they go to
(`accountsFor_run`).  Its counts are those of what was done: as many files are new as it says were
written, and the log tells of each of its scaffolds and of each of its gaps.

Entries are compared with the operations of the document one by one (`Emitter.Reports`), and what is
logged for them is counted entry by entry (`countP_log`).
-/

namespace RouteScaffold.Run

open Files (FileTree)
open OpenApi (Method operationKeys)

/-! ## Counting outcomes and events -/

theorem countP_outcome (entries : List Entry) :
    entries.countP (·.outcome = .written) + entries.countP (·.outcome = .skipped) +
      entries.countP (·.outcome = .overwritten) = entries.length := by
  induction entries with
  | nil => rfl
  | cons entry rest ih =>
      simp only [List.countP_cons, List.length_cons]
      cases entry.outcome <;> simp <;> omega

/-- Whether an event tells what was done with a file. -/
def Event.isOutcome : Event → Bool
  | skipping _ => true
  | emitted .. => true
  | _ => false

section

variable {holds : Event → Bool}
  (hother : ∀ event, event.isOutcome = false → event.level ≠ .error → holds event = false)

include hother

/-- Of the events for an entry only the last one tells what was done with its file. -/
theorem countP_events (entry : Entry) : entry.events.countP holds =
    if holds (entry.outcome.event entry.scaffold.file) then 1 else 0 := by
  have hoperation : holds (.operation entry.scaffold.method entry.scaffold.mapped) = false :=
    hother _ rfl (by simp [Event.level])
  have hgaps : (entry.notes.map Event.gap).countP holds = 0 := by
    refine List.countP_eq_zero.mpr fun event hevent => ?_
    obtain ⟨note, -, rfl⟩ := List.mem_map.mp hevent
    simp [hother (.gap note) rfl (by simp [Event.level])]
  rw [Entry.events, List.countP_cons_of_neg (by simp [hoperation]), List.countP_append, hgaps,
    List.countP_singleton, Nat.zero_add]

theorem countP_flatMap_events (entries : List Entry) :
    (entries.flatMap Entry.events).countP holds =
      entries.countP fun entry => holds (entry.outcome.event entry.scaffold.file) := by
  induction entries with
  | nil => rfl
  | cons entry rest ih =>
      rw [List.flatMap_cons, List.countP_append, countP_events hother, ih, List.countP_cons,
        Nat.add_comm]

/-- What the log of a run that succeeds tells of files it tells of those of its report. -/
theorem countP_log {settings : Settings} {files : FileTree} {report : Report}
    (h : (run settings files).result = .ok report) :
    (run settings files).workspace.log.countP holds =
      report.entries.countP fun entry => holds (entry.outcome.event entry.scaffold.file) := by
  obtain ⟨⟨title, version, hlog⟩, -⟩ := log_of_run h
  have hnone : ∀ event, event.isOutcome = false → event.level ≠ .error → [event].countP holds = 0 :=
    fun event hevent hlevel => by simp [hother event hevent hlevel]
  have hopening : (settings.emitter.opening files).countP holds = 0 := by
    rw [Emitter.opening]
    split
    · rfl
    · exact hnone _ rfl (by simp [Event.level])
  have hreading : ([.reading settings.source, .valid title version] : List Event).countP holds = 0 := by
    rw [← List.singleton_append, List.countP_append,
      hnone (.reading settings.source) rfl (by simp [Event.level]),
      hnone (.valid title version) rfl (by simp [Event.level])]
  rw [hlog, List.countP_append, List.countP_append, List.countP_append, hreading, hopening,
    countP_flatMap_events hother, hnone (.completed report) rfl (by simp [Event.level])]
  omega

end

/-- The events for gaps are the warnings. -/
theorem filter_warn_events (entries : List Entry) :
    (entries.flatMap Entry.events).filter (·.level = .warn) =
      (entries.flatMap (·.notes)).map .gap := by
  induction entries with
  | nil => rfl
  | cons entry rest ih =>
      have hgaps : (entry.notes.map Event.gap).filter (·.level = .warn) = entry.notes.map .gap :=
        List.filter_eq_self.mpr fun event hevent => by
          obtain ⟨note, -, rfl⟩ := List.mem_map.mp hevent
          rfl
      have hlast : [entry.outcome.event entry.scaffold.file].filter (·.level = .warn) = [] := by
        cases entry.outcome <;> rfl
      rw [List.flatMap_cons, List.filter_append, ih, List.flatMap_cons, List.map_append, Entry.events,
        List.filter_cons_of_neg (by simp [Event.level]), List.filter_append, hgaps, hlast,
        List.append_nil]

/-! ## The words for skipping -/

theorem head?_append {start : String} {first : Char} (h : start.toList.head? = some first)
    (rest : String) : (start ++ rest).toList.head? = some first := by
  rw [String.toList_append, List.head?_append, h]
  rfl

theorem head?_gap_message (gap : Synthesis.Gap) :
    ∃ first, gap.message.toList.head? = some first ∧ first ≠ 'a' := by
  cases gap with
  | unresolvedParameter reference => exact ⟨'p', head?_append (head?_append rfl _) _, by decide⟩
  | unresolvedRequestBody reference => exact ⟨'r', head?_append (head?_append rfl _) _, by decide⟩
  | unresolvedBodySchema reference => exact ⟨'s', head?_append (head?_append rfl _) _, by decide⟩
  | missingBodySchema => exact ⟨'r', rfl, by decide⟩
  | untypedHeader name =>
      exact ⟨'h', head?_append (head?_append (head?_append rfl _) _) _, by decide⟩

theorem head?_upperName (method : Method) :
    ∃ first, method.upperName.toList.head? = some first ∧ first ≠ 'a' := by
  cases method <;> exact ⟨_, by cbv, by decide⟩

/-- No other event than skipping a file is told in these words: none of them starts with their first
letter. -/
theorem message_ne_skipping {event : Event} (hother : event.isOutcome = false)
    (hlevel : event.level ≠ .error) : event.message ≠ "already exists, skipping" := by
  have hwords : ∃ first, event.message.toList.head? = some first ∧ first ≠ 'a' := by
    -- the messages of an operation and of a gap begin with a method or a phrase of their own
    cases event with
    | reading source =>
        exact ⟨'p', show "parsing".toList.head? = some 'p' from rfl, by decide⟩
    | valid title version =>
        exact ⟨'d', show "document is valid".toList.head? = some 'd' from rfl, by decide⟩
    | creatingDestination destination =>
        exact ⟨'c', show "creating destination".toList.head? = some 'c' from rfl, by decide⟩
    | operation method mapped =>
        obtain ⟨first, hfirst, hne⟩ := head?_upperName method
        exact ⟨first, head?_append (head?_append hfirst " ") mapped, hne⟩
    | gap note => exact head?_gap_message note.gap
    | skipping file => cases hother
    | emitted file outcome => cases hother
    | completed report =>
        exact ⟨'p', show "parsing complete".toList.head? = some 'p' from rfl, by decide⟩
    | failed stage failure => exact absurd rfl hlevel
  obtain ⟨first, hfirst, hne⟩ := hwords
  intro hmessage
  rw [hmessage] at hfirst
  exact hne (Option.some.inj hfirst).symm

/-! ## The whole run -/

/-- A report of a run on some files, with the tree of its source and the document read from it, that tells
all that was done. -/
structure AccountsFor (settings : Settings) (files : FileTree) (tree : Json) (document : Document)
    (report : Report) (workspace : Workspace) : Prop where
  /-- There is one scaffold for each key that stands for an operation. -/
  operations : report.scaffolds.map (fun scaffold => (scaffold.template, scaffold.method.name)) =
    operationKeys tree
  outcomes : report.count .written + report.count .skipped + report.count .overwritten =
    report.scaffolds.length
  kept : settings.policy = .skipExisting → report.count .overwritten = 0
  forced : settings.policy = .overwrite → report.count .skipped = 0
  /-- So many regular files are new. -/
  files : workspace.files.root.fileCount = files.root.fileCount + report.count .written
  notes : report.notes = document.operations.flatMap (notesOf document.components)
  warnings : workspace.log.filter (·.level = .warn) = report.notes.map .gap
  emitted : workspace.log.countP
      (fun event => event.level = .debug ∧ event.message = "emitted scaffold") =
    report.count .written + report.count .overwritten
  skipping : workspace.log.countP (·.message = "already exists, skipping") = report.count .skipped

section

variable {settings : Settings} {files : FileTree} {report : Report}
  (h : (run settings files).result = .ok report)

include h

theorem fileCount_of_run : (run settings files).workspace.files.root.fileCount =
    files.root.fileCount + report.count .written := by
  obtain ⟨document, hdocument, -⟩ := doneAll_of_run h
  have hcovers : files.Covers (run settings files).workspace.files := by
    rw [(run_of_document hdocument).2.1]
    exact Emitter.covers_performAllEffect _ files
  exact hcovers.fileCount_eq (log_of_run h).2

theorem warnings_of_run :
    (run settings files).workspace.log.filter (·.level = .warn) = report.notes.map .gap := by
  obtain ⟨⟨title, version, hlog⟩, -⟩ := log_of_run h
  have hopening : (settings.emitter.opening files).filter (·.level = .warn) = [] := by
    rw [Emitter.opening]
    split <;> rfl
  rw [hlog, List.filter_append, List.filter_append, List.filter_append, hopening,
    filter_warn_events]
  simp [Event.level, Report.notes]

theorem emitted_of_run : (run settings files).workspace.log.countP
      (fun event => event.level = .debug ∧ event.message = "emitted scaffold") =
    report.count .written + report.count .overwritten := by
  have hother : ∀ event : Event, event.isOutcome = false → event.level ≠ .error →
      decide (event.level = .debug ∧ event.message = "emitted scaffold") = false := by
    intro event hother _
    cases event with
    | emitted file outcome => cases hother
    | _ => simp [Event.level]
  rw [countP_log hother h]
  calc report.entries.countP _
    _ = report.entries.countP (fun entry => ¬ decide (entry.outcome = .skipped) = true) :=
        List.countP_congr fun entry _ => by
          cases entry.outcome <;> simp [Outcome.event, Event.level, Event.message]
    _ = report.count .written + report.count .overwritten := by
        have hall := countP_outcome report.entries
        have hskipped := List.length_eq_countP_add_countP
          (fun entry : Entry => decide (entry.outcome = .skipped)) (l := report.entries)
        rw [count_of_run h, count_of_run h]
        omega

theorem skipping_of_run : (run settings files).workspace.log.countP
    (·.message = "already exists, skipping") = report.count .skipped := by
  rw [count_of_run h,
    countP_log (fun event hother hlevel => decide_eq_false (message_ne_skipping hother hlevel)) h]
  refine List.countP_congr fun entry _ => ?_
  cases entry.outcome <;> simp [Outcome.event, Event.message]

end

/-- The report of a run that succeeds accounts for the document, for the files and for the log. -/
theorem accountsFor_run {settings : Settings} {files : FileTree} {report : Report}
    (h : (run settings files).result = .ok report) :
    ∃ contents tree document, files.readText settings.source = .ok contents ∧
      Source.tree (Source.Format.detect settings.source) contents = .ok tree ∧
        Document.read tree = .ok document ∧
          AccountsFor settings files tree document report (run settings files).workspace := by
  obtain ⟨document, hdocument, hdone⟩ := doneAll_of_run h
  obtain ⟨contents, tree, description, htext, htree, hdescribe, -, hread⟩ :=
    exists_tree_of_document hdocument
  -- the entries stand for the operations one by one, which gives the counts and the notes
  have hreports := hdone.forall₂_reports
  rw [operations_documentJobs] at hreports
  have hoperations : report.scaffolds.map (fun scaffold => (scaffold.template, scaffold.method)) =
      document.operations.map fun operation => (operation.1, operation.2.1) := by
    rw [Report.scaffolds, List.map_map, List.map_eq_flatMap, List.map_eq_flatMap]
    exact flatMap_eq_of_forall₂ hreports fun entry operation hentry =>
      congrArg (fun keys => [keys]) hentry.keys_eq
  have houtcome : ∀ entry ∈ report.entries,
      (settings.policy = .skipExisting → entry.outcome ≠ .overwritten) ∧
        (settings.policy = .overwrite → entry.outcome ≠ .skipped) := by
    intro entry hentry
    obtain ⟨operation, -, hreport⟩ := exists_of_forall₂ hreports hentry
    exact ⟨hreport.kept, hreport.forced⟩
  refine ⟨contents, tree, document, htext, htree, hread, ?_, ?_, fun hpolicy => ?_, fun hpolicy => ?_,
    fileCount_of_run h, ?_, warnings_of_run h, emitted_of_run h, skipping_of_run h⟩
  · rw [← OpenApi.operationKeys_of_read (Source.distinct_tree htree) hdescribe hread]
    have hnames := congrArg (List.map fun keys => (keys.1, keys.2.name)) hoperations
    rwa [List.map_map, List.map_map] at hnames
  · rw [count_of_run h, count_of_run h, count_of_run h, Report.scaffolds, List.length_map]
    exact countP_outcome report.entries
  · rw [count_of_run h]
    exact List.countP_eq_zero.mpr fun entry hentry => by simp [(houtcome entry hentry).1 hpolicy]
  · rw [count_of_run h]
    exact List.countP_eq_zero.mpr fun entry hentry => by simp [(houtcome entry hentry).2 hpolicy]
  · exact flatMap_eq_of_forall₂ hreports fun entry operation hentry => hentry.notes_eq

/-- Of the two operations that share a file one is written and one is skipped. -/
theorem accountsFor_run_twin :
    (run twinSettings twinFiles).result = .ok twinReport ∧
      (run twinSettings twinFiles).workspace.files.root.fileCount = twinFiles.root.fileCount + 1 ∧
        (run twinSettings twinFiles).workspace.log.countP
          (·.message = "already exists, skipping") = 1 := by
  obtain ⟨contents, tree, document, -, -, -, haccounts⟩ := accountsFor_run run_twin
  exact ⟨run_twin, haccounts.files, haccounts.skipping⟩

end RouteScaffold.Run
