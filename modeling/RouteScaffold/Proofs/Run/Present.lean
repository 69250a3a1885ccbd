import RouteScaffold.Proofs.Run.Generated

/-!
# What stands in the place of a reported scaffold

After a run that succeeds something stands in the place of each scaffold it reports
(`present_of_run`).  It need not be the file of a module: a scaffold is skipped whatever is in its
place, so that a directory may be there, which was there before the run, or which is on the way to the
destination or to a route (`not_present_twin`).  A scaffold that is not skipped is in a file.
-/

namespace RouteScaffold.Run

open Files (FileTree Kind Location)

/-- What stands in the place of a scaffold of a run, from what stood there before the run, when it was
the turn of the scaffold, and after the run. -/
structure Present (settings : Settings) (files : FileTree) (document : Document) (entry : Entry)
    (middle after : FileTree) : Prop where
  there : after.kindAt? (files.locationOf entry.scaffold.file) ≠ none
  /-- A directory stands there that was there before or is on the way. -/
  directory : after.kindAt? (files.locationOf entry.scaffold.file) = some .directory ↔
    files.kindAt? (files.locationOf entry.scaffold.file) = some .directory ∨
      settings.OnWay files document (files.locationOf entry.scaffold.file)
  /-- The scaffold is skipped when anything was there at its turn. -/
  skipped : entry.outcome = .skipped ↔
    settings.policy = .skipExisting ∧ middle.kindAt? (files.locationOf entry.scaffold.file) ≠ none
  /-- What it is skipped for stays there. -/
  stays : entry.outcome = .skipped →
    after.kindAt? (files.locationOf entry.scaffold.file) =
      middle.kindAt? (files.locationOf entry.scaffold.file)
  /-- What is not skipped is in a file. -/
  file : entry.outcome ≠ .skipped → ∃ contents,
    after.kindAt? (files.locationOf entry.scaffold.file) = some (.file contents)

/-! ## One scaffold -/

namespace Emits

variable {policy : Policy} {scaffold : Scaffold} {before after : FileTree} {outcome : Outcome}

theorem skipped_iff (h : Emits policy scaffold before outcome after) :
    outcome = .skipped ↔
      policy = .skipExisting ∧ before.kindAt? (before.locationOf scaffold.file) ≠ none := by
  cases h with
  | skipped hpolicy hthere =>
      have hkind := FileTree.kindAt?_ne_none_of_exists? hthere
      exact ⟨fun _ => ⟨hpolicy, hkind⟩, fun _ => rfl⟩
  | written hfree hputs =>
      refine ⟨fun houtcome => ?_, fun hboth => absurd hfree hboth.2⟩
      cases houtcome
  | overwritten hpolicy hold hputs =>
      refine ⟨fun houtcome => ?_, fun hboth => ?_⟩
      · cases houtcome
      · cases hpolicy.symm.trans hboth.1

/-- A scaffold that is skipped leaves everything as it is. -/
theorem eq_of_skipped (h : Emits policy scaffold before .skipped after) : after = before := by
  cases h
  rfl

/-- A scaffold that is not skipped is in its file. -/
theorem kindAt?_self (h : Emits policy scaffold before outcome after) (hne : outcome ≠ .skipped) :
    after.kindAt? (before.locationOf scaffold.file) = some (scaffoldKind scaffold) := by
  cases h with
  | skipped hpolicy hthere => exact absurd rfl hne
  | written hfree hputs => exact hputs.kindAt?_self
  | overwritten hpolicy hold hputs => exact hputs.kindAt?_self

end Emits

/-! ## What later jobs leave -/

namespace Settled

variable {policy : Policy} {files after : FileTree} {ways : List Location}
  {scaffolds : List Scaffold} (h : Settled policy files ways scaffolds after) {location : Location}

include h

/-- A file stays a file, if not the same one. -/
theorem exists_file {contents : ByteArray}
    (hfile : files.kindAt? location = some (.file contents)) :
    ∃ left, after.kindAt? location = some (.file left) := by
  rw [h.kindAt?_eq, hfile]
  cases policy with
  | skipExisting => exact ⟨contents, Policy.settle_skip_of_some⟩
  | overwrite =>
      cases hlast : (scaffoldsAt files scaffolds location).getLast? with
      | none => exact ⟨contents, by simp [Policy.settle, hlast]⟩
      | some last => exact ⟨last.text.toUTF8, Policy.settle_overwrite_of_getLast? hlast⟩

/-- The directories after some jobs are those that were there and those on the way. -/
theorem directory_iff : after.kindAt? location = some .directory ↔
    files.kindAt? location = some .directory ∨ location ∈ ways := by
  constructor
  · intro hafter
    rw [h.kindAt?_eq] at hafter
    rcases Policy.settle_eq_directory hafter with hbefore | ⟨-, hway⟩
    · exact .inl hbefore
    · exact .inr hway
  · rintro (hbefore | hway)
    · exact h.directory location hbefore
    · exact h.way location hway

end Settled

/-! ## The whole run -/

/-- In the place of each scaffold that a run reports something stands after it.  The scaffold was
skipped when anything stood there after the jobs before it, and what stood there stays; a directory is
there only when one was there before or is on the way. -/
theorem present_of_run {settings : Settings} {files : FileTree} {report : Report}
    (hrun : (run settings files).result = .ok report) :
    ∃ document, settings.document files = .ok document ∧
      ∀ front entry back, report.entries = front ++ entry :: back →
        ∃ done rest middle, documentJobs document = done ++ rest ∧
          settings.emitter.DoneAll document.components done files front middle ∧
            Present settings files document entry middle (run settings files).workspace.files := by
  obtain ⟨document, hdocument, hdone⟩ := doneAll_of_run hrun
  refine ⟨document, hdocument, fun front entry back hentries => ?_⟩
  have hsettled := hdone.settled_start
  rw [hentries] at hdone
  obtain ⟨done, job, rest, middle, left, hjobs, hfirst, hemits, hlater⟩ := hdone.exists_emits
  refine ⟨done, job :: rest, middle, hjobs, hfirst, ?_⟩
  have hplace : middle.locationOf entry.scaffold.file = files.locationOf entry.scaffold.file :=
    FileTree.locationOf_congr hfirst.settled_start.current_eq _
  -- what a scaffold is skipped for stays while the later jobs are done
  have hstays : entry.outcome = .skipped →
      (run settings files).workspace.files.kindAt? (files.locationOf entry.scaffold.file) =
        middle.kindAt? (files.locationOf entry.scaffold.file) := by
    intro houtcome
    obtain ⟨hpolicy, hthere⟩ := hemits.skipped_iff.mp houtcome
    rw [houtcome] at hemits
    obtain rfl := hemits.eq_of_skipped
    obtain ⟨kind, hkind⟩ := Option.ne_none_iff_exists'.mp hthere
    rw [hplace] at hkind
    rw [hkind, hlater.settled_start.kept hpolicy hkind]
  -- a module that is emitted may be overwritten later, by a module
  have hfile : entry.outcome ≠ .skipped → ∃ contents,
      (run settings files).workspace.files.kindAt? (files.locationOf entry.scaffold.file) =
        some (.file contents) := by
    intro houtcome
    have hself := hemits.kindAt?_self houtcome
    rw [hplace] at hself
    exact hlater.settled_start.exists_file hself
  refine ⟨?_, ?_, ?_, hstays, hfile⟩
  · by_cases houtcome : entry.outcome = .skipped
    · rw [hstays houtcome, ← hplace]
      exact (hemits.skipped_iff.mp houtcome).2
    · obtain ⟨contents, hcontents⟩ := hfile houtcome
      simp [hcontents]
  · rw [hsettled.directory_iff, mem_jobWay_documentJobs]
  · rw [hemits.skipped_iff, hplace]
    exact Iff.rfl

/-- The second of two modules for one file is skipped for the first one. -/
theorem present_of_run_twin : (run twinSettings twinFiles).result = .ok twinReport ∧
    ∃ document, twinSettings.document twinFiles = .ok document ∧
      ∀ front entry back, twinReport.entries = front ++ entry :: back →
        ∃ done rest middle, documentJobs document = done ++ rest ∧
          twinSettings.emitter.DoneAll document.components done twinFiles front middle ∧
            Present twinSettings twinFiles document entry middle
              (run twinSettings twinFiles).workspace.files :=
  ⟨run_twin, present_of_run run_twin⟩

/-! ## A directory in the place of a module -/

/-- The tree of a source with a directory in the place of its modules. -/
def takenTree (contents : ByteArray) : FileTree :=
  twinTree contents [("out", .dir [("a", .dir [("get.ts", .dir [])])])]

def takenFiles : FileTree := takenTree twinSource.toUTF8

def takenReport : Report where
  entries :=
    [twinSettings.emitter.entryOf {} (twinRoute "/a") .get {} .skipped,
      twinSettings.emitter.entryOf {} (twinRoute "/a/") .get {} .skipped]
  skipped := 2

theorem document_takenFiles : twinSettings.document takenFiles = .ok twinDocument := by
  -- the contents stay a variable, so that they are not evaluated
  have hfind : ∀ contents, (takenTree contents).find twinSettings.source =
      .ok (["api.json"], .file contents) := fun _ => rfl
  exact document_twinSource (hfind _)

/-- Both modules are skipped. -/
theorem yields_taken (contents : ByteArray) :
    (twinSettings.emitter.performAll {} (documentJobs twinDocument)).Yields (takenTree contents)
      takenReport.entries (takenTree contents) := by
  have hdestination : (twinSettings.emitter.perform {} .destination).Yields (takenTree contents) []
      (takenTree contents) :=
    Emitter.yields_destination [] (FileTree.makeDirectories_of_isDirectory rfl rfl) rfl
  have hmade : (takenTree contents).makeDirectories "out/a" = ⟨[], none⟩ :=
    FileTree.makeDirectories_of_isDirectory rfl rfl
  have hroute : ∀ template, template = "/a" ∨ template = "/a/" →
      (twinSettings.emitter.perform {} (.route template)).Yields (takenTree contents) []
        (takenTree contents) := fun _ hof => Emitter.yields_route [] (route_twin hof) hmade rfl
  have hskipped : ∀ template, template = "/a" ∨ template = "/a/" →
      (twinSettings.emitter.perform {} (.scaffold template .get {})).Yields (takenTree contents)
        [twinSettings.emitter.entryOf {} (twinRoute template) .get {} .skipped]
          (takenTree contents) := by
    intro template hof
    have hfile : (twinSettings.emitter.scaffoldOf {} (twinRoute template) .get {}).file =
        "out/a/get.ts" := twinRoute_file rfl {} template {}
    exact Emitter.yields_scaffold (route_twin hof)
      (Emitter.yields_emit_skipped (by rw [hfile]; rfl))
  have hpaths := Emitter.yields_cons (hroute "/a" (.inl rfl)) <|
    Emitter.yields_cons (hskipped "/a" (.inl rfl)) <|
      Emitter.yields_cons (hroute "/a/" (.inr rfl)) <|
        Emitter.yields_cons (hskipped "/a/" (.inr rfl)) (Emitter.yields_nil _)
  exact Emitter.yields_cons hdestination hpaths

theorem run_taken : (run twinSettings takenFiles).result = .ok takenReport ∧
    (run twinSettings takenFiles).workspace.files = takenFiles :=
  run_of_yields document_takenFiles (yields_taken _)

/-- A run reports that it skipped a module, and a directory is in its place before and after it. -/
theorem not_present_twin :
    ∃ report, (run twinSettings takenFiles).result = .ok report ∧ ∃ entry ∈ report.entries,
      entry.outcome = .skipped ∧
        takenFiles.kindAt? (takenFiles.locationOf entry.scaffold.file) = some .directory ∧
          (run twinSettings takenFiles).workspace.files.kindAt?
            (takenFiles.locationOf entry.scaffold.file) = some .directory := by
  obtain ⟨hresult, hfiles⟩ := run_taken
  have hfile : (twinSettings.emitter.scaffoldOf {} (twinRoute "/a") .get {}).file =
      "out/a/get.ts" := twinRoute_file rfl {} "/a" {}
  have hplace : ∀ contents, (takenTree contents).kindAt?
      ((takenTree contents).locationOf "out/a/get.ts") = some .directory := fun _ => rfl
  refine ⟨takenReport, hresult, _, List.mem_cons_self, rfl, ?_⟩
  rw [hfiles]
  have hdirectory : takenFiles.kindAt? (takenFiles.locationOf
      (twinSettings.emitter.scaffoldOf {} (twinRoute "/a") .get {}).file) = some .directory := by
    rw [hfile]
    exact hplace _
  exact ⟨hdirectory, hdirectory⟩

end RouteScaffold.Run
