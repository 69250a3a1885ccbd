import Mathlib.Data.List.Nodup
import RouteScaffold.Proofs.Run.Generated

/-!
# One module for each operation

When nothing is at the destination and a run succeeds, does each operation have a module of its own?
It does exactly when the document keeps its modules apart (`oneModuleEach_iff`): no two operations of
one method are on paths that take the same names below the destination, and no module's file is where
a directory has to be.  Paths that differ only in empty pieces, in single dots or in how a variable is
written take the same names, so that of their modules only one is there in the end
(`not_oneModuleEach_twin`).
-/

namespace RouteScaffold.Run

open Document (Components Operation)
open Files (FileTree IsName below)
open OpenApi (Method)

/-- What is expected of a run into an empty place: the modules of the operations are different files,
each was written, and the destination holds these files with their texts and no other file. -/
structure OneModuleEach (settings : Settings) (files : FileTree) (document : Document)
    (report : Report) (after : FileTree) : Prop where
  nodup : (report.scaffolds.map (·.file)).Nodup
  written : report.count .written = document.operations.length
  skipped : report.count .skipped = 0
  overwritten : report.count .overwritten = 0
  holds : ∀ names contents,
    after.kindAt? (files.locationOf settings.destination ++ names) = some (.file contents) ↔
      ∃ scaffold ∈ report.scaffolds,
        files.locationOf scaffold.file = files.locationOf settings.destination ++ names ∧
          contents = scaffold.text.toUTF8

/-- A document that keeps its modules apart. -/
structure Separate (settings : Settings) (files : FileTree) (document : Document) : Prop where
  /-- No two operations have one method and the same names. -/
  nodup : (document.operations.map fun (template, method, _) =>
    (RouteScaffold.Route.segments (RouteScaffold.Route.mapTemplate template), method)).Nodup
  /-- No module is where a directory is on the way. -/
  clear : ∀ operation ∈ document.operations, ¬ settings.OnWay files document
    (files.locationOf settings.destination ++ settings.emitter.moduleNames operation)

/-! ## Names of modules -/

namespace Emitter

variable {emitter : Emitter} {components : Components}

theorem moduleNames_inj {first second : String × Method × Operation} :
    emitter.moduleNames first = emitter.moduleNames second ↔
      (RouteScaffold.Route.segments (RouteScaffold.Route.mapTemplate first.1), first.2.1) =
        (RouteScaffold.Route.segments (RouteScaffold.Route.mapTemplate second.1), second.2.1) := by
  rw [moduleNames, moduleNames, Prod.mk.injEq]
  constructor
  · intro h
    obtain ⟨hsegments, hname⟩ := List.append_inj' h rfl
    exact ⟨hsegments, Scaffold.fileName_inj.mp (List.cons.inj hname).1⟩
  · rintro ⟨hsegments, hmethod⟩
    rw [hsegments, hmethod]

/-- The scaffolds of some operations are in their files. -/
theorem files_eq {operations : List (String × Method × Operation)} {scaffolds : List Scaffold}
    (h : scaffolds.map some = operations.map (emitter.scaffold? components)) :
    scaffolds.map (·.file) =
      operations.map fun operation => below emitter.destination (emitter.moduleNames operation) := by
  induction operations generalizing scaffolds with
  | nil => rw [List.map_eq_nil_iff.mp h]; rfl
  | cons operation rest ih =>
      cases scaffolds with
      | nil => cases h
      | cons scaffold more =>
          obtain ⟨hfirst, hrest⟩ := List.cons.inj h
          rw [List.map_cons, List.map_cons, ih hrest, (file_of_scaffold? hfirst.symm).1]

/-- The files of scaffolds are different exactly when their operations have different methods or
names. -/
theorem nodup_files_iff {operations : List (String × Method × Operation)}
    {scaffolds : List Scaffold}
    (h : scaffolds.map some = operations.map (emitter.scaffold? components)) :
    (scaffolds.map (·.file)).Nodup ↔
      (operations.map fun (template, method, _) =>
        (RouteScaffold.Route.segments (RouteScaffold.Route.mapTemplate template), method)).Nodup := by
  have hnames : ∀ operation ∈ operations, ∀ name ∈ emitter.moduleNames operation, IsName name := by
    intro operation hoperation
    have hmem : emitter.scaffold? components operation ∈ scaffolds.map some := by
      rw [h]
      exact List.mem_map_of_mem hoperation
    obtain ⟨scaffold, -, hscaffold⟩ := List.mem_map.mp hmem
    exact (file_of_scaffold? hscaffold.symm).2
  rw [files_eq h, List.Nodup, List.Nodup, List.pairwise_map, List.pairwise_map]
  refine List.Pairwise.iff_of_mem fun {first second} hfirst hsecond => ?_
  rw [Ne, Files.below_inj _ (hnames first hfirst) (hnames second hsecond), moduleNames_inj]

end Emitter

/-! ## Runs into an empty place -/

section

variable {settings : Settings} {files after : FileTree} {document : Document} {entries : List Entry}
  (hdone : settings.emitter.DoneAll document.components (documentJobs document) files entries after)

include hdone

theorem scaffolds_eq_of_doneAll : (entries.map (·.scaffold)).map some =
    document.operations.map (settings.emitter.scaffold? document.components) := by
  rw [List.map_map, ← operations_documentJobs, ← hdone.scaffolds_eq]
  rfl

/-- The operation of a scaffold that is reported. -/
theorem exists_operation_of_mem {scaffold : Scaffold} (h : scaffold ∈ entries.map (·.scaffold)) :
    ∃ operation ∈ document.operations,
      settings.emitter.scaffold? document.components operation = some scaffold := by
  have hmem : some scaffold ∈ (entries.map (·.scaffold)).map some := List.mem_map_of_mem h
  rw [scaffolds_eq_of_doneAll hdone] at hmem
  exact List.mem_map.mp hmem

theorem separate_of_oneModuleEach
    (h : OneModuleEach settings files document (.ofEntries entries) after) :
    Separate settings files document := by
  have hscaffolds := scaffolds_eq_of_doneAll hdone
  have hnodup := h.nodup
  rw [Report.scaffolds_ofEntries] at hnodup
  refine ⟨(Emitter.nodup_files_iff hscaffolds).mp hnodup, fun operation hoperation hway => ?_⟩
  -- on the way there is a directory, and a module is a file
  have hdirectory := hdone.settled_start.way _ (mem_jobWay_documentJobs.mpr hway)
  have hmem : settings.emitter.scaffold? document.components operation ∈
      (entries.map (·.scaffold)).map some := by
    rw [hscaffolds]
    exact List.mem_map_of_mem hoperation
  obtain ⟨scaffold, hscaffold, hoption⟩ := List.mem_map.mp hmem
  have hfile := (h.holds _ _).mpr
    ⟨scaffold, by rwa [Report.scaffolds_ofEntries], Emitter.locationOf_of_scaffold? hoption.symm files, rfl⟩
  cases hfile.symm.trans hdirectory

/-- Scaffolds that are reported and go to one location have one file. -/
theorem file_eq_of_locationOf_eq {scaffold other : Scaffold}
    (hscaffold : scaffold ∈ entries.map (·.scaffold)) (hother : other ∈ entries.map (·.scaffold))
    (h : files.locationOf scaffold.file = files.locationOf other.file) :
    scaffold.file = other.file := by
  obtain ⟨first, -, hfirst⟩ := exists_operation_of_mem hdone hscaffold
  obtain ⟨second, -, hsecond⟩ := exists_operation_of_mem hdone hother
  exact (Emitter.locationOf_file_inj hfirst hsecond files).mp h

/-- The place of a module is not on the way in a document that keeps its modules apart. -/
theorem not_onWay_of_separate (hseparate : Separate settings files document) {scaffold : Scaffold}
    (h : scaffold ∈ entries.map (·.scaffold)) :
    ¬ settings.OnWay files document (files.locationOf scaffold.file) := by
  obtain ⟨operation, hoperation, hoption⟩ := exists_operation_of_mem hdone h
  rw [Emitter.locationOf_of_scaffold? hoption]
  exact hseparate.clear operation hoperation

/-- Below a place where nothing is there is nothing. -/
theorem kindAt?_file_free (hfree : files.kindAt? (files.locationOf settings.destination) = none)
    {scaffold : Scaffold} (h : scaffold ∈ entries.map (·.scaffold)) :
    files.kindAt? (files.locationOf scaffold.file) = none := by
  obtain ⟨operation, -, hoption⟩ := exists_operation_of_mem hdone h
  rw [Emitter.locationOf_of_scaffold? hoption]
  exact Files.Node.kindAt?_append_of_none hfree _

variable (hfree : files.kindAt? (files.locationOf settings.destination) = none)
  (hseparate : Separate settings files document)

include hfree hseparate

theorem outcome_written {entry : Entry} (h : entry ∈ entries) : entry.outcome = .written := by
  have hmem : entry.scaffold ∈ entries.map (·.scaffold) := List.mem_map_of_mem h
  have hclear := not_onWay_of_separate hdone hseparate hmem
  have hvacant := kindAt?_file_free hdone hfree hmem
  have hnodup := (Emitter.nodup_files_iff (scaffolds_eq_of_doneAll hdone)).mpr hseparate.nodup
  obtain ⟨front, back, rfl⟩ := List.append_of_mem h
  obtain ⟨done, job, rest, middle, left, hjobs, hfirst, hemits, -⟩ := hdone.exists_emits
  have hsettled := hfirst.settled_start
  have hway : files.locationOf entry.scaffold.file ∉
      done.flatMap (settings.emitter.jobWay files) := by
    intro hmade
    refine hclear (mem_jobWay_documentJobs.mp ?_)
    rw [hjobs, List.flatMap_append]
    exact List.mem_append_left _ hmade
  -- what was emitted before goes to other files
  have hnone : scaffoldsAt files (front.map (·.scaffold)) (files.locationOf entry.scaffold.file) =
      [] := by
    refine List.filter_eq_nil_iff.mpr fun other hother hsame => ?_
    have hfile := file_eq_of_locationOf_eq hdone (by simp [hother]) hmem (of_decide_eq_true hsame)
    rw [List.map_append, List.map_append, List.map_cons, List.map_cons] at hnodup
    exact (List.nodup_append.mp hnodup).2.2 _ (List.mem_map_of_mem hother) _
      (List.mem_cons_self ..) hfile
  refine hemits.eq_written ?_
  rw [FileTree.locationOf_congr hsettled.current_eq, hsettled.kindAt?_eq, hnone, hvacant,
    Policy.settle_nil, if_neg hway]
  rfl

/-- The destination holds the modules and no other file. -/
theorem kindAt?_eq_file_iff (names : List String) (contents : ByteArray) :
    after.kindAt? (files.locationOf settings.destination ++ names) = some (.file contents) ↔
      ∃ scaffold ∈ entries.map (·.scaffold),
        files.locationOf scaffold.file = files.locationOf settings.destination ++ names ∧
          contents = scaffold.text.toUTF8 := by
  have hsettled := hdone.settled_start
  constructor
  · intro hafter
    rw [hsettled.kindAt?_eq, show files.kindAt? _ = none from
      Files.Node.kindAt?_append_of_none hfree names] at hafter
    obtain ⟨scaffold, hat, hcontents⟩ := Policy.settle_none_eq_file hafter
    obtain ⟨hmem, hlocation⟩ := List.mem_filter.mp hat
    exact ⟨scaffold, hmem, of_decide_eq_true hlocation, hcontents⟩
  · rintro ⟨scaffold, hmem, hlocation, hcontents⟩
    have hnodup := (Emitter.nodup_files_iff (scaffolds_eq_of_doneAll hdone)).mpr hseparate.nodup
    have hat : scaffoldsAt files (entries.map (·.scaffold)) (files.locationOf scaffold.file) ≠ [] :=
      List.ne_nil_of_mem (List.mem_filter.mpr ⟨hmem, by simp⟩)
    -- no way leads through a module, so that what stands there is one of the scaffolds
    have hway : files.locationOf scaffold.file ∉
        (documentJobs document).flatMap (settings.emitter.jobWay files) := fun hmade =>
      not_onWay_of_separate hdone hseparate hmem (mem_jobWay_documentJobs.mp hmade)
    obtain ⟨other, hother, hsettle⟩ := settings.emitter.policy.settle_none_of_ne_nil hway hat
    obtain ⟨hmore, hsame⟩ := List.mem_filter.mp hother
    -- two scaffolds with one location have one file, and no file is there twice
    have hfile := file_eq_of_locationOf_eq hdone hmore hmem (of_decide_eq_true hsame)
    obtain rfl := List.inj_on_of_nodup_map hnodup hmore hmem hfile
    rw [← hlocation, hsettled.kindAt?_eq, kindAt?_file_free hdone hfree hmem, hsettle, hcontents,
      scaffoldKind]

theorem oneModuleEach_of_separate :
    OneModuleEach settings files document (.ofEntries entries) after := by
  have hscaffolds := scaffolds_eq_of_doneAll hdone
  have hwritten : ∀ entry ∈ entries, entry.outcome = .written := fun entry h =>
    outcome_written hdone hfree hseparate h
  have hcount := Report.count_ofEntries_of_forall hwritten
  refine ⟨?_, ?_, by simp [hcount], by simp [hcount], ?_⟩
  · rw [Report.scaffolds_ofEntries]
    exact (Emitter.nodup_files_iff hscaffolds).mpr hseparate.nodup
  · have hlength : entries.length = document.operations.length := by
      simpa using congrArg List.length hscaffolds
    rw [hcount, if_pos rfl, hlength]
  · rw [Report.scaffolds_ofEntries]
    exact kindAt?_eq_file_iff hdone hfree hseparate

end

/-- A run into an empty place gives each operation a module of its own exactly when the document keeps
its modules apart. -/
theorem oneModuleEach_iff {settings : Settings} {files : FileTree} {document : Document}
    {report : Report} (hrun : (run settings files).result = .ok report)
    (hdocument : settings.document files = .ok document)
    (hfree : files.kindAt? (files.locationOf settings.destination) = none) :
    report.scaffolds.map some =
        document.operations.map (settings.emitter.scaffold? document.components) ∧
      (OneModuleEach settings files document report (run settings files).workspace.files ↔
        Separate settings files document) := by
  obtain ⟨found, hfound, hdone⟩ := doneAll_of_run hrun
  obtain rfl : found = document := Except.ok.inj (hfound.symm.trans hdocument)
  obtain ⟨entries, rfl⟩ := exists_entries_of_run hrun
  rw [Report.entries_ofEntries] at hdone
  rw [Report.scaffolds_ofEntries]
  exact ⟨scaffolds_eq_of_doneAll hdone, separate_of_oneModuleEach hdone,
    oneModuleEach_of_separate hdone hfree⟩

theorem kindAt?_twinFiles : twinFiles.kindAt? (twinFiles.locationOf twinSettings.destination) = none := by
  have hfree : ∀ contents, (twinTree contents []).kindAt?
      ((twinTree contents []).locationOf twinSettings.destination) = none := fun _ => rfl
  exact hfree _

theorem oneModuleEach_iff_twin :
    twinReport.scaffolds.map some =
        twinDocument.operations.map (twinSettings.emitter.scaffold? twinDocument.components) ∧
      (OneModuleEach twinSettings twinFiles twinDocument twinReport
          (run twinSettings twinFiles).workspace.files ↔
        Separate twinSettings twinFiles twinDocument) :=
  oneModuleEach_iff run_twin document_twinFiles kindAt?_twinFiles

/-- Of two paths that differ in a slash at their end only one has its module: both are in one file,
which is written for the first path and skipped for the second one. -/
theorem not_oneModuleEach_twin :
    (run twinSettings twinFiles).result = .ok twinReport ∧
      twinSettings.document twinFiles = .ok twinDocument ∧
        twinFiles.kindAt? (twinFiles.locationOf twinSettings.destination) = none ∧
          ¬ OneModuleEach twinSettings twinFiles twinDocument twinReport
            (run twinSettings twinFiles).workspace.files := by
  refine ⟨run_twin, document_twinFiles, kindAt?_twinFiles, fun h => ?_⟩
  have hskipped : twinReport.count .skipped = 1 := rfl
  simp [h.skipped] at hskipped

end RouteScaffold.Run
