import RouteScaffold.Proofs.Run.Progress

/-!
# The generated tree

What a run that succeeds leaves, for every source and every tree it starts from (`generates_of_run`).
Where no scaffold goes the files are as they were.  When files are overwritten each scaffold's file
holds the last scaffold that goes there; when they are skipped the files that were there stay, and
each new one holds the first scaffold that goes there.  The new directories are those that were
missing on the way to the destination and to the directories of the routes, of all paths of the
document, also of those without operations.
-/

namespace RouteScaffold.Run

open Document (PathItem)
open Files (FileTree Kind Location)
open Scaffold (Route)

/-! ## The way of a document -/

/-- Whether a location is one that a lexical prefix of the destination leads to, or of the directory
of a route of the document. -/
def Settings.OnWay (settings : Settings) (files : FileTree) (document : Document)
    (location : Location) : Prop :=
  location ∈ files.wayTo settings.destination ∨
    ∃ template ∈ document.paths.map (·.1), ∃ route,
      Route.of? settings.destination template = some route ∧
        location ∈ files.wayTo route.directory

theorem mem_jobWay_pathJobs {emitter : Emitter} {files : FileTree} {path : String × PathItem}
    {location : Location} :
    location ∈ (pathJobs path).flatMap (emitter.jobWay files) ↔
      ∃ route, Route.of? emitter.destination path.1 = some route ∧
        location ∈ files.wayTo route.directory := by
  rw [pathJobs, List.flatMap_cons, List.flatMap_eq_nil_iff.mpr, List.append_nil, Emitter.jobWay]
  · cases Route.of? emitter.destination path.1 with
    | none => simp
    | some route => simp
  -- only the route makes directories, the scaffolds do not
  · intro job hjob
    obtain ⟨operation, -, rfl⟩ := List.mem_map.mp hjob
    rfl

theorem mem_jobWay_documentJobs {settings : Settings} {files : FileTree} {document : Document}
    {location : Location} :
    location ∈ (documentJobs document).flatMap (settings.emitter.jobWay files) ↔
      settings.OnWay files document location := by
  rw [documentJobs, List.flatMap_cons, List.mem_append, Settings.OnWay]
  refine or_congr Iff.rfl ?_
  rw [List.flatMap_assoc, List.mem_flatMap]
  simp only [mem_jobWay_pathJobs, List.mem_map, exists_exists_and_eq_and]
  rfl

/-! ## Scaffolds that go to one file -/

/-- The scaffolds of a report that go to the file of one of them are those with the same file. -/
theorem Emitter.DoneAll.scaffoldsAt_eq {emitter : Emitter} {components : Document.Components}
    {jobs : List Job} {files after : FileTree} {entries : List Entry}
    (hdone : emitter.DoneAll components jobs files entries after) {scaffold : Scaffold}
    (h : scaffold ∈ entries.map (·.scaffold)) :
    scaffoldsAt files (entries.map (·.scaffold)) (files.locationOf scaffold.file) =
      (entries.map (·.scaffold)).filter (·.file = scaffold.file) := by
  have hoperation : ∀ other ∈ entries.map (·.scaffold), ∃ operation,
      emitter.scaffold? components operation = some other := by
    intro other hother
    obtain ⟨entry, hentry, rfl⟩ := List.mem_map.mp hother
    obtain ⟨operation, -, hscaffold⟩ := hdone.exists_operation hentry
    exact ⟨operation, hscaffold⟩
  obtain ⟨first, hfirst⟩ := hoperation scaffold h
  refine List.filter_congr fun other hother => ?_
  obtain ⟨second, hsecond⟩ := hoperation other hother
  exact decide_eq_decide.mpr (locationOf_file_inj hsecond hfirst files)

/-! ## The whole run -/

/-- What a run that succeeds makes of some files, with the document it read and the scaffolds it
reports. -/
structure Generates (settings : Settings) (files : FileTree) (document : Document)
    (scaffolds : List Scaffold) (after : FileTree) : Prop where
  /-- Where no scaffold goes the files stay as they are. -/
  elsewhere : ∀ location, (∀ scaffold ∈ scaffolds, files.locationOf scaffold.file ≠ location) →
    ∀ contents, after.kindAt? location = some (.file contents) ↔
      files.kindAt? location = some (.file contents)
  /-- When files are overwritten each holds the last scaffold that goes there. -/
  last : settings.policy = .overwrite → ∀ scaffold ∈ scaffolds, ∃ last,
    scaffolds.reverse.find? (·.file = scaffold.file) = some last ∧
      after.kindAt? (files.locationOf scaffold.file) = some (.file last.text.toUTF8)
  /-- When files are skipped those that were there stay as they are. -/
  kept : settings.policy = .skipExisting → ∀ location contents,
    files.kindAt? location = some (.file contents) →
      after.kindAt? location = some (.file contents)
  /-- When files are skipped each new one holds the first scaffold that goes there. -/
  first : settings.policy = .skipExisting → ∀ location contents,
    after.kindAt? location = some (.file contents) →
      (∀ old, files.kindAt? location ≠ some (.file old)) → ∃ scaffold ∈ scaffolds,
        files.locationOf scaffold.file = location ∧
          scaffolds.find? (·.file = scaffold.file) = some scaffold ∧
            contents = scaffold.text.toUTF8
  /-- The new directories are those that were missing on the way. -/
  directories : ∀ location,
    (after.kindAt? location = some .directory ∧ files.kindAt? location ≠ some .directory) ↔
      (files.kindAt? location = none ∧ settings.OnWay files document location)

section

variable {policy : Policy} {files after : FileTree} {ways : List Location}
  {scaffolds : List Scaffold} (h : Settled policy files ways scaffolds after)

include h

theorem Settled.elsewhere {location : Location}
    (hnone : ∀ scaffold ∈ scaffolds, files.locationOf scaffold.file ≠ location)
    (contents : ByteArray) :
    after.kindAt? location = some (.file contents) ↔
      files.kindAt? location = some (.file contents) := by
  have hempty : scaffoldsAt files scaffolds location = [] := by
    simpa [scaffoldsAt, List.filter_eq_nil_iff] using hnone
  rw [h.kindAt?_eq, hempty, Policy.settle_nil]
  cases files.kindAt? location with
  | none => by_cases hway : location ∈ ways <;> simp [hway]
  | some kind => simp

theorem Settled.kept (hpolicy : policy = .skipExisting) {location : Location} {kind : Kind}
    (hkind : files.kindAt? location = some kind) : after.kindAt? location = some kind := by
  rw [h.kindAt?_eq, hkind, hpolicy, Policy.settle_skip_of_some]

/-- New directories are made where something was missing on the way. -/
theorem Settled.directories (location : Location) :
    (after.kindAt? location = some .directory ∧ files.kindAt? location ≠ some .directory) ↔
      (files.kindAt? location = none ∧ location ∈ ways) := by
  constructor
  · rintro ⟨hafter, hbefore⟩
    rw [h.kindAt?_eq] at hafter
    exact (Policy.settle_eq_directory hafter).resolve_left hbefore
  · rintro ⟨hfree, hway⟩
    exact ⟨h.way location hway, by simp [hfree]⟩

end

/-- What all jobs for a document leave. -/
theorem generates_of_doneAll {settings : Settings} {files after : FileTree} {document : Document}
    {entries : List Entry}
    (hdone : settings.emitter.DoneAll document.components (documentJobs document) files entries
      after) :
    Generates settings files document (entries.map (·.scaffold)) after := by
  have hsettled := hdone.settled_start
  refine ⟨fun location => hsettled.elsewhere, fun hpolicy scaffold hmem => ?_,
    fun hpolicy location contents => hsettled.kept hpolicy,
    fun hpolicy location contents hafter hnew => ?_, fun location => ?_⟩
  · -- the last scaffold at the location is the last one with this file
    have hat := hdone.scaffoldsAt_eq hmem
    have hself : scaffold ∈ (entries.map (·.scaffold)).filter (·.file = scaffold.file) :=
      List.mem_filter.mpr ⟨hmem, by simp⟩
    have hlast := List.getLast?_eq_some_getLast (List.ne_nil_of_mem hself)
    refine ⟨_, List.getLast?_filter.symm.trans hlast, ?_⟩
    rw [hsettled.kindAt?_eq, hat, show settings.emitter.policy = .overwrite from hpolicy,
      Policy.settle_overwrite_of_getLast? hlast]
    rfl
  · rw [hsettled.kindAt?_eq, show settings.emitter.policy = .skipExisting from hpolicy] at hafter
    rcases Policy.settle_skip_eq_file hafter with hold | ⟨-, first, hfirst, hcontents⟩
    · exact absurd hold (hnew contents)
    · obtain ⟨hmem, hlocation⟩ := List.mem_filter.mp (List.mem_of_mem_head? hfirst)
      have hplace : files.locationOf first.file = location := of_decide_eq_true hlocation
      refine ⟨first, hmem, hplace, ?_, hcontents⟩
      rw [← hplace, hdone.scaffoldsAt_eq hmem, List.head?_filter] at hfirst
      exact hfirst
  · rw [← mem_jobWay_documentJobs]
    exact hsettled.directories location

/-- What a run leaves is determined by the files it starts from and the scaffolds it reports. -/
theorem generates_of_run {settings : Settings} {files : FileTree} {report : Report}
    (hrun : (run settings files).result = .ok report) :
    ∃ document, settings.document files = .ok document ∧
      Generates settings files document report.scaffolds (run settings files).workspace.files := by
  obtain ⟨document, hdocument, hdone⟩ := doneAll_of_run hrun
  exact ⟨document, hdocument, generates_of_doneAll hdone⟩

/-- Of two modules for one file the first one is there when files are skipped. -/
theorem generates_of_run_twin : (run twinSettings twinFiles).result = .ok twinReport ∧
    ∃ document, twinSettings.document twinFiles = .ok document ∧
      Generates twinSettings twinFiles document twinReport.scaffolds
        (run twinSettings twinFiles).workspace.files :=
  ⟨run_twin, generates_of_run run_twin⟩

end RouteScaffold.Run
