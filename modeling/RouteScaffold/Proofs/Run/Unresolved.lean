import RouteScaffold.Proofs.OpenApi.Lookup
import RouteScaffold.Proofs.Run.Progress
import RouteScaffold.Proofs.Source.Distinct

/-!
# References that do not resolve

Strict checks follow a reference as a pointer from the root of the tree, and scaffolds are made by
looking up names in the tables of the components.  So a run that passes strict checks may still report
that a reference does not resolve (`not_resolved_far`), but only one whose pointer leads somewhere in
the tree and that is not the start of its table followed by a plain name (`unresolved_of_run`).
-/

namespace RouteScaffold

open Document (Components Operation Table)
open Json (IsPlain pointerOf)
open OpenApi (Description Method references violations)

/-! ## Names that pointers find -/

theorem mem_keys_of_child? {α : Type} {read : Json → Except Json.Mismatch α} {tree child : Json}
    {table : List (String × α)} {name : String} (h : Document.readTable read tree = .ok table)
    (hchild : tree.child? name.toList = some child) : name ∈ table.map (·.1) := by
  obtain ⟨members, rfl, -⟩ := Document.forall₂_of_readTable h
  rw [Json.child?, String.ofList_toList] at hchild
  obtain ⟨value, hvalue, -⟩ := Document.lookup_of_readTable h hchild
  exact List.mem_map.mpr ⟨_, mem_of_lookup hvalue, rfl⟩

/-- A plain name that the pointer of a reference finds in a table is a name of the table. -/
theorem mem_names_of_pointer? {tree target : Json} {document : Document} (hdistinct : tree.Distinct)
    (hread : Document.read tree = .ok document) {table : Table} {name : String}
    (hplain : IsPlain name.toList)
    (hpointer : tree.pointer? (pointerOf (table.way name)) = some target) :
    name ∈ table.names document.components := by
  rw [pointer?_way tree table hplain] at hpointer
  simp only [Option.bind_eq_some_iff] at hpointer
  obtain ⟨components, hcomponents, found, hfound, hchild⟩ := hpointer
  have hcomponentsRead := Document.fills_components.read_of_get? hdistinct hread hcomponents
  have hdistinctComponents := hdistinct.get? hcomponents
  cases table with
  | schemas =>
      exact mem_keys_of_child?
        (Document.fills_schemas.read_of_get? hdistinctComponents hcomponentsRead hfound) hchild
  | parameters =>
      exact mem_keys_of_child?
        (Document.fills_sharedParameters.read_of_get? hdistinctComponents hcomponentsRead hfound) hchild
  | requestBodies =>
      exact mem_keys_of_child?
        (Document.fills_requestBodies.read_of_get? hdistinctComponents hcomponentsRead hfound) hchild

/-- Without violations the pointer of each reference leads somewhere. -/
theorem exists_target_of_violations_eq_nil {tree : Json} {description : Description}
    (hnone : violations tree description = []) {reference : String}
    (hmem : reference ∈ references tree) :
    ∃ pointer target, reference.toList = '#' :: pointer ∧ tree.pointer? pointer = some target := by
  unfold OpenApi.violations at hnone
  simp only [List.append_eq_nil_iff] at hnone
  have hreferences := List.filterMap_eq_nil_iff.mp hnone.1.1.2 reference hmem
  obtain ⟨target, htarget⟩ := OpenApi.referenceViolation_eq_none_iff.mp hreferences
  obtain ⟨pointer, hpointer, hfound⟩ := OpenApi.target?_eq_some.mp htarget
  exact ⟨pointer, target, hpointer, hfound⟩

/-- A justified gap about a tree without violations is about a reference whose pointer leads somewhere,
but that is no plain name in its table. -/
theorem unresolved_of_justified {tree : Json} {description : Description} {document : Document}
    (hdistinct : tree.Distinct) (hnone : violations tree description = [])
    (hread : Document.read tree = .ok document) {gap : Synthesis.Gap}
    (hgap : gap.Justified document.components document.mentions) {table : Table} {reference : String}
    (hunresolved : gap.unresolved? = some (table, reference)) :
    (∃ pointer target, reference.toList = '#' :: pointer ∧ tree.pointer? pointer = some target) ∧
      ∀ name, reference = table.start ++ name → ¬ IsPlain name.toList := by
  obtain ⟨hmentioned, hmissing⟩ := hgap table reference hunresolved
  obtain ⟨pointer, target, hpointer, htarget⟩ :=
    exists_target_of_violations_eq_nil hnone (Document.quotes_read _ _ hread hmentioned)
  refine ⟨⟨pointer, target, hpointer, htarget⟩, ?_⟩
  rintro name rfl hplain
  rw [start_append, List.cons.injEq] at hpointer
  obtain ⟨-, rfl⟩ := hpointer
  exact hmissing name rfl (mem_names_of_pointer? hdistinct hread hplain htarget)

namespace Run

open Files (FileTree)

/-! ## Notes of runs -/

namespace Emitter

variable {emitter : Emitter} {components : Components}

/-- The notes of an entry are the gaps of its operation. -/
theorem DoneAll.exists_notes {jobs : List Job} {before after : FileTree} {entries : List Entry}
    (h : emitter.DoneAll components jobs before entries after) {entry : Entry}
    (hentry : entry ∈ entries) :
    ∃ template method operation, (template, method, operation) ∈ jobs.flatMap Job.operations ∧
      entry.notes = (Synthesis.synthesize components operation).gaps.map fun gap =>
        ⟨method, template, gap⟩ := by
  obtain ⟨⟨template, method, operation⟩, hmem, hreport⟩ :=
    exists_of_forall₂ h.forall₂_reports hentry
  exact ⟨template, method, operation, hmem, hreport.notes_eq⟩

end Emitter

/-- The document of a run is read from the tree of its source, and strict checks find nothing there. -/
theorem exists_tree_of_document {settings : Settings} {files : FileTree} {document : Document}
    (h : settings.document files = .ok document) :
    ∃ contents tree description, files.readText settings.source = .ok contents ∧
      Source.tree (Source.Format.detect settings.source) contents = .ok tree ∧
        OpenApi.describe tree = .ok description ∧
          (settings.strict = true → violations tree description = []) ∧
            Document.read tree = .ok document := by
  unfold Settings.document at h
  obtain ⟨⟨tree, description⟩, hexamine, hread⟩ := bind_eq_ok h
  unfold examine at hexamine
  split at hexamine
  · simp at hexamine
  obtain ⟨contents, hsource, hvalidate⟩ := bind_eq_ok hexamine
  have htext : files.readText settings.source = .ok contents := by
    unfold readSource at hsource
    split at hsource
    · rename_i text htext
      rw [htext, Except.ok.inj hsource]
    · simp at hsource
    · simp at hsource
  unfold validate at hvalidate
  obtain ⟨found, htree, hvalidate⟩ := bind_eq_ok hvalidate
  obtain ⟨described, hdescribe, hvalidate⟩ := bind_eq_ok hvalidate
  dsimp only at hvalidate
  -- the check of the document stops the run where it finds something
  by_cases hempty :
      (if settings.strict = true then violations found described else []).isEmpty = true
  · rw [if_pos hempty, Except.ok.injEq, Prod.mk.injEq] at hvalidate
    obtain ⟨rfl, rfl⟩ := hvalidate
    refine ⟨contents, found, described, htext, mapError_eq_ok htree, mapError_eq_ok hdescribe, ?_,
      mapError_eq_ok hread⟩
    intro hstrict
    rw [if_pos hstrict] at hempty
    exact List.isEmpty_iff.mp hempty
  · rw [if_neg hempty] at hvalidate
    simp at hvalidate

theorem operation_mentions_subset {document : Document} {template : String} {method : Method}
    {operation : Operation} (h : (template, method, operation) ∈ document.operations) :
    operation.mentions ++ document.components.mentions ⊆ document.mentions := by
  obtain ⟨path, hpath, hmem⟩ := List.mem_flatMap.mp h
  obtain ⟨entry, hentry, heq⟩ := List.mem_map.mp hmem
  have hoperation : entry.2 = operation := congrArg (fun triple => triple.2.2) heq
  refine List.append_subset.mpr ⟨fun text htext => ?_, List.subset_append_right _ _⟩
  refine List.mem_append_left _ (List.mem_flatMap.mpr ⟨path, hpath, ?_⟩)
  exact List.mem_flatMap.mpr ⟨entry, hentry, hoperation ▸ htext⟩

/-- When a run passes strict checks, a reference that it reports not to resolve leads as a pointer
somewhere in the tree of the source, and is not the start of its table followed by a plain name. -/
theorem unresolved_of_run {settings : Settings} {files : FileTree} {report : Report}
    (hstrict : settings.strict = true) (hrun : (run settings files).result = .ok report) :
    ∃ contents tree, files.readText settings.source = .ok contents ∧
      Source.tree (Source.Format.detect settings.source) contents = .ok tree ∧
        ∀ note ∈ report.notes, ∀ table reference,
          note.gap.unresolved? = some (table, reference) →
            (∃ pointer target, reference.toList = '#' :: pointer ∧
              tree.pointer? pointer = some target) ∧
              ∀ name, reference = table.start ++ name → ¬ IsPlain name.toList := by
  obtain ⟨document, hdocument, hdone⟩ := doneAll_of_run hrun
  obtain ⟨contents, tree, description, htext, htree, -, hviolations, hread⟩ :=
    exists_tree_of_document hdocument
  refine ⟨contents, tree, htext, htree, ?_⟩
  intro note hnote table reference hunresolved
  obtain ⟨entry, hentry, hmem⟩ := List.mem_flatMap.mp hnote
  obtain ⟨template, method, operation, hoperation, hnotes⟩ := hdone.exists_notes hentry
  rw [operations_documentJobs] at hoperation
  rw [hnotes] at hmem
  obtain ⟨gap, hgap, rfl⟩ := List.mem_map.mp hmem
  have hjustified := (Synthesis.justified_synthesize hgap).mono (operation_mentions_subset hoperation)
  exact unresolved_of_justified (Source.distinct_tree htree) (hviolations hstrict) hread hjustified
    hunresolved

/-! ## A parameter that is not among the components

An operation refers to a parameter of its path by the pointer to it.  Everything that the run would
make is there already. -/

/-- The reference from an operation to a parameter of its path. -/
def farReference : String := "#/paths/~1a/parameters/0"

/-- A source with this reference. -/
def farSource : String :=
  "\x7b\"openapi\":\"3.0.0\",\"info\":\x7b\"title\":\"\",\"version\":\"\"\x7d,\"paths\":\x7b\"/a\":" ++
    "\x7b\"parameters\":[\x7b\"name\":\"q\",\"in\":\"query\",\"schema\":\x7b\x7d\x7d]," ++
      "\"get\":\x7b\"parameters\":[\x7b\"$ref\":\"#/paths/~1a/parameters/0\"\x7d]," ++
        "\"responses\":\x7b\x7d\x7d\x7d\x7d\x7d"

def farItem : Json :=
  .obj [("parameters", .arr [.obj [("name", .str "q"), ("in", .str "query"), ("schema", .obj [])]]),
    ("get", .obj [("parameters", .arr [.obj [("$ref", .str farReference)]]), ("responses", .obj [])])]

/-- The tree of the source. -/
def farJson : Json :=
  .obj [("openapi", .str "3.0.0"), ("info", .obj [("title", .str ""), ("version", .str "")]),
    ("paths", .obj [("/a", farItem)])]

def farOperation : Operation where
  parameters := some [.reference farReference]

def farDocument : Document where
  title := ""
  version := ""
  paths := [("/a", {
    operations := [(.get, farOperation)]
    parameters := [.item { name := "q", location := .query, schema := some (.obj []) }] })]

def farSettings : Settings where
  source := "api.json"
  destination := "out"
  strict := true

/-- A tree with the source and a module of the operation. -/
def farTree (contents module : ByteArray) : FileTree :=
  twinTree contents [("out", .dir [("a", .dir [("get.ts", .file module)])])]

def farFiles : FileTree := farTree farSource.toUTF8 ByteArray.empty

def farReport : Report where
  entries := [farSettings.emitter.entryOf {} (twinRoute "/a") .get farOperation .skipped]
  skipped := 1

set_option maxRecDepth 4000 in
theorem tree_farSource : Source.tree (some .json) farSource = .ok farJson := by
  rfl

theorem violations_farJson : violations farJson (Description.ofTree farJson) = [] := by
  have hversion : OpenApi.isSupported (Description.ofTree farJson).openapi = true := by rfl
  have hreferences : references farJson = [farReference] := by cbv
  have hreference : OpenApi.referenceViolation farJson farReference = none := by rfl
  have hpaths : (Description.ofTree farJson).paths.flatMap
      (Description.ofTree farJson).pathViolations = [] := by cbv
  have hids : (Description.ofTree farJson).operationIds = [] := by cbv
  rw [OpenApi.violations, if_pos hversion, hreferences, List.filterMap_cons_none hreference, hpaths,
    hids]
  simp [OpenApi.repeated]

theorem find_farFiles :
    farFiles.find farSettings.source = .ok (["api.json"], .file farSource.toUTF8) := by
  -- the contents stay variables, so that they are not evaluated
  have hfind : ∀ contents module, (farTree contents module).find farSettings.source =
      .ok (["api.json"], .file contents) := fun _ _ => rfl
  exact hfind _ _

theorem readText_farFiles : farFiles.readText farSettings.source = .ok farSource := by
  rw [FileTree.readText, find_farFiles]
  dsimp only
  rw [fromUTF8?_toUTF8]

theorem document_farFiles : farSettings.document farFiles = .ok farDocument := by
  have htree : Source.tree (Source.Format.detect farSettings.source) farSource = .ok farJson :=
    tree_farSource
  have hcheck : OpenApi.checkDescription farJson = .ok () := by cbv
  have hread : Document.read farJson = .ok farDocument := rfl
  exact document_of_check find_farFiles htree hcheck (fun _ => violations_farJson) hread

theorem yields_far (contents module : ByteArray) :
    (farSettings.emitter.performAll {} (documentJobs farDocument)).Yields (farTree contents module)
      farReport.entries (farTree contents module) := by
  have hroute : Scaffold.Route.of? farSettings.emitter.destination "/a" = some (twinRoute "/a") :=
    route_twin (.inl rfl)
  have hfile : (farSettings.emitter.scaffoldOf {} (twinRoute "/a") .get farOperation).file =
      "out/a/get.ts" := twinRoute_file rfl {} "/a" farOperation
  have hdestination : (farSettings.emitter.perform {} .destination).Yields (farTree contents module) []
      (farTree contents module) :=
    Emitter.yields_destination [] (FileTree.makeDirectories_of_isDirectory rfl rfl) rfl
  have hprepared : (farSettings.emitter.perform {} (.route "/a")).Yields (farTree contents module) []
      (farTree contents module) :=
    Emitter.yields_route [] hroute (FileTree.makeDirectories_of_isDirectory rfl rfl) rfl
  have hskipped : (farSettings.emitter.perform {} (.scaffold "/a" .get farOperation)).Yields
      (farTree contents module)
      [farSettings.emitter.entryOf {} (twinRoute "/a") .get farOperation .skipped]
      (farTree contents module) :=
    Emitter.yields_scaffold hroute (Emitter.yields_emit_skipped (by rw [hfile]; rfl))
  exact Emitter.yields_cons hdestination (Emitter.yields_cons hprepared
    (Emitter.yields_cons hskipped (Emitter.yields_nil _)))

theorem run_far : (run farSettings farFiles).result = .ok farReport :=
  (run_of_yields document_farFiles (yields_far _ _)).1

/-- The pointer leads to the parameter of the path. -/
theorem unresolved_of_run_far :
    farSettings.strict = true ∧ (run farSettings farFiles).result = .ok farReport ∧
      (∃ pointer target, farReference.toList = '#' :: pointer ∧
        farJson.pointer? pointer = some target) ∧
        ∀ name, farReference = Table.parameters.start ++ name → ¬ IsPlain name.toList := by
  obtain ⟨contents, tree, htext, htree, hnotes⟩ := unresolved_of_run rfl run_far
  obtain rfl : farSource = contents := Except.ok.inj (readText_farFiles.symm.trans htext)
  obtain rfl : farJson = tree := Except.ok.inj (tree_farSource.symm.trans htree)
  exact ⟨rfl, run_far, hnotes ⟨.get, "/a", .unresolvedParameter farReference⟩ List.mem_cons_self
    .parameters farReference rfl⟩

/-- A run that passes strict checks reports that a parameter does not resolve. -/
theorem not_resolved_far :
    farSettings.strict = true ∧ (run farSettings farFiles).result = .ok farReport ∧
      ∃ note ∈ farReport.notes, note.gap = .unresolvedParameter farReference :=
  ⟨rfl, run_far, ⟨.get, "/a", .unresolvedParameter farReference⟩, List.mem_cons_self, rfl⟩

end Run

end RouteScaffold
