import RouteScaffold.Proofs.Document.Outline
import RouteScaffold.Proofs.Run.Footprint
import RouteScaffold.Proofs.Run.Unresolved
import RouteScaffold.Proofs.Synthesis.Reached

/-!
# Edits that do not matter

Two runs without strict checks end the same way and make the same changes when their sources have one
outline and their components agree on what the operations reach (`run_unaffected`).  Titles, responses,
what else stands in a path item or among the components, and the order of the components do not count.

The two file trees may differ at the sources.  So what stands where a source is must not be on the way
to the destination: a source in place of one of its directories stops the run (`blocked_affected`).
-/

namespace RouteScaffold.Run

open Document (Operation SameOutline)
open Files (FileTree Location)
open OpenApi (Description describe)
open Synthesis (AgreeFor)

/-! ## Sources and file trees -/

/-- A run without strict checks accepts the tree that its source holds, and reads a document from it. -/
structure Settings.Accepts (settings : Settings) (files : FileTree) (tree : Json)
    (document : Document) : Prop where
  loose : settings.strict = false
  holds : settings.Holds files tree
  described : ∃ description, describe tree = .ok description
  read : Document.read tree = .ok document

theorem Settings.Accepts.document_eq {settings : Settings} {files : FileTree} {tree : Json}
    {document : Document} (h : settings.Accepts files tree document) :
    settings.document files = .ok document := by
  obtain ⟨description, hdescribe⟩ := h.described
  refine document_of_holds h.holds hdescribe (fun hstrict => ?_) h.read
  rw [h.loose] at hstrict
  cases hstrict

theorem Settings.Accepts.distinct {settings : Settings} {files : FileTree} {tree : Json}
    {document : Document} (h : settings.Accepts files tree document) : tree.Distinct := by
  obtain ⟨contents, -, htree⟩ := h.holds
  exact Source.distinct_tree htree

/-- File trees that differ at most in the sources of two runs, which are not at the destination of the
first run or below. -/
structure DifferInSources (settings other : Settings) (files others : FileTree) : Prop where
  current_eq : files.current = others.current
  kindAt?_eq : ∀ location, location ≠ files.locationOf settings.source →
    location ≠ others.locationOf other.source → files.kindAt? location = others.kindAt? location
  outside : ¬ files.locationOf settings.destination <+: files.locationOf settings.source
  outsideOther : ¬ files.locationOf settings.destination <+: others.locationOf other.source

/-! ## Documents -/

section

variable {settings other : Settings} {files others : FileTree} {tree more : Json}
  {document edited : Document}

theorem documentJobs_congr
    (h : List.Forall₂ Document.SameOperations document.paths edited.paths) :
    documentJobs document = documentJobs edited := by
  rw [documentJobs, documentJobs]
  congr 1
  refine flatMap_eq_of_forall₂ h fun path other hsame => ?_
  rw [pathJobs, pathJobs, hsame.1, hsame.2]

theorem documentJobs_of_sameOutline (hfirst : settings.Accepts files tree document)
    (hsecond : other.Accepts others more edited) (houtline : SameOutline tree more) :
    documentJobs document = documentJobs edited := by
  obtain ⟨description, hdescribe⟩ := hfirst.described
  obtain ⟨_, hdescribeOther⟩ := hsecond.described
  exact documentJobs_congr (Document.paths_of_sameOutline houtline hfirst.distinct hsecond.distinct
    hdescribe hdescribeOther hfirst.read hsecond.read)

theorem sameSynthesis_of_agreeFor
    (h : ∀ operation ∈ document.operations,
      AgreeFor operation.2.2 document.components edited.components) :
    ∀ job ∈ documentJobs document,
      Emitter.SameSynthesis document.components edited.components job := by
  intro job hjob operation hoperation
  refine Synthesis.synthesize_congr (h operation ?_)
  rw [← operations_documentJobs]
  exact List.mem_flatMap.mpr ⟨job, hjob, hoperation⟩

end

/-! ## Runs -/

/-- Runs without strict checks whose sources have one outline, and components that agree on what the
operations reach, end the same way and make the same changes, on file trees that differ in the sources
only.  What is on the way to the destination must have one shape. -/
theorem run_unaffected {settings other : Settings} {files others : FileTree} {tree more : Json}
    {document edited : Document} (hemitter : other.emitter = settings.emitter)
    (hfirst : settings.Accepts files tree document) (hsecond : other.Accepts others more edited)
    (houtline : SameOutline tree more)
    (hagree : ∀ operation ∈ document.operations,
      AgreeFor operation.2.2 document.components edited.components)
    (hfiles : DifferInSources settings other files others)
    (hway : ∀ location ∈ files.visits settings.destination,
      files.shapeAt? location = others.shapeAt? location) :
    (run settings files).result = (run other others).result ∧
      (run settings files).workspace.changes = (run other others).workspace.changes ∧
      ∀ location, files.kindAt? location = others.kindAt? location →
        (run settings files).workspace.files.kindAt? location =
          (run other others).workspace.files.kindAt? location := by
  have halike : FileTree.AlikeOn (settings.emitter.Sees files) files others := by
    refine ⟨hfiles.current_eq, fun location hseen => ?_⟩
    rcases hseen with hvisited | hbelow
    · exact hway location hvisited
    · have hkind : files.kindAt? location = others.kindAt? location :=
        hfiles.kindAt?_eq location (fun heq => hfiles.outside (heq ▸ hbelow))
          fun heq => hfiles.outsideOther (heq ▸ hbelow)
      rw [FileTree.shapeAt?, FileTree.shapeAt?, hkind]
  obtain ⟨heffect, hputs⟩ := Emitter.performAllEffect_alikeOn halike rfl
    (sameSynthesis_of_agreeFor hagree)
  obtain ⟨hresult, hleft, hchanges⟩ := run_of_document hfirst.document_eq
  obtain ⟨hresultOther, hleftOther, hchangesOther⟩ := run_of_document hsecond.document_eq
  have hjobs := documentJobs_of_sameOutline hfirst hsecond houtline
  rw [hemitter, ← hjobs, ← heffect] at hresultOther hleftOther hchangesOther
  refine ⟨hresult.trans hresultOther.symm, hchanges.trans hchangesOther.symm, fun location hsame => ?_⟩
  rw [hleft, hleftOther]
  exact halike.kindAt?_applyAll hputs hsame

/-! ## An edited source

The second source has another title, and its path has no parameters of its own.  The reference of the
operation leads to such a parameter in the first source, but not to one among the components. -/

/-- A tree that holds one file. -/
def oneFile (name : String) (contents : ByteArray) : FileTree where
  root := .dir [(name, .file contents)]

/-- There is nothing else below the root. -/
theorem kindAt?_oneFile {name : String} {contents : ByteArray} {location : Location}
    (hne : location ≠ [name]) (hroot : location ≠ []) :
    (oneFile name contents).kindAt? location = none := by
  obtain ⟨first, rest, rfl⟩ := List.exists_cons_of_ne_nil hroot
  rw [FileTree.kindAt?, oneFile, Files.Node.kindAt?_cons, Files.Node.entries_dir, List.lookup_cons]
  by_cases hfirst : first = name
  · subst hfirst
    have hrest : rest ≠ [] := by
      rintro rfl
      exact hne rfl
    obtain ⟨next, more, rfl⟩ := List.exists_cons_of_ne_nil hrest
    simp [Files.Node.kindAt?_file_cons]
  · have hname : (first == name) = false := by simpa using hfirst
    simp [hname]

/-- Trees that hold one file each are the same but for these two. -/
theorem kindAt?_oneFile_congr {name other : String} {contents more : ByteArray} {location : Location}
    (hne : location ≠ [name]) (hother : location ≠ [other]) :
    (oneFile name contents).kindAt? location = (oneFile other more).kindAt? location := by
  by_cases hroot : location = []
  · subst hroot
    rfl
  · rw [kindAt?_oneFile hne hroot, kindAt?_oneFile hother hroot]

/-- A source in a tree that holds nothing else. -/
theorem holds_oneFile {settings : Settings} {source : String} {tree : Json}
    (hfind : ∀ contents, (oneFile settings.source contents).find settings.source =
      .ok ([settings.source], .file contents))
    (htree : Source.tree (Source.Format.detect settings.source) source = .ok tree) :
    settings.Holds (oneFile settings.source source.toUTF8) tree := by
  refine ⟨source, ?_, htree⟩
  rw [FileTree.readText, hfind]
  dsimp only
  rw [fromUTF8?_toUTF8]

def editedSource : String :=
  "\x7b\"openapi\":\"3.0.0\",\"info\":\x7b\"title\":\"b\",\"version\":\"\"\x7d,\"paths\":\x7b\"/a\":" ++
    "\x7b\"get\":\x7b\"parameters\":[\x7b\"$ref\":\"#/paths/~1a/parameters/0\"\x7d]," ++
      "\"responses\":\x7b\x7d\x7d\x7d\x7d\x7d"

def editedJson : Json :=
  .obj [("openapi", .str "3.0.0"), ("info", .obj [("title", .str "b"), ("version", .str "")]),
    ("paths", .obj [("/a", .obj [("get", .obj [
      ("parameters", .arr [.obj [("$ref", .str farReference)]]), ("responses", .obj [])])])])]

def editedDocument : Document where
  title := "b"
  version := ""
  paths := [("/a", { operations := [(.get, farOperation)] })]

def editedSettings : Settings := { twinSettings with source := "new.json" }

set_option maxRecDepth 4000 in
theorem tree_editedSource : Source.tree (some .json) editedSource = .ok editedJson := by
  rfl

theorem accepts_far :
    twinSettings.Accepts (oneFile "api.json" farSource.toUTF8) farJson farDocument where
  loose := rfl
  holds := holds_oneFile (fun _ => rfl) tree_farSource
  described := by
    have hcheck : OpenApi.checkDescription farJson = .ok () := by cbv
    exact ⟨_, OpenApi.describe_of_check hcheck⟩
  read := rfl

theorem accepts_edited :
    editedSettings.Accepts (oneFile "new.json" editedSource.toUTF8) editedJson editedDocument where
  loose := rfl
  holds := holds_oneFile (fun _ => rfl) tree_editedSource
  described := by
    have hcheck : OpenApi.checkDescription editedJson = .ok () := by cbv
    exact ⟨_, OpenApi.describe_of_check hcheck⟩
  read := rfl

theorem sameOutline_edited : SameOutline farJson editedJson :=
  .cons ⟨rfl, .cons ⟨rfl, rfl, rfl⟩ .nil⟩ .nil

/-- Neither document has a shared parameter that the reference leads to. -/
theorem agreeFor_edited {operation : String × OpenApi.Method × Operation}
    (h : operation ∈ farDocument.operations) :
    AgreeFor operation.2.2 farDocument.components editedDocument.components := by
  obtain rfl : operation = ("/a", .get, farOperation) := List.mem_singleton.mp h
  constructor
  · exact fun reference _ => rfl
  · exact fun reference _ => rfl
  · exact fun schema _ reference _ => rfl

theorem differInSources_edited {contents more : ByteArray} :
    DifferInSources twinSettings editedSettings (oneFile "api.json" contents)
      (oneFile "new.json" more) where
  current_eq := rfl
  kindAt?_eq := fun _ => kindAt?_oneFile_congr
  outside := show ¬ ["out"] <+: ["api.json"] by decide
  outsideOther := show ¬ ["out"] <+: ["new.json"] by decide

/-- On the way to the destination are the root and the destination. -/
theorem shapeAt?_edited {contents more : ByteArray} :
    ∀ location ∈ (oneFile "api.json" contents).visits twinSettings.destination,
      (oneFile "api.json" contents).shapeAt? location =
        (oneFile "new.json" more).shapeAt? location := by
  have hvisits : (oneFile "api.json" contents).visits twinSettings.destination = [[], ["out"]] := rfl
  rw [hvisits]
  intro location hlocation
  rw [FileTree.shapeAt?, FileTree.shapeAt?, kindAt?_oneFile_congr]
  · rintro rfl
    simp at hlocation
  · rintro rfl
    simp at hlocation

/-- The two runs end the same way, and leave the same at the destination. -/
theorem run_unaffected_edited :
    editedSettings.emitter = twinSettings.emitter ∧
      twinSettings.Accepts (oneFile "api.json" farSource.toUTF8) farJson farDocument ∧
      editedSettings.Accepts (oneFile "new.json" editedSource.toUTF8) editedJson editedDocument ∧
      SameOutline farJson editedJson ∧
      (run twinSettings (oneFile "api.json" farSource.toUTF8)).result =
        (run editedSettings (oneFile "new.json" editedSource.toUTF8)).result ∧
      (run twinSettings (oneFile "api.json" farSource.toUTF8)).workspace.files.kindAt? ["out"] =
        (run editedSettings (oneFile "new.json" editedSource.toUTF8)).workspace.files.kindAt?
          ["out"] := by
  have hemitter : editedSettings.emitter = twinSettings.emitter := rfl
  obtain ⟨hresult, -, hkinds⟩ := run_unaffected hemitter accepts_far accepts_edited
    sameOutline_edited (fun _ => agreeFor_edited) differInSources_edited shapeAt?_edited
  have hfirst : ["out"] ≠ ["api.json"] := by decide
  have hsecond : ["out"] ≠ ["new.json"] := by decide
  exact ⟨hemitter, accepts_far, accepts_edited, sameOutline_edited, hresult,
    hkinds ["out"] (kindAt?_oneFile_congr hfirst hsecond)⟩

/-! ## A source on the way to the destination

The file of the first source is where a directory on the way to the destination has to be. -/

def bareSource : String :=
  "\x7b\"openapi\":\"3.0.0\",\"info\":\x7b\"title\":\"\",\"version\":\"\"\x7d,\"paths\":\x7b\x7d\x7d"

def bareJson : Json :=
  .obj [("openapi", .str "3.0.0"), ("info", .obj [("title", .str ""), ("version", .str "")]),
    ("paths", .obj [])]

def bareDocument : Document where
  title := ""
  version := ""

/-- The settings of a run to a directory within `out`. -/
def nestedSettings (source : String) : Settings where
  source := source
  destination := "out/routes"

theorem readJson_bareSource : Source.readJson bareSource = .ok bareJson := by
  rfl

theorem accepts_bare {source : String}
    (hfind : ∀ contents, (oneFile source contents).find source = .ok ([source], .file contents))
    (htree : Source.tree (Source.Format.detect source) bareSource = Source.readJson bareSource) :
    (nestedSettings source).Accepts (oneFile source bareSource.toUTF8) bareJson bareDocument where
  loose := rfl
  holds := holds_oneFile hfind (htree.trans readJson_bareSource)
  described := by
    have hcheck : OpenApi.checkDescription bareJson = .ok () := by cbv
    exact ⟨_, OpenApi.describe_of_check hcheck⟩
  read := rfl

theorem parents_nested : Files.parents "out/routes".toList = ["out".toList, []] := by
  rfl

theorem makeDirectories_blocked (contents : ByteArray) :
    (oneFile "out" contents).makeDirectories "out/routes" = { fault := some .notDirectory } := by
  have hblocked : (oneFile "out" contents).makeDirectory (String.ofList "out/routes".toList) =
      .error .notDirectory := rfl
  rw [FileTree.makeDirectories, parents_nested, FileTree.makeWithin, hblocked]
  rfl

theorem makeDirectories_clear (contents : ByteArray) :
    (oneFile "api.json" contents).makeDirectories "out/routes" =
      { changes := [.makeDirectory ["out"], .makeDirectory ["out", "routes"]] } := by
  have hmissing : (oneFile "api.json" contents).makeDirectory (String.ofList "out/routes".toList) =
      .error .notFound := rfl
  have hparent : (oneFile "api.json" contents).makeWithin "out".toList [[]] =
      { changes := [.makeDirectory ["out"]] } := by
    have hmake : (oneFile "api.json" contents).makeDirectory (String.ofList "out".toList) =
        .ok (.makeDirectory ["out"]) := rfl
    rw [FileTree.makeWithin, hmake]
    rfl
  have hgrown : ((oneFile "api.json" contents).applyAll [.makeDirectory ["out"]]).makeDirectory
      (String.ofList "out/routes".toList) = .ok (.makeDirectory ["out", "routes"]) := rfl
  rw [FileTree.makeDirectories, parents_nested, FileTree.makeWithin, hmissing, hparent]
  dsimp only
  rw [hgrown]
  rfl

/-- What emitting the document does is making the destination. -/
theorem result_bare {source : String} {files : FileTree}
    (h : (nestedSettings source).Accepts files bareJson bareDocument) :
    (run (nestedSettings source) files).result =
      match (files.makeDirectories "out/routes").fault with
      | none => .ok {}
      | some fault => .error (.unwritable "out/routes" fault) := by
  rw [(run_of_document h.document_eq).1, show documentJobs bareDocument = [.destination] from rfl]
  have hperform : (nestedSettings source).emitter.performEffect bareDocument.components files
      .destination = (Action.makeDirectoriesEffect "out/routes" files).map fun _ => [] := rfl
  rw [Emitter.performAllEffect, hperform, Action.makeDirectoriesEffect]
  cases (files.makeDirectories "out/routes").fault <;> rfl

/-- Nothing differs but the file that the same source is in, and one of the runs fails. -/
theorem blocked_affected :
    (nestedSettings "api.json").emitter = (nestedSettings "out").emitter ∧
      (nestedSettings "out").Accepts (oneFile "out" bareSource.toUTF8) bareJson bareDocument ∧
      (nestedSettings "api.json").Accepts (oneFile "api.json" bareSource.toUTF8) bareJson
        bareDocument ∧
      SameOutline bareJson bareJson ∧ bareDocument.operations = [] ∧
      DifferInSources (nestedSettings "out") (nestedSettings "api.json")
        (oneFile "out" bareSource.toUTF8) (oneFile "api.json" bareSource.toUTF8) ∧
      (run (nestedSettings "out") (oneFile "out" bareSource.toUTF8)).result =
        .error (.unwritable "out/routes" .notDirectory) ∧
      (run (nestedSettings "api.json") (oneFile "api.json" bareSource.toUTF8)).result = .ok {} := by
  have hundetected : Source.tree (Source.Format.detect "out") bareSource =
      Source.readJson bareSource := by
    rw [show Source.Format.detect "out" = none from rfl, Source.tree, readJson_bareSource]
  have hblocked := accepts_bare (fun _ => rfl) hundetected
  have hclear : (nestedSettings "api.json").Accepts (oneFile "api.json" bareSource.toUTF8) bareJson
      bareDocument := accepts_bare (fun _ => rfl) rfl
  refine ⟨rfl, hblocked, hclear, .nil, rfl, ⟨rfl, fun location hne hother => ?_, by decide, by decide⟩,
    ?_, ?_⟩
  · exact kindAt?_oneFile_congr hne hother
  · rw [result_bare hblocked, makeDirectories_blocked]
  · rw [result_bare hclear, makeDirectories_clear]

end RouteScaffold.Run
