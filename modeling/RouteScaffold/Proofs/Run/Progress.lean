import Mathlib
import RouteScaffold.Proofs.OpenApi.Fits
import RouteScaffold.Proofs.Run.Ending

/-!
# When jobs succeed

What an action does to the files depends on the files alone, not on what was logged before.
`Action.Yields` says that an action succeeds with a value whenever it starts with some files, and
which files it leaves.  For each action that touches files it is said which calls have to succeed, and
a run succeeds when its jobs do one after another (`run_of_yields`).
-/

namespace RouteScaffold.Run

open Document (Components Operation)
open Files (Change FileTree)
open OpenApi (Method)
open Scaffold (Route)

namespace Action

variable {α β : Type} {before middle after : FileTree}

/-- An action that succeeds with a value whenever it starts with some files, and the files it
leaves. -/
def Yields (action : Action α) (before : FileTree) (value : α) (after : FileTree) : Prop :=
  ∀ workspace, workspace.files = before →
    ∃ left, action.runOn workspace = (.ok value, left) ∧ left.files = after

theorem yields_pure (value : α) (files : FileTree) :
    Yields (pure value : Action α) files value files :=
  fun workspace hfiles => ⟨workspace, rfl, hfiles⟩

theorem yields_files (tree : FileTree) : files.Yields tree tree tree :=
  fun workspace hfiles => ⟨workspace, by rw [runOn_files, hfiles], hfiles⟩

theorem yields_logEvent (event : Event) (files : FileTree) : (logEvent event).Yields files () files :=
  fun workspace hfiles => ⟨workspace.record event, rfl, hfiles⟩

theorem yields_makeChanges (changes : List Change) (files : FileTree) :
    (makeChanges changes).Yields files () (files.applyAll changes) :=
  fun workspace hfiles => ⟨workspace.change changes, rfl, by rw [Workspace.files_change, hfiles]⟩

theorem Yields.bind {action : Action α} {next : α → Action β} {value : α} {result : β}
    (haction : action.Yields before value middle)
    (hnext : (next value).Yields middle result after) : (action >>= next).Yields before result after := by
  intro workspace hfiles
  obtain ⟨reached, hrun, hreached⟩ := haction workspace hfiles
  obtain ⟨left, hrest, hleft⟩ := hnext reached hreached
  exact ⟨left, runOn_bind_ok.mpr ⟨value, reached, hrun, hrest⟩, hleft⟩

theorem yields_makeDirectories {path : String} {changes : List Change}
    (h : before.makeDirectories path = ⟨changes, none⟩) :
    (makeDirectories path).Yields before () (before.applyAll changes) := by
  refine (yields_files before).bind ?_
  rw [h]
  exact (yields_makeChanges changes before).bind (yields_pure () _)

end Action

namespace Emitter

open Run.Action

variable {emitter : Emitter} {components : Components} {before after : FileTree}
  {scaffold : Scaffold}

theorem yields_emit_skipped (h : before.exists? scaffold.file = true) :
    (emit .skipExisting scaffold).Yields before .skipped before := by
  refine (yields_files before).bind ?_
  rw [h]
  exact (yields_logEvent _ before).bind (yields_pure _ before)

theorem yields_emit_written (changes : List Change)
    (hfree : before.exists? scaffold.file = false)
    (hwrite : before.writeNew scaffold.file scaffold.text.toUTF8 = .ok changes)
    (hafter : before.applyAll changes = after) :
    (emit .skipExisting scaffold).Yields before .written after := by
  subst hafter
  have hcall : (writeNew scaffold).Yields before .written (before.applyAll changes) := by
    refine (yields_files before).bind ?_
    rw [hwrite]
    exact (yields_makeChanges changes before).bind (yields_pure _ _)
  refine (yields_files before).bind ?_
  rw [hfree]
  exact hcall.bind ((yields_logEvent _ _).bind (yields_pure _ _))

theorem yields_emitOperation {route : Route} {method : Method} {operation : Operation}
    {outcome : Outcome}
    (h : (emit emitter.policy (emitter.scaffoldOf components route method operation)).Yields before
      outcome after) :
    (emitter.emitOperation components route method operation).Yields before
      (emitter.entryOf components route method operation outcome) after := by
  have hnotes : ∀ notes : List Note,
      Yields (notes.forM fun note => logEvent (.gap note)) before () before :=
    fun notes workspace hfiles => ⟨_, runOn_forM_logEvent .gap notes workspace, hfiles⟩
  exact (yields_logEvent _ before).bind ((hnotes _).bind (h.bind (yields_pure _ after)))

theorem yields_destination (changes : List Change)
    (h : before.makeDirectories emitter.destination = ⟨changes, none⟩)
    (hafter : before.applyAll changes = after) :
    (emitter.perform components .destination).Yields before [] after := by
  subst hafter
  intro workspace hfiles
  obtain ⟨started, hstarted, hrun⟩ := emitter.runOn_makeDestination workspace
  obtain ⟨left, hmade, hleft⟩ := yields_makeDirectories h started (hstarted.trans hfiles)
  exact ⟨left, runOn_bind_ok.mpr ⟨(), left, hrun.trans hmade, rfl⟩, hleft⟩

theorem yields_route {template : String} {route : Route} (changes : List Change)
    (hroute : Route.of? emitter.destination template = some route)
    (h : before.makeDirectories route.directory = ⟨changes, none⟩)
    (hafter : before.applyAll changes = after) :
    (emitter.perform components (.route template)).Yields before [] after := by
  subst hafter
  rw [perform, prepare, hroute]
  exact ((yields_makeDirectories h).bind (yields_pure route _)).bind (yields_pure [] _)

theorem yields_scaffold {template : String} {route : Route} {method : Method}
    {operation : Operation} {outcome : Outcome}
    (hroute : Route.of? emitter.destination template = some route)
    (h : (emit emitter.policy (emitter.scaffoldOf components route method operation)).Yields before
      outcome after) :
    (emitter.perform components (.scaffold template method operation)).Yields before
      [emitter.entryOf components route method operation outcome] after := by
  rw [perform, hroute]
  exact (yields_emitOperation h).bind (yields_pure _ after)

theorem yields_nil (files : FileTree) : (emitter.performAll components []).Yields files [] files :=
  yields_pure [] files

theorem yields_cons {job : Job} {rest : List Job} {middle : FileTree} {entries more : List Entry}
    (hjob : (emitter.perform components job).Yields before entries middle)
    (hrest : (emitter.performAll components rest).Yields middle more after) :
    (emitter.performAll components (job :: rest)).Yields before (entries ++ more) after :=
  hjob.bind (hrest.bind (yields_pure _ after))

end Emitter

theorem fromUTF8?_toUTF8 (text : String) : String.fromUTF8? text.toUTF8 = some text := by
  simp [String.fromUTF8?, String.fromUTF8, String.isValidUTF8]

/-- A source that can be read is examined. -/
theorem examine_of_readText {settings : Settings} {files : FileTree} {contents : String}
    (hthere : files.exists? settings.source = true)
    (hread : files.readText settings.source = .ok contents) :
    examine settings files =
      validate (Source.Format.detect settings.source) settings.strict contents := by
  rw [examine, hthere, readSource, hread]
  rfl

/-- The source of a run is a text that holds a tree. -/
def Settings.Holds (settings : Settings) (files : FileTree) (tree : Json) : Prop :=
  ∃ contents, files.readText settings.source = .ok contents ∧
    Source.tree (Source.Format.detect settings.source) contents = .ok tree

/-- A source is valid when its tree has a description, without violations where strict checks are
wanted. -/
theorem validate_of_describe {format : Option Source.Format} {strict : Bool} {contents : String}
    {tree : Json} {description : OpenApi.Description} (htree : Source.tree format contents = .ok tree)
    (hdescribe : OpenApi.describe tree = .ok description)
    (hnone : strict = true → OpenApi.violations tree description = []) :
    validate format strict contents = .ok (tree, description) := by
  cases strict with
  | false => simp [validate, htree, hdescribe, Except.mapError, bind, Except.bind]
  | true => simp [validate, htree, hdescribe, hnone rfl, Except.mapError, bind, Except.bind]

/-- The document of a source whose tree is valid. -/
theorem document_of_holds {settings : Settings} {files : FileTree} {tree : Json}
    {description : OpenApi.Description} {document : Document} (hholds : settings.Holds files tree)
    (hdescribe : OpenApi.describe tree = .ok description)
    (hnone : settings.strict = true → OpenApi.violations tree description = [])
    (hread : Document.read tree = .ok document) : settings.document files = .ok document := by
  obtain ⟨contents, htext, htree⟩ := hholds
  have hthere : files.exists? settings.source = true := by
    unfold FileTree.readText at htext
    split at htext
    · cases htext
    · cases htext
    · exact FileTree.exists?_eq_true.mpr ⟨_, ‹_›⟩
  rw [Settings.document, examine_of_readText hthere htext,
    validate_of_describe htree hdescribe hnone]
  show (Document.read tree).mapError _ = _
  rw [hread]
  rfl

/-- The document of a source that is found and valid. -/
theorem document_of_check {settings : Settings} {files : FileTree} {location : Files.Location}
    {source : String} {tree : Json} {document : Document}
    (hfind : files.find settings.source = .ok (location, .file source.toUTF8))
    (htree : Source.tree (Source.Format.detect settings.source) source = .ok tree)
    (hcheck : OpenApi.checkDescription tree = .ok ())
    (hnone : settings.strict = true →
      OpenApi.violations tree (OpenApi.Description.ofTree tree) = [])
    (hread : Document.read tree = .ok document) : settings.document files = .ok document := by
  have htext : files.readText settings.source = .ok source := by
    rw [FileTree.readText, hfind]
    dsimp only
    rw [fromUTF8?_toUTF8]
  exact document_of_holds ⟨source, htext, htree⟩ (OpenApi.describe_of_check hcheck) hnone hread

/-- A run succeeds when the jobs for its document do. -/
theorem run_of_yields {settings : Settings} {files after : FileTree} {document : Document}
    {entries : List Entry} (hdocument : settings.document files = .ok document)
    (h : (settings.emitter.performAll document.components (documentJobs document)).Yields files
      entries after) :
    (run settings files).result = .ok (.ofEntries entries) ∧ (run settings files).workspace.files = after := by
  have hemit : (settings.emitter.emitDocument document).Yields files (.ofEntries entries) after := by
    rw [Emitter.emitDocument_eq]
    exact h.bind (Action.yields_pure _ after)
  obtain ⟨title, version, hrun⟩ := run_of_document_ok hdocument
  obtain ⟨left, hleft, hfiles⟩ := hemit
    { files, log := [.reading settings.source, .valid title version] } rfl
  rw [hrun, hleft]
  exact ⟨rfl, hfiles⟩

/-! ## Two templates with one directory

Two paths that differ in a slash at their end have the same directory, so that the module of the
second one is in the place of the first one's. -/

/-- A source with two paths that differ in a slash at their end. -/
def twinSource : String :=
  "\x7b\"openapi\":\"3.0.0\",\"info\":\x7b\"title\":\"\",\"version\":\"\"\x7d,\"paths\":" ++
    "\x7b\"/a\":\x7b\"get\":\x7b\"responses\":\x7b\x7d\x7d\x7d," ++
    "\"/a/\":\x7b\"get\":\x7b\"responses\":\x7b\x7d\x7d\x7d\x7d\x7d"

def twinItem : Json := .obj [("get", .obj [("responses", .obj [])])]

/-- The tree of the source. -/
def twinJson : Json :=
  .obj [("openapi", .str "3.0.0"), ("info", .obj [("title", .str ""), ("version", .str "")]),
    ("paths", .obj [("/a", twinItem), ("/a/", twinItem)])]

def twinDocument : Document where
  title := ""
  version := ""
  paths := [("/a", { operations := [(.get, {})] }), ("/a/", { operations := [(.get, {})] })]

def twinSettings : Settings where
  source := "api.json"
  destination := "out"

/-- A tree that holds the source, and maybe something at the destination. -/
def twinTree (contents : ByteArray) (made : List (String × Files.Node)) : FileTree where
  root := .dir (("api.json", .file contents) :: made)

def twinFiles : FileTree := twinTree twinSource.toUTF8 []

/-- The route of both paths, apart from how it is written. -/
def twinRoute (template : String) : Route := ⟨template, template, "out/a"⟩

def twinReport : Report where
  entries :=
    [twinSettings.emitter.entryOf {} (twinRoute "/a") .get {} .written,
      twinSettings.emitter.entryOf {} (twinRoute "/a/") .get {} .skipped]
  written := 1
  skipped := 1

theorem find_twinFiles :
    twinFiles.find twinSettings.source = .ok (["api.json"], .file twinSource.toUTF8) := by
  -- the contents stay a variable, so that they are not evaluated
  have hfind : ∀ contents, (twinTree contents []).find twinSettings.source =
      .ok (["api.json"], .file contents) := fun _ => rfl
  exact hfind _

theorem checkDescription_twinJson : OpenApi.checkDescription twinJson = .ok () := by
  cbv

set_option maxRecDepth 2000 in
theorem tree_twinSource : Source.tree (some .json) twinSource = .ok twinJson := by
  rfl

/-- The document of the source, whatever else is there. -/
theorem document_twinSource {files : FileTree}
    (hfind : files.find twinSettings.source = .ok (["api.json"], .file twinSource.toUTF8)) :
    twinSettings.document files = .ok twinDocument := by
  have htree : Source.tree (Source.Format.detect twinSettings.source) twinSource = .ok twinJson :=
    tree_twinSource
  have hread : Document.read twinJson = .ok twinDocument := rfl
  exact document_of_check hfind htree checkDescription_twinJson (by simp [twinSettings]) hread

theorem document_twinFiles : twinSettings.document twinFiles = .ok twinDocument :=
  document_twinSource find_twinFiles

theorem route_twin {template : String} (h : template = "/a" ∨ template = "/a/") :
    Route.of? "out" template = some (twinRoute template) := by
  rcases h with rfl | rfl <;> cbv

/-- The module of an operation on the route. -/
theorem twinRoute_file {emitter : Emitter} (hstyle : emitter.style = .staticExport)
    (components : Components) (template : String) (operation : Operation) :
    (emitter.scaffoldOf components (twinRoute template) .get operation).file = "out/a/get.ts" := by
  show Files.join "out/a" (Scaffold.fileName .get emitter.style) = "out/a/get.ts"
  rw [hstyle]
  cbv

/-- The first module is written and the second one is skipped. -/
theorem yields_twin (contents : ByteArray) :
    ∃ after, (twinSettings.emitter.performAll {} (documentJobs twinDocument)).Yields
      (twinTree contents []) twinReport.entries after := by
  have hfirst : Route.of? twinSettings.emitter.destination "/a" = some (twinRoute "/a") :=
    route_twin (.inl rfl)
  have hsecond : Route.of? twinSettings.emitter.destination "/a/" = some (twinRoute "/a/") :=
    route_twin (.inr rfl)
  have hfile : ∀ template, (twinSettings.emitter.scaffoldOf {} (twinRoute template) .get {}).file =
      "out/a/get.ts" := fun template => twinRoute_file rfl {} template {}
  have hdestination : (twinSettings.emitter.perform {} .destination).Yields (twinTree contents []) []
      (twinTree contents [("out", .dir [])]) :=
    Emitter.yields_destination [.makeDirectory ["out"]]
      (FileTree.makeDirectories_of_makeDirectory (by decide) rfl) rfl
  have hroute : (twinSettings.emitter.perform {} (.route "/a")).Yields
      (twinTree contents [("out", .dir [])]) [] (twinTree contents [("out", .dir [("a", .dir [])])]) :=
    Emitter.yields_route [.makeDirectory ["out", "a"]] hfirst
      (FileTree.makeDirectories_of_makeDirectory (by decide) rfl) rfl
  -- the text of the module stays a variable
  have hemit : ∀ text, (twinSettings.emitter.scaffoldOf {} (twinRoute "/a") .get {}).text.toUTF8 =
      text → (Emitter.emit .skipExisting (twinSettings.emitter.scaffoldOf {} (twinRoute "/a") .get {})
        ).Yields (twinTree contents [("out", .dir [("a", .dir [])])]) .written
          (twinTree contents [("out", .dir [("a", .dir [("get.ts", .file text)])])]) := by
    intro text htext
    refine Emitter.yields_emit_written
      [.makeFile ["out", "a", "get.ts"], .fill ["out", "a", "get.ts"] text]
      (by rw [hfile]; rfl) ?_ rfl
    rw [hfile, htext]
    rfl
  have hagain : ∀ text, (twinSettings.emitter.perform {} (.route "/a/")).Yields
      (twinTree contents [("out", .dir [("a", .dir [("get.ts", .file text)])])]) []
      (twinTree contents [("out", .dir [("a", .dir [("get.ts", .file text)])])]) :=
    fun _ => Emitter.yields_route [] hsecond
      (FileTree.makeDirectories_of_isDirectory rfl rfl) rfl
  have hskipped : ∀ text, (twinSettings.emitter.perform {} (.scaffold "/a/" .get {})).Yields
      (twinTree contents [("out", .dir [("a", .dir [("get.ts", .file text)])])])
      [twinSettings.emitter.entryOf {} (twinRoute "/a/") .get {} .skipped]
      (twinTree contents [("out", .dir [("a", .dir [("get.ts", .file text)])])]) :=
    fun _ => Emitter.yields_scaffold hsecond (Emitter.yields_emit_skipped (by rw [hfile]; rfl))
  exact ⟨_, Emitter.yields_cons hdestination (Emitter.yields_cons hroute
    (Emitter.yields_cons (Emitter.yields_scaffold hfirst (hemit _ rfl))
      (Emitter.yields_cons (hagain _) (Emitter.yields_cons (hskipped _) (Emitter.yields_nil _)))))⟩

theorem run_twin : (run twinSettings twinFiles).result = .ok twinReport := by
  obtain ⟨after, hyields⟩ := yields_twin twinSource.toUTF8
  exact (run_of_yields document_twinFiles hyields).1

end RouteScaffold.Run
