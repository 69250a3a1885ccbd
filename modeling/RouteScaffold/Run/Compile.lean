import RouteScaffold.Document.Reader
import RouteScaffold.Run.Emit

/-!
# Running

A run goes through three stages.  While validating, the source is read and checked; while parsing,
its tree is read as a document; while emitting, the scaffolds are written.  The first two stages
change no file.
-/

namespace RouteScaffold.Run

open Files (FileTree)
open OpenApi (Description)

/-- Reads the text of a source. -/
def readSource (files : FileTree) (path : String) : Except Failure String :=
  match files.readText path with
  | .ok text => .ok text
  | .error .notFound => .error (.sourceNotFound path)
  | .error fault => .error (.unreadable path fault)

/-- The tree of a source and the description it holds. -/
def validate (format : Option Source.Format) (strict : Bool) (contents : String) :
    Except Failure (Json × Description) := do
  let tree ← (Source.tree format contents).mapError .malformed
  let description ← (OpenApi.describe tree).mapError .unfit
  let violations := if strict then OpenApi.violations tree description else []
  if violations.isEmpty then .ok (tree, description) else .error (.violated violations)

/-- Reads a tree as a document. -/
def readDocument (tree : Json) : Except Failure Document :=
  (Document.read tree).mapError .unreadableDocument

/-- Reads and checks the source of a run. -/
def examine (settings : Settings) (files : FileTree) : Except Failure (Json × Description) :=
  if !files.exists? settings.source then
    .error (.sourceNotFound settings.source)
  else do
    let contents ← readSource files settings.source
    validate (Source.Format.detect settings.source) settings.strict contents

/-- How a run ended. -/
structure Finished where
  stage : Stage
  result : Except Failure Report
  workspace : Workspace

/-- The end of a run that fails at a stage. -/
def Finished.failure (stage : Stage) (failure : Failure) (workspace : Workspace) : Finished :=
  ⟨.failed, .error failure, workspace.record (.failed stage failure)⟩

/-- The stage of a run before it starts. -/
def startStage : Stage := .validating

/-- Runs with some settings on a file tree. -/
def run (settings : Settings) (files : FileTree) : Finished :=
  let workspace := ({ files } : Workspace).record (.reading settings.source)
  match examine settings files with
  | .error failure => .failure .validating failure workspace
  | .ok (tree, description) =>
    let workspace := workspace.record (.valid description.title description.version)
    match readDocument tree with
    | .error failure => .failure .parsing failure workspace
    | .ok document =>
      match (settings.emitter.emitDocument document).run workspace with
      | (.error failure, workspace) => .failure .emitting failure workspace
      | (.ok report, workspace) => ⟨.completed, .ok report, workspace.record (.completed report)⟩

end RouteScaffold.Run
