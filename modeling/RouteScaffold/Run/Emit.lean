import RouteScaffold.Document.Basic
import RouteScaffold.Run.Workspace
import RouteScaffold.Scaffold.Render
import RouteScaffold.Synthesis.Operation

/-!
# Emitting scaffolds

A route is prepared by making its directory.  A scaffold is then written to its file: where something
is in its place it is skipped, unless the policy is to overwrite.
-/

namespace RouteScaffold.Run

open Document (Components Operation PathItem)
open OpenApi (Method)
open Scaffold (Route Style)

/-- What decides how scaffolds are written. -/
structure Emitter where
  destination : String
  style : Style
  policy : Policy
  deriving Repr

/-- The emitter of a run. -/
def Settings.emitter (settings : Settings) : Emitter :=
  ⟨settings.destination, settings.style, settings.policy⟩

namespace Emitter

/-- Finds the route of a template and makes its directory. -/
def prepare (emitter : Emitter) (template : String) : Action Route :=
  match Route.of? emitter.destination template with
  | none => Action.fail (.escapingPath (RouteScaffold.Route.mapTemplate template))
  | some route => do
    Action.makeDirectories route.directory
    return route

/-- Writes a scaffold that has nothing in its place. -/
def writeNew (scaffold : Scaffold) : Action Outcome := do
  match (← Action.files).writeNew scaffold.file scaffold.text.toUTF8 with
  | .ok changes =>
    Action.makeChanges changes
    return .written
  | .error .alreadyExists => return .skipped
  | .error fault => Action.fail (.unwritable scaffold.file fault)

/-- Writes a scaffold in place of what may be there. -/
def overwrite (scaffold : Scaffold) (existed : Bool) : Action Outcome := do
  match (← Action.files).write scaffold.file scaffold.text.toUTF8 with
  | .ok changes =>
    Action.makeChanges changes
    return if existed then .overwritten else .written
  | .error fault => Action.fail (.unwritable scaffold.file fault)

/-- Writes a scaffold as the policy says. -/
def emit (policy : Policy) (scaffold : Scaffold) : Action Outcome := do
  let existed := (← Action.files).exists? scaffold.file
  if existed && policy = .skipExisting then
    Action.logEvent (.skipping scaffold.file)
    return .skipped
  else
    let outcome ←
      match policy with
      | .skipExisting => writeNew scaffold
      | .overwrite => overwrite scaffold existed
    Action.logEvent (.emitted scaffold.file outcome)
    return outcome

/-- Emits the scaffold of one operation. -/
def emitOperation (emitter : Emitter) (components : Components) (route : Route)
    (method : Method) (operation : Operation) : Action Entry := do
  Action.logEvent (.operation method route.mapped)
  let found := Synthesis.synthesize components operation
  let notes := found.gaps.map fun gap => (⟨method, route.template, gap⟩ : Note)
  notes.forM fun note => Action.logEvent (.gap note)
  let scaffold := route.scaffold method emitter.style found
  let outcome ← emit emitter.policy scaffold
  return ⟨scaffold, outcome, notes⟩

/-- Emits the scaffolds of some operations of a route, and records each in a report. -/
def emitOperations (emitter : Emitter) (components : Components) (route : Route) (report : Report) :
    List (Method × Operation) → Action Report
  | [] => return report
  | (method, operation) :: rest => do
    let entry ← emitter.emitOperation components route method operation
    emitter.emitOperations components route (report.record entry) rest

/-- Emits the scaffolds of some paths, and records each in a report. -/
def emitPaths (emitter : Emitter) (components : Components) (report : Report) :
    List (String × PathItem) → Action Report
  | [] => return report
  | (template, item) :: rest => do
    let route ← emitter.prepare template
    let report ← emitter.emitOperations components route report item.operations
    emitter.emitPaths components report rest

/-- Makes the destination. -/
def makeDestination (emitter : Emitter) : Action Unit := do
  if !(← Action.files).exists? emitter.destination then
    Action.logEvent (.creatingDestination emitter.destination)
  Action.makeDirectories emitter.destination

/-- Emits the scaffolds of a document. -/
def emitDocument (emitter : Emitter) (document : Document) : Action Report := do
  emitter.makeDestination
  emitter.emitPaths document.components {} document.paths

end Emitter

end RouteScaffold.Run
