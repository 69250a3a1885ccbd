import RouteScaffold.Files.Tree
import RouteScaffold.OpenApi.Strict
import RouteScaffold.Scaffold.Basic
import RouteScaffold.Source.Tree

/-!
# Runs

A run reads a source, checks it, and writes a scaffold for each of its operations below a
destination.  This module holds what a run is asked for, how it fails, what it logs and what it
reports.
-/

namespace RouteScaffold.Run

open OpenApi (Method)
open Scaffold (Style)
open Synthesis (Gap)

/-! ## Settings -/

/-- What happens to a file that is in the place of a scaffold. -/
inductive Policy where
  | skipExisting
  | overwrite
  deriving DecidableEq, Repr, Inhabited

/-- The policy of a run that is forced or not. -/
def Policy.ofForce (force : Bool) : Policy := if force then overwrite else skipExisting

/-- What a run is asked for. -/
structure Settings where
  source : String
  destination : String
  style : Style := .staticExport
  strict : Bool := false
  policy : Policy := .skipExisting
  deriving DecidableEq, Repr

/-- The stages of a run. -/
inductive Stage where
  | validating
  | parsing
  | emitting
  | completed
  | failed
  deriving DecidableEq, Repr

/-- The name of a stage. -/
def Stage.name : Stage → String
  | validating => "validating"
  | parsing => "parsing"
  | emitting => "emitting"
  | completed => "completed"
  | failed => "failed"

/-! ## Failures -/

/-- Why a run fails. -/
inductive Failure where
  /-- Nothing is there where the source should be. -/
  | sourceNotFound (path : String)
  /-- The source cannot be read. -/
  | unreadable (path : String) (fault : Files.Fault)
  /-- The source holds no tree. -/
  | malformed (fault : Source.SyntaxFault)
  /-- The tree has not the shape of a description. -/
  | unfit (mismatch : Json.Mismatch)
  /-- The description violates strict checks. -/
  | violated (violations : List OpenApi.Violation)
  /-- The tree cannot be read as a document. -/
  | unreadableDocument (mismatch : Json.Mismatch)
  /-- A route would leave the destination. -/
  | escapingPath (mapped : String)
  /-- A directory or a file cannot be written. -/
  | unwritable (path : String) (fault : Files.Fault)

/-- The classes of failures. -/
inductive Category where
  | sourceNotFound
  | filesystem
  | malformedSource
  | validation
  | parse
  | path
  deriving DecidableEq, Repr

/-- The name of a class of failures. -/
def Category.name : Category → String
  | sourceNotFound => "SourceNotFound"
  | filesystem => "FilesystemError"
  | malformedSource => "SyntaxError"
  | validation => "ValidationError"
  | parse => "ParseError"
  | path => "PathError"

namespace Failure

/-- The class of a failure. -/
def category : Failure → Category
  | sourceNotFound _ => .sourceNotFound
  | unreadable .. => .filesystem
  | malformed _ => .malformedSource
  | unfit _ => .validation
  | violated _ => .validation
  | unreadableDocument _ => .parse
  | escapingPath _ => .path
  | unwritable .. => .filesystem

/-- The words for a failure. -/
def message : Failure → String
  | sourceNotFound path => "source file does not exist: " ++ path
  | unreadable path fault => "failed to read " ++ path ++ ": " ++ fault.message
  | malformed fault => fault.message
  | unfit mismatch => mismatch.message
  | violated violations => "; ".intercalate (violations.map OpenApi.Violation.message)
  | unreadableDocument mismatch => "cannot read document: " ++ mismatch.message
  | escapingPath mapped =>
    "path template " ++ Text.quoted mapped ++ " escapes the destination directory"
  | unwritable path fault => "failed to write " ++ path ++ ": " ++ fault.message

end Failure

/-! ## Reports -/

/-- What was done for a scaffold. -/
inductive Outcome where
  | written
  | skipped
  | overwritten
  deriving DecidableEq, Repr

/-- The name of an outcome. -/
def Outcome.name : Outcome → String
  | written => "Written"
  | skipped => "Skipped"
  | overwritten => "Overwritten"

/-- A gap of an operation. -/
structure Note where
  method : Method
  template : String
  gap : Gap
  deriving DecidableEq, Repr

/-- What a run did for one operation. -/
structure Entry where
  scaffold : Scaffold
  outcome : Outcome
  notes : List Note
  deriving Repr

/-- What a run did, operation by operation, and how many scaffolds have each outcome. -/
structure Report where
  entries : List Entry := []
  written : Nat := 0
  skipped : Nat := 0
  overwritten : Nat := 0
  deriving Repr

namespace Report

/-- The scaffolds of a run. -/
def scaffolds (report : Report) : List Scaffold := report.entries.map (·.scaffold)

/-- The gaps of all operations. -/
def notes (report : Report) : List Note := report.entries.flatMap (·.notes)

/-- The counter of an outcome. -/
def count (report : Report) : Outcome → Nat
  | .written => report.written
  | .skipped => report.skipped
  | .overwritten => report.overwritten

/-- A report with a scaffold more of an outcome. -/
def increment (report : Report) : Outcome → Report
  | .written => { report with written := report.written + 1 }
  | .skipped => { report with skipped := report.skipped + 1 }
  | .overwritten => { report with overwritten := report.overwritten + 1 }

/-- A report with an entry more. -/
def record (report : Report) (entry : Entry) : Report :=
  { report.increment entry.outcome with entries := report.entries ++ [entry] }

/-- A line that sums up a run. -/
def summary (report : Report) : String :=
  toString (report.count .written) ++ " written, " ++ toString (report.count .skipped) ++
    " skipped, " ++ toString (report.count .overwritten) ++ " overwritten" ++
    if report.notes.isEmpty then "" else ", " ++ toString report.notes.length ++ " schema gaps"

end Report

/-! ## Events -/

/-- What is logged during a run. -/
inductive Event where
  | reading (source : String)
  | valid (title version : String)
  | creatingDestination (destination : String)
  | operation (method : Method) (mapped : String)
  | gap (note : Note)
  | skipping (file : String)
  | emitted (file : String) (outcome : Outcome)
  | completed (report : Report)
  | failed (stage : Stage) (failure : Failure)

/-- How much an event matters. -/
inductive Level where
  | debug
  | info
  | warn
  | error
  deriving DecidableEq, Repr

/-- The name of a level. -/
def Level.name : Level → String
  | debug => "DEBUG"
  | info => "INFO"
  | warn => "WARN"
  | error => "ERROR"

namespace Event

/-- How much an event matters. -/
def level : Event → Level
  | emitted .. => .debug
  | gap _ => .warn
  | failed .. => .error
  | _ => .info

/-- The words for an event. -/
def message : Event → String
  | reading _ => "parsing"
  | valid .. => "document is valid"
  | creatingDestination _ => "creating destination"
  | operation method mapped => method.upperName ++ " " ++ mapped
  | gap note => note.gap.message
  | skipping _ => "already exists, skipping"
  | emitted .. => "emitted scaffold"
  | completed _ => "parsing complete"
  | failed _ failure => failure.message

/-- The named values of an event. -/
def fields : Event → List (String × String)
  | reading source => [("source", source)]
  | valid title version => [("title", title), ("version", version)]
  | creatingDestination destination => [("destination", destination)]
  | operation .. => []
  | gap note => [("method", note.method.upperName), ("path", note.template)]
  | skipping file => [("file", file)]
  | emitted file outcome => [("file", file), ("outcome", outcome.name)]
  | completed report => [("report", report.summary)]
  | failed stage failure => [("stage", stage.name), ("category", failure.category.name)]

end Event

end RouteScaffold.Run
