import RouteScaffold.CommandLine.Help
import RouteScaffold.CommandLine.Invocation
import RouteScaffold.Run.Compile

/-!
# Replies

What the program answers to a command line: an exit code, what it prints, and the workspace that a
run leaves.
-/

namespace RouteScaffold.CommandLine

open Files (FileTree)
open Run (Finished Workspace)

/-- The answer to a command line. -/
structure Reply where
  code : UInt8
  /-- What goes to the standard output. -/
  output : String := ""
  /-- What goes to the standard error. -/
  complaint : String := ""
  workspace : Workspace

namespace Reply

/-- The answer to a request for help or for the version, or to a misuse. -/
def ofStop (environment : Environment) (files : FileTree) : Stop → Reply
  | .help detailed =>
    { code := 0, output := help environment detailed, workspace := { files } }
  | .version => { code := 0, output := versionLine, workspace := { files } }
  | .misuse misuse =>
    { code := 2
      complaint := "error: " ++ misuse.message ++ "\n\nFor more information, try '--help'.\n"
      workspace := { files } }

/-- The answer that tells how a run ended. -/
def ofFinished (finished : Finished) : Reply :=
  match finished.result with
  | .ok report =>
    { code := 0
      output := "Successfully generated route scaffolds: " ++ report.summary ++ "\n"
      workspace := finished.workspace }
  | .error failure =>
    { code := 1
      complaint := failure.category.name ++ ": " ++ failure.message ++ "\n"
      workspace := finished.workspace }

/-- The answer to a command line on a file tree. -/
def of (environment : Environment) (arguments : List String) (files : FileTree) : Reply :=
  match invocation environment arguments with
  | .ok settings => ofFinished (Run.run settings files)
  | .error stop => ofStop environment files stop

end Reply

end RouteScaffold.CommandLine
