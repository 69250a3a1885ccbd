import RouteScaffold.CommandLine.Reply

/-!
# The program

What a run may touch is copied from the machine's files into a file tree; the reply is worked out on
that tree, and the changes it makes are then made to the machine's files in the same order.
-/

namespace RouteScaffold

open CommandLine (Environment Reply Setting)
open Files (Change FileTree Location Node)

/-! ## The files of the machine -/

/-- A location as an absolute path. -/
def absolutePath (location : Location) : String := "/" ++ "/".intercalate location

/-- The location that a path names from a location, followed step by step. -/
def locate (current : Location) (path : String) : Location :=
  let steps := (path.splitOn "/").filter fun step => !step.isEmpty && step != "."
  let start := if path.startsWith "/" then [] else current
  steps.foldl (fun location step => if step = ".." then location.dropLast else location ++ [step])
    start

/-- The node at a location, if one is there, with the text of a file but nothing that a directory
holds. -/
def readNode (location : Location) : IO (Option Node) := do
  try
    let place ← IO.FS.realPath (absolutePath location)
    if ← place.isDir then
      return some .empty
    return some (.file (← IO.FS.readBinFile place))
  catch _ =>
    return none

/-- The node at a location, if one is there, with all that a directory holds but no text of a file. -/
partial def readOutline (location : Location) : IO (Option Node) := do
  try
    let place ← IO.FS.realPath (absolutePath location)
    if !(← place.isDir) then
      return some (.file ByteArray.empty)
    let mut entries : List (String × Node) := []
    for entry in ← place.readDir do
      if let some node ← readOutline (location ++ [entry.fileName]) then
        entries := (entry.fileName, node) :: entries
    return some (.dir entries)
  catch _ =>
    return none

/-- A tree with a node put at a location, if there is one. -/
def withNode (tree : FileTree) (location : Location) : Option Node → FileTree
  | some node => { tree with root := tree.root.put location node }
  | none => tree

/-- A tree with the directories that lead to a location. -/
def copyWay (tree : FileTree) (location : Location) : IO FileTree :=
  (List.range location.length).foldlM
    (fun tree count => do
      let outer := location.take count
      if (tree.at? outer).isSome then return tree
      return withNode tree outer (← readNode outer))
    tree

/-- A tree with all that a run may touch. -/
def survey (settings : Run.Settings) : IO FileTree := do
  let current := locate [] (← IO.currentDir).toString
  let source := locate current settings.source
  let destination := locate current settings.destination
  let tree ← copyWay { current } (current ++ ["."])
  let tree ← copyWay tree destination
  let tree := withNode tree destination (← readOutline destination)
  let tree ← copyWay tree source
  if (tree.at? source).any Node.isDir then
    return tree
  return withNode tree source (← readNode source)

/-- Makes a change to the machine's files. -/
def perform : Change → IO Unit
  | .makeDirectory location => IO.FS.createDir (absolutePath location)
  | .makeFile location => IO.FS.writeBinFile (absolutePath location) ByteArray.empty
  | .fill location contents => IO.FS.writeBinFile (absolutePath location) contents

/-! ## The command line -/

/-- What the environment says about the settings. -/
def readEnvironment : IO Environment := do
  let source ← IO.getEnv Setting.source.variableName
  let destination ← IO.getEnv Setting.destination.variableName
  let style ← IO.getEnv Setting.style.variableName
  return fun
    | .source => source
    | .destination => destination
    | .style => style

/-- The line of an event. -/
def eventLine (event : Run.Event) : String :=
  event.level.name ++ " " ++ event.message ++
    String.join (event.fields.map fun (name, value) => " " ++ name ++ "=" ++ value)

end RouteScaffold

open RouteScaffold in
/-- Follows a command line. -/
def main (arguments : List String) : IO UInt32 := do
  let environment ← readEnvironment
  let files ←
    match CommandLine.invocation environment arguments with
    | .ok settings => survey settings
    | .error _ => pure {}
  let reply := CommandLine.Reply.of environment arguments files
  for change in reply.workspace.changes do
    perform change
  for event in reply.workspace.log do
    if event.level != .debug then
      IO.eprintln (eventLine event)
  IO.print reply.output
  IO.eprint reply.complaint
  return reply.code.toUInt32
