import RouteScaffold.Files.Node
import RouteScaffold.Files.Path

/-!
# File trees

A file tree is the node at the root together with the location of the current directory.  A path is
followed step by step: each step but the last has to lead to a directory, a step to the parent goes
up, and what the last step names may be there or not.

Calls do not change a tree by themselves.  They say which change they make, or why they make none,
and a change is applied by one function.
-/

namespace RouteScaffold.Files

/-- Why a call fails. -/
inductive Fault where
  | notFound
  | alreadyExists
  | notDirectory
  | isDirectory
  | nameTooLong
  | nulByte
  | notUtf8
  deriving DecidableEq, Repr

/-- The words for a fault. -/
def Fault.message : Fault → String
  | notFound => "No such file or directory (os error 2)"
  | alreadyExists => "File exists (os error 17)"
  | notDirectory => "Not a directory (os error 20)"
  | isDirectory => "Is a directory (os error 21)"
  | nameTooLong => "File name too long (os error 36)"
  | nulByte => "file name contained an unexpected NUL byte"
  | notUtf8 => "stream did not contain valid UTF-8"

/-- A change of a file tree. -/
inductive Change where
  | makeDirectory (location : Location)
  /-- An empty file, in place of the one that may be there. -/
  | makeFile (location : Location)
  /-- The contents of a file that is there. -/
  | fill (location : Location) (contents : ByteArray)

/-- A file tree. -/
structure FileTree where
  root : Node := .empty
  current : Location := []
  deriving Inhabited

/-- What a path names: a node, or a name that is free in a directory. -/
inductive Place where
  | node (location : Location) (node : Node)
  | vacant (directory : Location) (name : String)

/-- Whether a directory is there already. -/
def Place.isDir : Place → Bool
  | node _ found => found.isDir
  | vacant .. => false

/-- A name takes at most this many bytes. -/
def nameLimit : Nat := 255

/-- A path takes fewer bytes than this. -/
def pathLimit : Nat := 4096

namespace FileTree

/-- The node at a location. -/
def at? (tree : FileTree) (location : Location) : Option Node := tree.root.at? location

/-- A tree after a change. -/
def apply (tree : FileTree) : Change → FileTree
  | .makeDirectory location => { tree with root := tree.root.put location .empty }
  | .makeFile location => { tree with root := tree.root.put location (.file ByteArray.empty) }
  | .fill location contents => { tree with root := tree.root.put location (.file contents) }

/-- A tree after several changes. -/
def applyAll (tree : FileTree) (changes : List Change) : FileTree := changes.foldl apply tree

/-! ## Following paths -/

/-- The location at which a path starts. -/
def startOf (tree : FileTree) (path : String) : Location :=
  if isAbsolute path then [] else tree.current

/-- Follows the steps of a path from a location. -/
def walk (tree : FileTree) (location : Location) : List String → Except Fault Place
  | [] =>
    match tree.at? location with
    | some node => .ok (.node location node)
    | none => .error .notFound
  | step :: rest =>
    match tree.at? location with
    | none => .error .notFound
    | some (.file _) => .error .notDirectory
    | some (.dir entries) =>
      if step = "." then walk tree location rest
      else if step = ".." then walk tree location.dropLast rest
      else if nameLimit < step.utf8ByteSize then .error .nameTooLong
      else if (entries.lookup step).isSome then walk tree (location ++ [step]) rest
      else if rest.isEmpty then .ok (.vacant location step)
      else .error .notFound

/-- What a path names. -/
def resolve (tree : FileTree) (path : String) : Except Fault Place :=
  if path.toList.contains '\x00' then .error .nulByte
  else if path.isEmpty then .error .notFound
  else if pathLimit ≤ path.utf8ByteSize then .error .nameTooLong
  else walk tree (tree.startOf path) (steps path)

/-- The node a path names. -/
def find (tree : FileTree) (path : String) : Except Fault (Location × Node) :=
  match tree.resolve path with
  | .error fault => .error fault
  | .ok (.vacant ..) => .error .notFound
  | .ok (.node location node) =>
    if endsInSlash path && !node.isDir then .error .notDirectory else .ok (location, node)

/-- What a path names when a file is to be written there. -/
def target (tree : FileTree) (path : String) : Except Fault Place :=
  match tree.resolve path with
  | .error fault => .error fault
  | .ok place => if endsInSlash path && !place.isDir then .error .isDirectory else .ok place

/-- Whether a path names anything. -/
def exists? (tree : FileTree) (path : String) : Bool := (tree.find path).isOk

/-- Whether a path names a directory. -/
def isDirectory (tree : FileTree) (path : String) : Bool :=
  match tree.find path with
  | .ok (_, node) => node.isDir
  | .error _ => false

/-! ## Calls -/

/-- The text of a file. -/
def readText (tree : FileTree) (path : String) : Except Fault String :=
  match tree.find path with
  | .error fault => .error fault
  | .ok (_, .dir _) => .error .isDirectory
  | .ok (_, .file contents) =>
    match String.fromUTF8? contents with
    | some text => .ok text
    | none => .error .notUtf8

/-- Makes a directory whose parent is there. -/
def makeDirectory (tree : FileTree) (path : String) : Except Fault Change :=
  match tree.resolve path with
  | .error fault => .error fault
  | .ok (.node ..) => .error .alreadyExists
  | .ok (.vacant directory name) => .ok (.makeDirectory (directory ++ [name]))

/-- The outcome of a call that makes several changes: those it made, and the fault it ended with if
it failed. -/
structure Made where
  changes : List Change := []
  fault : Option Fault := none

/-- Makes a directory, after its parents if it is not there for want of them. -/
def makeWithin (tree : FileTree) (path : List Char) (parents : List (List Char)) : Made :=
  let text := String.ofList path
  if path.isEmpty then {}
  else
    match tree.makeDirectory text with
    | .ok change => { changes := [change] }
    | .error .notFound =>
      match parents with
      | [] => { fault := some .notFound }
      | parent :: outer =>
        let made := tree.makeWithin parent outer
        if made.fault.isSome then made
        else
          let grown := tree.applyAll made.changes
          match grown.makeDirectory text with
          | .ok change => { made with changes := made.changes ++ [change] }
          | .error fault =>
            if grown.isDirectory text then made else { made with fault := some fault }
    | .error fault => if tree.isDirectory text then {} else { fault := some fault }
termination_by structural parents

/-- Makes a directory and those of its parents that are missing. -/
def makeDirectories (tree : FileTree) (path : String) : Made :=
  tree.makeWithin path.toList (parents path.toList)

/-- Writes a file that is not there yet. -/
def writeNew (tree : FileTree) (path : String) (contents : ByteArray) :
    Except Fault (List Change) :=
  match tree.target path with
  | .error fault => .error fault
  | .ok (.node ..) => .error .alreadyExists
  | .ok (.vacant directory name) =>
    .ok [.makeFile (directory ++ [name]), .fill (directory ++ [name]) contents]

/-- Writes a file, in place of the one that may be there. -/
def write (tree : FileTree) (path : String) (contents : ByteArray) : Except Fault (List Change) :=
  match tree.target path with
  | .error fault => .error fault
  | .ok (.node _ (.dir _)) => .error .isDirectory
  | .ok (.node location (.file _)) => .ok [.makeFile location, .fill location contents]
  | .ok (.vacant directory name) =>
    .ok [.makeFile (directory ++ [name]), .fill (directory ++ [name]) contents]

/-- Removes what a path names. -/
def remove (tree : FileTree) (path : String) : Except Fault FileTree :=
  (tree.find path).map fun (location, _) => { tree with root := tree.root.remove location }

end FileTree

end RouteScaffold.Files
