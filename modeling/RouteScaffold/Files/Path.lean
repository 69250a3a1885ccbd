import RouteScaffold.Text.Pieces

/-!
# Paths as texts

A path is kept as the text it was given as; what it names is decided where it is used.  This module
holds what can be said of the text alone: its components, the paths of its parents, and the name and
the extension of the file it ends in.

Empty pieces are no components, and a single dot is one only at the start of a relative path.
-/

namespace RouteScaffold.Files

/-- A step of a path. -/
inductive Component where
  /-- The root, at the start of an absolute path. -/
  | root
  /-- The current directory, at the start of a relative path. -/
  | current
  /-- The parent directory. -/
  | parent
  | name (segment : List Char)
  deriving DecidableEq, Repr

/-- The segment that is written for a step to the parent directory. -/
def parentSegment : List Char := ['.', '.']

/-- Whether a piece of a path is more than nothing or a single dot. -/
def isStep (piece : List Char) : Bool := !piece.isEmpty && piece != ['.']

/-- The component that a piece is. -/
def Component.ofPiece (piece : List Char) : Component :=
  if piece = parentSegment then parent else name piece

/-- The component a path starts with when it is absolute or starts with a single dot. -/
def start (path : List Char) : List Component :=
  match Text.slashPieces path with
  | [] :: _ :: _ => [.root]
  | ['.'] :: _ => [.current]
  | _ => []

/-- The components of a path. -/
def components (path : List Char) : List Component :=
  start path ++ ((Text.slashPieces path).filter isStep).map .ofPiece

/-- A path with a segment after it.  A slash goes between them unless the path is empty or ends in
one. -/
def push (path segment : List Char) : List Char :=
  match path.getLast? with
  | none => segment
  | some '/' => path ++ segment
  | some _ => path ++ '/' :: segment

/-- A path with a segment after it. -/
def join (path segment : String) : String :=
  String.ofList (push path.toList segment.toList)

/-- A path with a component after it. -/
def pushComponent (path : List Char) : Component → List Char
  | .root => ['/']
  | .current => push path ['.']
  | .parent => push path parentSegment
  | .name segment => push path segment

/-- The path of some components. -/
def ofComponents (found : List Component) : List Char :=
  found.foldl pushComponent []

/-- The paths of the parents, the nearest first. -/
def parents (path : List Char) : List (List Char) :=
  let found := components path
  (List.range found.length).reverse.map fun count => ofComponents (found.take count)

/-- The steps of a path: its pieces that are not empty. -/
def steps (path : String) : List String :=
  ((Text.slashPieces path.toList).filter (!·.isEmpty)).map String.ofList

/-- Whether a path starts at the root. -/
def isAbsolute (path : String) : Bool := path.toList.head? = some '/'

/-- Whether a path ends in a slash; such a path names a directory only. -/
def endsInSlash (path : String) : Bool := path.toList.getLast? = some '/'

/-- The name of the file a path ends in. -/
def fileName? (path : List Char) : Option (List Char) :=
  match (components path).getLast? with
  | some (.name segment) => some segment
  | _ => none

/-- The extension of the file a path ends in: what follows the last dot of its name, when something
stands in front of that dot. -/
def extension? (path : List Char) : Option (List Char) := do
  let reversed := (← fileName? path).reverse
  match reversed.dropWhile (· ≠ '.') with
  | _ :: before => if before.isEmpty then none else some (reversed.takeWhile (· ≠ '.')).reverse
  | [] => none

end RouteScaffold.Files
