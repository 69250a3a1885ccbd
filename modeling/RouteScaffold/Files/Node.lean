import RouteScaffold.Json.Basic

/-!
# Files and directories

A node is a regular file with its bytes or a directory with its entries.  A location is the list of
names on the way from a node to one below it; what stands at each location is the view through which
changes are described.
-/

namespace RouteScaffold.Files

/-- A file or a directory. -/
inductive Node where
  | file (contents : ByteArray)
  | dir (entries : List (String × Node))
  deriving Inhabited

/-- The names on the way to a node. -/
abbrev Location := List String

namespace Node

/-- An empty directory. -/
def empty : Node := dir []

def isDir : Node → Bool
  | dir _ => true
  | file _ => false

/-- The entries of a directory. -/
def entries : Node → List (String × Node)
  | dir entries => entries
  | file _ => []

/-- The node at a location. -/
def at? (node : Node) (location : Location) : Option Node :=
  match location with
  | [] => some node
  | name :: rest => (node.entries.lookup name).bind fun child => child.at? rest
termination_by structural location

/-- A node with another one put at a location whose parent is a directory in it. -/
def put (node : Node) (location : Location) (new : Node) : Node :=
  match location, node with
  | [], _ => new
  | [name], dir entries => dir (putMember name new entries)
  | name :: rest, dir entries =>
    match entries.lookup name with
    | some child => dir (putMember name (child.put rest new) entries)
    | none => dir entries
  | _ :: _, file contents => file contents
termination_by structural location

/-- A node without the one at a location. -/
def remove (node : Node) (location : Location) : Node :=
  match location, node with
  | [name], dir entries => dir (entries.filter fun entry => entry.1 ≠ name)
  | name :: rest, dir entries =>
    match entries.lookup name with
    | some child => dir (putMember name (child.remove rest) entries)
    | none => dir entries
  | _, node => node
termination_by structural location

mutual

/-- All locations below a node, with the contents of the files. -/
def descendants (here : Location) : Node → List (Location × Option ByteArray)
  | file _ => []
  | dir entries => entryDescendants here entries

/-- All locations of the entries of a directory and below them. -/
def entryDescendants (here : Location) : List (String × Node) → List (Location × Option ByteArray)
  | [] => []
  | (name, file contents) :: rest =>
    (here ++ [name], some contents) :: entryDescendants here rest
  | (name, dir entries) :: rest =>
    (here ++ [name], none) ::
      (entryDescendants (here ++ [name]) entries ++ entryDescendants here rest)

end

/-- Whether a name comes before another one by its code points. -/
def nameBefore (a b : String) : Bool :=
  List.lex a.toList b.toList fun c d => c.toNat < d.toNat

/-- Whether a location comes before another one: a directory before what it holds, and names by
their code points. -/
def locationBefore (a b : Location) : Bool := List.lex a b nameBefore

/-- All locations below a node in order. -/
def listing (node : Node) : List (Location × Option ByteArray) :=
  (node.descendants []).mergeSort fun a b => !locationBefore b.1 a.1

/-- The count of regular files below a node. -/
def fileCount (node : Node) : Nat :=
  (node.descendants []).countP fun entry => entry.2.isSome

end Node

end RouteScaffold.Files
