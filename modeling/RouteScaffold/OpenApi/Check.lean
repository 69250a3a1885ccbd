import RouteScaffold.Json.Mismatch
import RouteScaffold.OpenApi.Shape

/-!
# Checking a tree against a shape

The check goes through a tree and the table of layouts together and stops at the first mismatch.
Within a part the groups are checked in their order: for a group of keys, first what stands under
them, in the order of the document, then which of them are missing, in the order of the layout.

A part that is selected by a tag, or by the first of several keys, is taken apart before it is
checked; names within it may then also have an empty object under them.

A tag is the name of one of the parts or its place among them.  A place only counts when the part
there fits; otherwise the mismatch is that the tag is no name.
-/

namespace RouteScaffold.OpenApi

open Json (Mismatch)

/-- Whether a key belongs to a class. -/
def KeyClass.has (keys : KeyClass) (key : String) : Bool :=
  match keys, key.toList with
  | .path, c :: _ => c = '/'
  | .path, [] => false
  | .status, [a, b, c] =>
    a.isDigit && ((a ≠ '0' && b.isDigit && c.isDigit) || ("xX".contains b && "xX".contains c))
  | .status, _ => false

/-- The shape a group asks for under a key, with the presence of the key; `chosen` is the key that
selects the form of a choice. -/
def Group.shapeOf (group : Group) (chosen : Option String) (key : String) :
    Option (Presence × Shape) :=
  match group with
  | .fields wanted => (wanted.find? (·.key = key)).map fun field => (field.presence, field.shape)
  | .firstOf _ forms =>
    if chosen = some key then (forms.lookup key).map fun shape => (.required, shape) else none
  | .keys family shape => if family.has key then some (.required, shape) else none

/-- The key that selects the form of a choice: the first of the object that is one of its keys. -/
def Group.chosen (group : Group) (members : List (String × Json)) : Option String :=
  match group with
  | .firstOf _ forms =>
    (members.find? fun member => forms.any (·.1 = member.1)).map (·.1)
  | _ => none

/-- What a group misses in an object. -/
def Group.missing (group : Group) (members : List (String × Json)) : Except Mismatch Unit :=
  match group with
  | .fields wanted =>
    match wanted.find? fun field =>
        field.presence = .required && !members.any (·.1 = field.key) with
    | some field => .error (.missingField field.key)
    | none => .ok ()
  | .firstOf choice _ =>
    if (group.chosen members).isNone then .error (.noForm choice) else .ok ()
  | .keys .. => .ok ()

/-- Whether a group is read from a part that was taken apart before. -/
def Group.isApart : Group → Bool
  | .firstOf .. => true
  | _ => false

/-- The place that a tag gives instead of a name. -/
def tagPlace? : Json → Option Nat
  | .num (.int (.ofNat place)) => some place
  | _ => none

/-- The name of the part that a tag selects by its name or its place. -/
def tagName? (parts : List (String × Part)) (found : Json) : Option String :=
  match found with
  | .str name => some name
  | found => (tagPlace? found).bind fun place => parts[place]?.map (·.1)

/-- The part that a tag selects. -/
def findPart (parts : List (String × Part)) (found : Json) : Except Mismatch Part :=
  match tagName? parts found with
  | some name =>
    match parts.lookup name with
    | some part => .ok part
    | none => .error (.unknownName name (parts.map (·.1)))
  | none => .error (.kind found "variant identifier")

/-- How a part that a tree selects is to be checked. -/
structure Selection where
  groups : List Group
  /-- The tag, where it is a place and any mismatch is its. -/
  blamed : Option Json := none

/-- Tells a mismatch as one of the tag, where the tag is to blame. -/
def Selection.blame (selection : Selection) (mismatch : Mismatch) : Mismatch :=
  match selection.blamed with
  | some found => .kind found "variant identifier"
  | none => mismatch

/-- The groups of the part that a tree selects by its tag; an array selects by its first item, but
then it is none of the parts. -/
def selectPart (title tag : String) (parts : List (String × Part)) (tree : Json) :
    Except Mismatch Selection :=
  match tree with
  | .obj members =>
    match members.lookup tag with
    | none => .error (.missingField tag)
    | some found =>
      (findPart parts found).map fun part =>
        { groups :=
            match layout part with
            | .record _ groups => groups
            | .tagged .. => []
          blamed := (tagPlace? found).map fun _ => found }
  | .arr [] => .error (.missingField tag)
  | .arr (found :: _) => do
    let part ← findPart parts found
    if (tagPlace? found).isSome then .error (.kind found "variant identifier")
    match layout part with
    | .record title _ => .error (.kind tree title)
    | .tagged title .. => .error (.kind tree title)
  | found => .error (.kind found title)

/-- The groups of keys that a part asks for in a tree, and whether the part is taken apart first. -/
def groupsFor (part : Part) (tree : Json) : Except Mismatch (Bool × Selection) :=
  match layout part with
  | .record title groups =>
    match tree with
    | .obj _ => .ok (false, { groups })
    | found => .error (.kind found title)
  | .tagged title tag parts =>
    (selectPart title tag parts tree).map fun selection => (true, selection)

mutual

/-- Checks a tree against a shape; `apart` tells that it belongs to a part that was taken apart
before. -/
def check (apart : Bool) (shape : Shape) (tree : Json) : Except Mismatch Unit :=
  match shape with
  | .anything => .ok ()
  | .text => tree.readText.map fun _ => ()
  | .flag => tree.readFlag.map fun _ => ()
  | .number =>
    match tree with
    | .num _ => .ok ()
    | found => .error (.kind found "a JSON number")
  | .count =>
    match tree with
    | .num (.int value) =>
      if 0 ≤ value then .ok () else .error (.value tree "usize")
    | found => .error (.kind found "usize")
  | .name known => (tree.readName known apart).map fun _ => ()
  | .list item =>
    match tree with
    | .arr items => checkItems apart item items
    | found => .error (.kind found "a sequence")
  | .table value =>
    match tree with
    | .obj members => checkMembers apart (fun _ => some (.required, value)) members
    | found => .error (.kind found "a map")
  | .orReference target =>
    if tree.reference?.isSome then .ok () else check false target tree
  | .flagOr choice other =>
    match tree with
    | .bool _ => .ok ()
    | found =>
      match check true other found with
      | .ok _ => .ok ()
      | .error _ => .error (.noFit choice)
  | .part part => do
    let (taken, selection) ← groupsFor part tree
    match tree with
    | .obj members =>
      (selection.groups.forM fun group => do
        checkMembers (apart || taken || group.isApart) (group.shapeOf (group.chosen members)) members
        group.missing members).mapError selection.blame
    | _ => .ok ()
termination_by (sizeOf tree, sizeOf shape)

/-- Checks the items of an array. -/
def checkItems (apart : Bool) (item : Shape) (items : List Json) : Except Mismatch Unit :=
  match items with
  | [] => .ok ()
  | first :: rest => do
    check apart item first
    checkItems apart item rest
termination_by (sizeOf items, 0)

/-- Checks what stands under the selected keys of an object. -/
def checkMembers (apart : Bool) (select : String → Option (Presence × Shape))
    (members : List (String × Json)) : Except Mismatch Unit :=
  match members with
  | [] => .ok ()
  | (key, value) :: rest => do
    match select key with
    | none => .ok ()
    | some (presence, shape) =>
      match presence, value with
      | .optional, .null => .ok ()
      | _, value => check apart shape value
    checkMembers apart select rest
termination_by (sizeOf members, 0)

end

/-- Checks a whole description. -/
def checkDescription (tree : Json) : Except Mismatch Unit :=
  check false (.part .openApi) tree

end RouteScaffold.OpenApi
