import RouteScaffold.Json.Basic
import RouteScaffold.Text.Quoted

/-!
# Why a tree does not fit

A tree that is read as a record, an enumeration and so on may not fit what is wanted there.  The
causes are shared by the check of a whole description and by the reading of its parts, and so are
the words for them.
-/

namespace RouteScaffold.Json

/-- A reason why a tree does not fit. -/
inductive Mismatch where
  /-- A tree of the wrong kind. -/
  | kind (found : Json) (expected : String)
  /-- A tree of the right kind with a wrong value. -/
  | value (found : Json) (expected : String)
  | missingField (field : String)
  | unknownName (name : String) (known : List String)
  /-- No key of an object selects one of the forms of a choice. -/
  | noForm (choice : String)
  /-- A tree fits none of the forms of a choice. -/
  | noFit (choice : String)
  /-- An array ends before a record of a size is complete. -/
  | tooShort (length : Nat) (record : String) (size : Nat)
  /-- An array goes on after a record is complete. -/
  | tooLong (length : Nat)
  /-- A mismatch in a place that the message names. -/
  | within (place : String) (cause : Mismatch)

/-- What a message calls a tree. -/
def describe : Json → String
  | null => "null"
  | bool value => "boolean `" ++ toString value ++ "`"
  | num (.int value) => "integer `" ++ String.ofList (Number.text (.int value)) ++ "`"
  | num (.real value) => "floating point `" ++ String.ofList (Number.text (.real value)) ++ "`"
  | str text => "string " ++ Text.quoted text
  | arr _ => "sequence"
  | obj _ => "map"

/-- The known names in a message. -/
def oneOf : List String → String
  | [] => "there are no variants"
  | [name] => "expected `" ++ name ++ "`"
  | [first, second] => "expected `" ++ first ++ "` or `" ++ second ++ "`"
  | names => "expected one of " ++ ", ".intercalate (names.map fun name => "`" ++ name ++ "`")

namespace Mismatch

/-- The words for a mismatch. -/
def message : Mismatch → String
  | kind found expected => "invalid type: " ++ found.describe ++ ", expected " ++ expected
  | value found expected => "invalid value: " ++ found.describe ++ ", expected " ++ expected
  | missingField field => "missing field `" ++ field ++ "`"
  | unknownName name known => "unknown variant `" ++ name ++ "`, " ++ oneOf known
  | noForm choice => "no variant of enum " ++ choice ++ " found in flattened data"
  | noFit choice => "data did not match any variant of untagged enum " ++ choice
  | tooShort length record size =>
    "invalid length " ++ toString length ++ ", expected struct " ++ record ++ " with " ++
      toString size ++ (if size = 1 then " element" else " elements")
  | tooLong length => "invalid length " ++ toString length ++ ", expected fewer elements in array"
  | within place cause => "invalid " ++ place ++ ": " ++ cause.message

end Mismatch

/-! ## Simple readings -/

/-- Reads a string. -/
def readText : Json → Except Mismatch String
  | str text => .ok text
  | found => .error (.kind found "a string")

/-- Reads a truth value. -/
def readFlag : Json → Except Mismatch Bool
  | bool value => .ok value
  | found => .error (.kind found "a boolean")

/-- Reads the items of an array. -/
def readItems : Json → Except Mismatch (List Json)
  | arr items => .ok items
  | found => .error (.kind found "a sequence")

/-- Reads the members of an object. -/
def readMembers : Json → Except Mismatch (List (String × Json))
  | obj members => .ok members
  | found => .error (.kind found "a map")

/-- Reads one of the given names.  A name may also stand as the only key of an object, with nothing
under it; where `emptyAllowed` holds that nothing may be an empty object. -/
def readName (known : List String) (emptyAllowed : Bool) : Json → Except Mismatch String
  | str name => if known.contains name then .ok name else .error (.unknownName name known)
  | obj [(name, content)] =>
    if !known.contains name then .error (.unknownName name known)
    else
      match content with
      | null => .ok name
      | obj [] => if emptyAllowed then .ok name else .error (.kind (obj []) "unit")
      | found => .error (.kind found "unit")
  | obj members => .error (.value (obj members) "map with a single key")
  | found => .error (.kind found "string or map")

/-- The text of the reference that a tree is: an object with a string under `$ref` is a reference,
whatever else it holds. -/
def reference? (tree : Json) : Option String :=
  tree.getText? "$ref"

end RouteScaffold.Json
