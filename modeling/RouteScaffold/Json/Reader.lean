import RouteScaffold.Json.Lexer

/-!
# Reading JSON

The reader goes through the lexemes of a text with a stack of the arrays and objects that are still
open.  What it expects next decides which fault an unfitting lexeme is.  Nesting is limited: an
array or object inside of 127 others is refused.
-/

namespace RouteScaffold.Json

/-- An array or object that is still open.  Items are kept with the last first. -/
inductive Frame where
  | array (items : List Json)
  | object (members : List (String × Json)) (key : String)

/-- What the reader expects next. -/
inductive Expecting where
  /-- A value. -/
  | value
  /-- A first item or the end of an array. -/
  | firstItem
  /-- A first key or the end of an object. -/
  | firstKey
  /-- A key after a comma, for an object with these members. -/
  | nextKey (members : List (String × Json))
  /-- A value after a comma in an array. -/
  | nextItem
  /-- A colon after a key. -/
  | colon
  /-- A comma or the end, after the value that was just read. -/
  | afterValue (value : Json)

/-- The state of the reader: the open arrays and objects, the innermost first, and what comes
next. -/
structure Reader where
  stack : List Frame
  expecting : Expecting

/-- Arrays and objects nest at most this deep. -/
def depthLimit : Nat := 127

namespace Reader

/-- Refuses a lexeme. -/
def refuse {α : Type} (found : Located) (fault : Fault) : Except ReadError α :=
  .error ⟨fault, found.peeked⟩

/-- The state after a complete value. -/
def completed (stack : List Frame) (value : Json) : Reader := ⟨stack, .afterValue value⟩

/-- Takes a lexeme where a value is expected. -/
def takeValue (stack : List Frame) (found : Located) : Except ReadError Reader :=
  match found.lexeme with
  | .token .null => .ok (completed stack .null)
  | .token (.bool value) => .ok (completed stack (.bool value))
  | .token (.num value) => .ok (completed stack (.num value))
  | .token (.str text) => .ok (completed stack (.str text))
  | .token .openArray =>
    if stack.length < depthLimit then .ok ⟨stack, .firstItem⟩
    else refuse found .recursionLimit
  | .token .openObject =>
    if stack.length < depthLimit then .ok ⟨stack, .firstKey⟩
    else refuse found .recursionLimit
  | .broken _ error => .error error
  | _ => refuse found .expectedValue

/-- Takes a lexeme where the key of a member is expected. -/
def takeKey (members : List (String × Json)) (stack : List Frame) (found : Located) :
    Except ReadError Reader :=
  match found.lexeme with
  | .token (.str key) => .ok ⟨.object members key :: stack, .colon⟩
  | .broken '"' error => .error error
  | _ => refuse found .keyMustBeString

/-- Takes a lexeme after a complete value. -/
def takeAfter (stack : List Frame) (value : Json) (found : Located) : Except ReadError Reader :=
  match stack with
  | [] => refuse found .trailingCharacters
  | .array items :: outer =>
    match found.lexeme with
    | .token .comma => .ok ⟨.array (value :: items) :: outer, .nextItem⟩
    | .token .closeArray => .ok (completed outer (.arr (value :: items).reverse))
    | _ => refuse found .expectedListCommaOrEnd
  | .object members key :: outer =>
    match found.lexeme with
    | .token .comma => .ok ⟨outer, .nextKey (putMember key value members)⟩
    | .token .closeObject => .ok (completed outer (.obj (putMember key value members)))
    | _ => refuse found .expectedObjectCommaOrEnd

/-- Takes a lexeme. -/
def take (reader : Reader) (found : Located) : Except ReadError Reader :=
  let stack := reader.stack
  match reader.expecting with
  | .value => takeValue stack found
  | .firstItem =>
    match found.lexeme with
    | .token .closeArray => .ok (completed stack (.arr []))
    | _ => takeValue (.array [] :: stack) found
  | .nextItem =>
    match found.lexeme with
    | .token .closeArray => refuse found .trailingComma
    | _ => takeValue stack found
  | .firstKey =>
    match found.lexeme with
    | .token .closeObject => .ok (completed stack (.obj []))
    | _ => takeKey [] stack found
  | .nextKey members =>
    match found.lexeme with
    | .token .closeObject => refuse found .trailingComma
    | _ => takeKey members stack found
  | .colon =>
    match found.lexeme with
    | .token .colon => .ok ⟨stack, .value⟩
    | _ => refuse found .expectedColon
  | .afterValue value => takeAfter stack value found

/-- The tree that was read, when the text ends here. -/
def finish (reader : Reader) (place : Position) : Except ReadError Json :=
  match reader.expecting, reader.stack with
  | .afterValue value, [] => .ok value
  | .afterValue _, .array _ :: _ => .error ⟨.eofInList, place⟩
  | .afterValue _, .object _ _ :: _ => .error ⟨.eofInObject, place⟩
  | .firstItem, _ => .error ⟨.eofInList, place⟩
  | .firstKey, _ => .error ⟨.eofInObject, place⟩
  | .colon, _ => .error ⟨.eofInObject, place⟩
  | _, _ => .error ⟨.eofInValue, place⟩

/-- Goes through all lexemes. -/
def run (reader : Reader) (place : Position) : List Located → Except ReadError Json
  | [] => reader.finish place
  | found :: rest => (reader.take found).bind fun next => next.run place rest

end Reader

/-- Reads a text that holds one JSON value. -/
def parse (text : String) : Except ReadError Json :=
  let chars := text.toList
  let (found, last) := lexemes chars.length {} chars
  Reader.run ⟨[], .value⟩ last found

end RouteScaffold.Json
