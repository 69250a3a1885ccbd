import RouteScaffold.Json.Basic

/-!
# JSON tokens

The tokens of JSON text, the token sequence of a tree, and the written form of a token.
-/

namespace RouteScaffold.Json

/-- A token of JSON text. -/
inductive Token where
  | openArray
  | closeArray
  | openObject
  | closeObject
  | comma
  | colon
  | null
  | bool (value : Bool)
  | num (value : Number)
  | str (text : String)
  deriving DecidableEq, Repr

/-- The characters that stand for `c` inside a JSON string: the quote, the backslash and the control
characters are escaped, all others stand as they are. -/
def escapedChar (c : Char) : List Char :=
  if c = '"' then ['\\', '"']
  else if c = '\\' then ['\\', '\\']
  else if c = '\x08' then ['\\', 'b']
  else if c = '\x0c' then ['\\', 'f']
  else if c = '\n' then ['\\', 'n']
  else if c = '\r' then ['\\', 'r']
  else if c = '\t' then ['\\', 't']
  else if c.toNat < 0x20 then
    ['\\', 'u', '0', '0', Nat.digitChar (c.toNat / 16), Nat.digitChar (c.toNat % 16)]
  else [c]

/-- A JSON string literal. -/
def literal (text : String) : List Char :=
  '"' :: (text.toList.flatMap escapedChar ++ ['"'])

namespace Token

/-- The written form of a token. -/
def chars : Token → List Char
  | openArray => ['[']
  | closeArray => [']']
  | openObject => ['{']
  | closeObject => ['}']
  | comma => [',']
  | colon => [':']
  | null => "null".toList
  | bool true => "true".toList
  | bool false => "false".toList
  | num value => value.text
  | str text => literal text

end Token

mutual

/-- The tokens of a tree. -/
def tokens : Json → List Token
  | null => [.null]
  | bool value => [.bool value]
  | num value => [.num value]
  | str text => [.str text]
  | arr items => .openArray :: (itemTokens items ++ [.closeArray])
  | obj members => .openObject :: (memberTokens members ++ [.closeObject])

/-- The tokens of array items with commas between them. -/
def itemTokens : List Json → List Token
  | [] => []
  | [item] => tokens item
  | item :: next :: rest => tokens item ++ .comma :: itemTokens (next :: rest)

/-- The tokens of object members with commas between them. -/
def memberTokens : List (String × Json) → List Token
  | [] => []
  | [(key, value)] => .str key :: .colon :: tokens value
  | (key, value) :: next :: rest =>
    .str key :: .colon :: (tokens value ++ .comma :: memberTokens (next :: rest))

end

end RouteScaffold.Json
