import RouteScaffold.Json.Token

/-!
# JSON text

The two written forms of a tree.  The compact form is the tree's tokens with nothing between them.
The pretty form puts each item and member on a line of its own, indented by four spaces for each
level, writes a space after a colon, and keeps empty arrays and objects together.
-/

namespace RouteScaffold.Json

/-- The compact form. -/
def compact (tree : Json) : String :=
  String.ofList (tree.tokens.flatMap Token.chars)

/-- A line break and the indentation of a level. -/
def lineBreak (level : Nat) : List Char :=
  '\n' :: List.replicate (4 * level) ' '

mutual

/-- The pretty form of a tree that starts at the given level. -/
def prettyChars (level : Nat) : Json → List Char
  | null => Token.null.chars
  | bool value => (Token.bool value).chars
  | num value => (Token.num value).chars
  | str text => (Token.str text).chars
  | arr [] => ['[', ']']
  | arr (item :: rest) =>
    '[' :: (lineBreak (level + 1) ++ prettyItems (level + 1) (item :: rest) ++
      lineBreak level ++ [']'])
  | obj [] => ['{', '}']
  | obj (member :: rest) =>
    '{' :: (lineBreak (level + 1) ++ prettyMembers (level + 1) (member :: rest) ++
      lineBreak level ++ ['}'])

/-- The pretty forms of array items, each but the first after a comma and a line break. -/
def prettyItems (level : Nat) : List Json → List Char
  | [] => []
  | [item] => prettyChars level item
  | item :: next :: rest =>
    prettyChars level item ++ ',' :: (lineBreak level ++ prettyItems level (next :: rest))

/-- The pretty forms of object members, each but the first after a comma and a line break. -/
def prettyMembers (level : Nat) : List (String × Json) → List Char
  | [] => []
  | [(key, value)] => literal key ++ ':' :: ' ' :: prettyChars level value
  | (key, value) :: next :: rest =>
    literal key ++ ':' :: ' ' :: (prettyChars level value ++
      ',' :: (lineBreak level ++ prettyMembers level (next :: rest)))

end

end RouteScaffold.Json
