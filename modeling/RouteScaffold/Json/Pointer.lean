import RouteScaffold.Json.Basic
import RouteScaffold.Text.Pieces

/-!
# JSON pointers

A pointer is empty, and then names the whole tree, or a sequence of tokens that each follow a slash.
In a token `~1` stands for a slash and `~0` for a tilde.  A token selects the member of that key, or
the item of that index; an index is written in decimal digits without a leading zero.
-/

namespace RouteScaffold.Json

/-- A token with `~1` read as a slash and then `~0` as a tilde. -/
def unescapeToken (token : List Char) : List Char :=
  tildes (slashes token)
where
  /-- Reads `~1` as a slash. -/
  slashes : List Char → List Char
    | '~' :: '1' :: rest => '/' :: slashes rest
    | c :: rest => c :: slashes rest
    | [] => []
  /-- Reads `~0` as a tilde. -/
  tildes : List Char → List Char
    | '~' :: '0' :: rest => '~' :: tildes rest
    | c :: rest => c :: tildes rest
    | [] => []

/-- The index a token denotes. -/
def tokenIndex? (token : List Char) : Option Nat :=
  if token.isEmpty ∨ !token.all Char.isDigit ∨ (token.head? = some '0' ∧ token.length ≠ 1) then none
  else
    let index := token.foldl (fun value c => value * 10 + (c.toNat - '0'.toNat)) 0
    if index < Nat.pow 2 64 then some index else none

/-- The child a token selects. -/
def child? (tree : Json) (token : List Char) : Option Json :=
  match tree with
  | obj members => members.lookup (String.ofList token)
  | arr items => (tokenIndex? token).bind fun index => items[index]?
  | _ => none

/-- The tree at a sequence of tokens. -/
def descend? (tree : Json) : List (List Char) → Option Json
  | [] => some tree
  | token :: rest => (tree.child? token).bind fun child => child.descend? rest

/-- The tree a pointer names. -/
def pointer? (tree : Json) (pointer : List Char) : Option Json :=
  match pointer with
  | [] => some tree
  | '/' :: rest => tree.descend? ((Text.slashPieces rest).map unescapeToken)
  | _ => none

end RouteScaffold.Json
