/-!
# YAML tokens

Blocks have no closing mark in the text; the lexer makes their start and end explicit, and puts a
`key` token before a key that no question mark announces.

A tag is a sequence of bytes: the ones that are written with a percent sign need not be those of any
text.
-/

namespace RouteScaffold.Yaml

/-- A tag, or a part of one. -/
abbrev Tag := List UInt8

namespace Tag

/-- The tag that ASCII characters are. -/
def ofChars (chars : List Char) : Tag := chars.map fun c => UInt8.ofNat c.toNat

/-- The tag that ASCII text is. -/
def ofText (text : String) : Tag := ofChars text.toList

/-- The bytes in front of the first null byte, where a part of a tag ends. -/
def untilNull (bytes : List UInt8) : Tag := bytes.takeWhile (· ≠ 0)

/-- The tag that leaves it to the application what it means. -/
def lone : Tag := ofText "!"

end Tag

/-- A token of YAML text. -/
inductive Token where
  /-- A `%YAML` directive. -/
  | version (major minor : Nat)
  /-- A `%TAG` directive: a handle and what it stands for. -/
  | handle (handle : List Char) (meaning : Tag)
  | documentStart
  | documentEnd
  | openBlockSequence
  | openBlockMapping
  | closeBlock
  | openFlowSequence
  | closeFlowSequence
  | openFlowMapping
  | closeFlowMapping
  | blockEntry
  | flowEntry
  | key
  | value
  | aliasOf (name : List Char)
  | anchor (name : List Char)
  /-- A tag as a handle and a suffix; the handle is empty when the suffix is the whole tag. -/
  | tag (handle : List Char) (suffix : Tag)
  /-- A scalar; `plain` when it is neither quoted nor a block. -/
  | scalar (text : List Char) (plain : Bool)
  deriving DecidableEq, Repr

end RouteScaffold.Yaml
