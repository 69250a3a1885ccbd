/-!
# A place in YAML text

YAML decides by line and column as much as by character, so the lexer walks a *cursor*: the text
that is left together with the count of characters before it, the line and the column.

Five characters end a line; a carriage return and a line feed next to each other end one line.  When
the end of a line becomes part of a scalar it is a line feed, except that the two Unicode separators
stay what they are.
-/

namespace RouteScaffold.Yaml

/-- A space or a tab. -/
def isBlank (c : Char) : Bool := c = ' ' || c = '\t'

/-- A character that ends a line. -/
def isBreak (c : Char) : Bool :=
  c = '\n' || c = '\r' || c.toNat == 0x85 || c.toNat == 0x2028 || c.toNat == 0x2029

/-- A character that separates words. -/
def isGap (c : Char) : Bool := isBlank c || isBreak c

/-- The end of the text, or a character that separates words. -/
def endsWord (c : Option Char) : Bool := c.all isGap

/-- A character of anchors, directive names and tag handles. -/
def isNameChar (c : Char) : Bool := c.isAlphanum || c = '_' || c = '-'

/-- A character that may stand in YAML text at all. -/
def isAllowed (c : Char) : Bool :=
  c = '\t' || c = '\n' || c = '\r' || (0x20 ≤ c.toNat && c.toNat ≤ 0x7E) || c.toNat == 0x85 ||
    (0xA0 ≤ c.toNat && c.toNat ≤ 0xD7FF) || (0xE000 ≤ c.toNat && c.toNat ≤ 0xFFFD) ||
    0x10000 ≤ c.toNat

/-- A place in a text. -/
structure Cursor where
  rest : List Char
  index : Nat := 0
  line : Nat := 0
  column : Nat := 0

namespace Cursor

/-- The character a few places ahead. -/
def peek (cursor : Cursor) (ahead : Nat := 0) : Option Char := cursor.rest[ahead]?

def atEnd (cursor : Cursor) : Bool := cursor.rest.isEmpty

/-- Whether the next character is a certain one. -/
def sees (cursor : Cursor) (c : Char) : Bool := cursor.rest.head? == some c

/-- Goes past characters of the current line. -/
def skip (cursor : Cursor) (count : Nat := 1) : Cursor :=
  { cursor with
    rest := cursor.rest.drop count
    index := cursor.index + count
    column := cursor.column + count }

/-- The characters of the current line that satisfy a condition, and the place after them. -/
def span (cursor : Cursor) (condition : Char → Bool) : List Char × Cursor :=
  let found := cursor.rest.takeWhile condition
  (found, cursor.skip found.length)

/-- Goes past characters of the current line that satisfy a condition. -/
def skipWhile (cursor : Cursor) (condition : Char → Bool) : Cursor := (cursor.span condition).2

/-- Goes to the end of the current line. -/
def skipLine (cursor : Cursor) : Cursor := cursor.skipWhile fun c => !isBreak c

/-- The start of the next line. -/
def nextLine (cursor : Cursor) (width : Nat) : Cursor :=
  { rest := cursor.rest.drop width, index := cursor.index + width, line := cursor.line + 1, column := 0 }

/-- Goes past the end of a line: what the end contributes to a scalar, and the place after it. -/
def takeBreak (cursor : Cursor) : List Char × Cursor :=
  match cursor.rest with
  | '\r' :: '\n' :: _ => (['\n'], cursor.nextLine 2)
  | c :: _ =>
    if isBreak c then
      (if c.toNat == 0x2028 || c.toNat == 0x2029 then [c] else ['\n'], cursor.nextLine 1)
    else
      ([], cursor)
  | [] => ([], cursor)

/-- Whether three equal characters stand at the start of a line, with a word's end after them. -/
def atMark (cursor : Cursor) (c : Char) : Bool :=
  cursor.column == 0 && cursor.rest.take 3 == [c, c, c] && endsWord (cursor.peek 3)

/-- Whether a document starts or ends here. -/
def atDocumentMark (cursor : Cursor) : Bool := cursor.atMark '-' || cursor.atMark '.'

end Cursor

end RouteScaffold.Yaml
