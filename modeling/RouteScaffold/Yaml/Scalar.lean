import RouteScaffold.Yaml.Cursor

/-!
# The presentations of a scalar

A scalar is written plainly, between quotes, or as a block of lines, and in each form its text is
what remains after folding.  A *gap* is a run of blanks and line ends between two words: without a
line end it stands for itself, with one line end it is a space, and with more it is the line ends
after the first.

The readers give nothing for a text that is not a scalar of the form.
-/

namespace RouteScaffold.Yaml

/-! ## Gaps -/

/-- A gap between words as far as it is read. -/
structure Gap where
  /-- Whether a line has ended. -/
  broken : Bool := false
  /-- The blanks before the first line end. -/
  blanks : List Char := []
  /-- What the first line end contributes. -/
  first : List Char := []
  /-- What the further line ends contribute. -/
  others : List Char := []

namespace Gap

/-- The text a gap is folded to. -/
def text (gap : Gap) : List Char :=
  if !gap.broken then gap.blanks
  else if gap.first == ['\n'] then (if gap.others.isEmpty then [' '] else gap.others)
  else gap.first ++ gap.others

/-- Reads on to the end of a gap.  On a further line a tab before the column `minColumn` is
refused. -/
def read (minColumn : Nat) : Nat → Gap → Cursor → Option (Gap × Cursor)
  | 0, gap, cursor => some (gap, cursor)
  | fuel + 1, gap, cursor =>
    match cursor.rest with
    | [] => some (gap, cursor)
    | c :: _ =>
      if isBlank c then
        if gap.broken then
          if c = '\t' ∧ cursor.column < minColumn then none
          else read minColumn fuel gap cursor.skip
        else
          read minColumn fuel { gap with blanks := gap.blanks ++ [c] } cursor.skip
      else if isBreak c then
        let (mark, next) := cursor.takeBreak
        if gap.broken then
          read minColumn fuel { gap with others := gap.others ++ mark } next
        else
          read minColumn fuel { gap with broken := true, first := mark } next
      else
        some (gap, cursor)

end Gap

/-! ## Plain scalars -/

/-- An indicator of flow collections. -/
def isFlowIndicator (c : Char) : Bool := c = ',' || c = '[' || c = ']' || c = '{' || c = '}'

/-- The characters of one word of a plain scalar. -/
def plainWord (inFlow : Bool) : List Char → Option (List Char)
  | [] => some []
  | c :: rest =>
    let next := rest.head?
    if isGap c then some []
    else if inFlow && c = ':' && next.any (fun d => isFlowIndicator d || d = '?') then none
    else if (c = ':' && endsWord next) || (inFlow && isFlowIndicator c) then some []
    else (plainWord inFlow rest).map (c :: ·)

/-- A plain scalar that was read. -/
structure PlainScalar where
  text : List Char
  /-- Whether lines have ended after the last word. -/
  brokenAfter : Bool
  cursor : Cursor

/-- A plain scalar of some pieces of text, the last one first, and the gap after them. -/
def PlainScalar.of (pieces : List (List Char)) (gap : Gap) (cursor : Cursor) : PlainScalar :=
  ⟨pieces.reverse.flatten, gap.broken, cursor⟩

/-- Reads the words of a plain scalar; outside of flow collections each line has to reach the column
`minColumn`.  The pieces of text read so far come with the last one first. -/
def readPlain (inFlow : Bool) (minColumn : Nat) :
    Nat → Cursor → List (List Char) → Gap → Option PlainScalar
  | 0, cursor, pieces, gap => some (.of pieces gap cursor)
  | fuel + 1, cursor, pieces, gap =>
    if cursor.atDocumentMark || cursor.sees '#' then
      some (.of pieces gap cursor)
    else do
      let word ← plainWord inFlow cursor.rest
      let cursor := cursor.skip word.length
      let pieces := if word.isEmpty then pieces else word :: gap.text :: pieces
      let gap := if word.isEmpty then gap else {}
      if !(cursor.peek.any isGap) then
        some (.of pieces gap cursor)
      else
        let (gap, cursor) ← gap.read minColumn fuel cursor
        if !inFlow && cursor.column < minColumn then
          some (.of pieces gap cursor)
        else
          readPlain inFlow minColumn fuel cursor pieces gap

/-! ## Quoted scalars -/

/-- The characters up to a gap or the closing quote of a single-quoted scalar, where two quotes stand
for one, and how many characters of the text they take. -/
def singlePart : List Char → List Char × Nat
  | '\'' :: '\'' :: rest =>
    let (part, size) := singlePart rest
    ('\'' :: part, size + 2)
  | c :: rest =>
    if c = '\'' || isGap c then
      ([], 0)
    else
      let (part, size) := singlePart rest
      (c :: part, size + 1)
  | [] => ([], 0)

/-- The character a one-letter escape denotes. -/
def namedEscape? : Char → Option Char
  | '0' => some '\x00'
  | 'a' => some '\x07'
  | 'b' => some '\x08'
  | 't' => some '\t'
  | '\t' => some '\t'
  | 'n' => some '\n'
  | 'v' => some '\x0b'
  | 'f' => some '\x0c'
  | 'r' => some '\r'
  | 'e' => some '\x1b'
  | ' ' => some ' '
  | '"' => some '"'
  | '/' => some '/'
  | '\\' => some '\\'
  | 'N' => some '\u0085'
  | '_' => some '\u00a0'
  | 'L' => some '\u2028'
  | 'P' => some '\u2029'
  | _ => none

/-- The value of a hexadecimal digit. -/
def hexValue? (c : Char) : Option Nat :=
  if c.isDigit then some (c.toNat - '0'.toNat)
  else if 'a' ≤ c ∧ c ≤ 'f' then some (c.toNat - 'a'.toNat + 10)
  else if 'A' ≤ c ∧ c ≤ 'F' then some (c.toNat - 'A'.toNat + 10)
  else none

/-- The character whose code point hexadecimal digits denote. -/
def hexEscape? (digits : List Char) : Option Char := do
  let code ← digits.foldlM (fun code c => return code * 16 + (← hexValue? c)) 0
  if h : code.isValidChar then some (Char.ofNatAux code h) else none

/-- The characters up to a gap or the closing quote of a double-quoted scalar, how many characters
of the text they take, and whether an escaped line end follows. -/
def doublePart : List Char → Option (List Char × Nat × Bool)
  | '\\' :: 'x' :: a :: b :: rest => do
    let c ← hexEscape? [a, b]
    let (part, size, escaped) ← doublePart rest
    some (c :: part, size + 4, escaped)
  | '\\' :: 'u' :: a :: b :: c :: d :: rest => do
    let c ← hexEscape? [a, b, c, d]
    let (part, size, escaped) ← doublePart rest
    some (c :: part, size + 6, escaped)
  | '\\' :: 'U' :: a :: b :: c :: d :: e :: f :: g :: h :: rest => do
    let c ← hexEscape? [a, b, c, d, e, f, g, h]
    let (part, size, escaped) ← doublePart rest
    some (c :: part, size + 10, escaped)
  | '\\' :: c :: rest =>
    if isBreak c then
      some ([], 1, true)
    else do
      let meant ← namedEscape? c
      let (part, size, escaped) ← doublePart rest
      some (meant :: part, size + 2, escaped)
  | ['\\'] => none
  | c :: rest =>
    if c = '"' || isGap c then
      some ([], 0, false)
    else do
      let (part, size, escaped) ← doublePart rest
      some (c :: part, size + 1, escaped)
  | [] => some ([], 0, false)

/-- Reads a quoted scalar after its opening quote.  The pieces of text read so far come with the last
one first. -/
def readQuoted (single : Bool) : Nat → Cursor → List (List Char) → Option (List Char × Cursor)
  | 0, _, _ => none
  | fuel + 1, cursor, pieces =>
    if cursor.atDocumentMark || cursor.atEnd then
      none
    else do
      let (part, size, escaped) ←
        if single then
          let (part, size) := singlePart cursor.rest
          some (part, size, false)
        else doublePart cursor.rest
      let pieces := part :: pieces
      let cursor := cursor.skip size
      if !escaped && cursor.sees (if single then '\'' else '"') then
        some (pieces.reverse.flatten, cursor.skip)
      else
        let (start, cursor) : Gap × Cursor :=
          if escaped then ({ broken := true }, cursor.takeBreak.2) else ({}, cursor)
        let (gap, cursor) ← start.read 0 fuel cursor
        readQuoted single fuel cursor (gap.text :: pieces)

/-! ## Block scalars -/

/-- What happens to the line ends at the end of a block. -/
inductive Chomping where
  | strip
  | clip
  | keep
  deriving DecidableEq

/-- The chomping a sign asks for. -/
def Chomping.ofSign? : Char → Option Chomping
  | '-' => some strip
  | '+' => some keep
  | _ => none

/-- The indentation a digit asks for: nothing when the character is no digit, and refused when it is
zero. -/
def indentation? (cursor : Cursor) : Option (Nat × Cursor) :=
  match cursor.peek with
  | some c =>
    if !c.isDigit then some (0, cursor)
    else if c = '0' then none
    else some (c.toNat - '0'.toNat, cursor.skip)
  | none => some (0, cursor)

/-- The chomping a sign at the cursor asks for. -/
def chomping? (cursor : Cursor) : Option (Chomping × Cursor) :=
  (cursor.peek.bind Chomping.ofSign?).map fun chomping => (chomping, cursor.skip)

/-- The chomping and the indentation of a block, in either order. -/
def blockHeader (cursor : Cursor) : Option (Chomping × Nat × Cursor) :=
  match chomping? cursor with
  | some (chomping, cursor) => (indentation? cursor).map fun (indent, next) => (chomping, indent, next)
  | none => do
    let (indent, cursor) ← indentation? cursor
    if indent = 0 then
      some (.clip, 0, cursor)
    else
      match chomping? cursor with
      | some (chomping, cursor) => some (chomping, indent, cursor)
      | none => some (.clip, indent, cursor)

/-- Goes past the rest of a line that holds nothing but blanks and a comment, and past its end. -/
def restOfLine (cursor : Cursor) : Option Cursor :=
  let cursor := cursor.skipWhile isBlank
  let cursor := if cursor.sees '#' then cursor.skipLine else cursor
  if cursor.atEnd || cursor.peek.any isBreak then some cursor.takeBreak.2 else none

/-- Reads the empty lines of a block and the indentation of the line after them: what the empty
lines contribute and the largest indentation seen.  An indentation of zero is not known yet. -/
def blockBreaks (indent : Nat) :
    Nat → Nat → List Char → Cursor → Option (List Char × Nat × Cursor)
  | 0, widest, breaks, cursor => some (breaks, widest, cursor)
  | fuel + 1, widest, breaks, cursor =>
    let spaces := (cursor.rest.takeWhile (· = ' ')).length
    let cursor := cursor.skip (if indent = 0 then spaces else min spaces (indent - cursor.column))
    let widest := max widest cursor.column
    if (indent = 0 || cursor.column < indent) && cursor.sees '\t' then none
    else if cursor.peek.any isBreak then
      let (mark, next) := cursor.takeBreak
      blockBreaks indent fuel widest (breaks ++ mark) next
    else
      some (breaks, widest, cursor)

/-- The lines of a block as far as they are read. -/
structure Block where
  /-- The lines and what stands between them, the last piece first. -/
  pieces : List (List Char) := []
  /-- What the end of the last line contributes. -/
  lineEnd : List Char := []
  /-- What the empty lines after it contribute. -/
  breaks : List Char
  /-- Whether the last line began with a blank. -/
  indented : Bool := false
  cursor : Cursor

/-- What stands between the last line and the next one, whose first character is a blank or not.  In a
folded block a line end between two lines that both begin with a word becomes a space, or nothing
next to empty lines. -/
def Block.joint (literal : Bool) (block : Block) (blankNext : Bool) : List Char :=
  if !literal && block.lineEnd.head? == some '\n' && !block.indented && !blankNext then
    (if block.breaks.isEmpty then [' '] else []) ++ block.breaks
  else
    block.lineEnd ++ block.breaks

/-- Reads the lines of a block. -/
def blockLines (literal : Bool) (indent : Nat) : Nat → Block → Option Block
  | 0, block => some block
  | fuel + 1, block =>
    if block.cursor.column = indent && !block.cursor.atEnd then do
      let blankNext := block.cursor.peek.any isBlank
      let (line, cursor) := block.cursor.span fun c => !isBreak c
      let (lineEnd, cursor) := cursor.takeBreak
      let (breaks, _, cursor) ← blockBreaks indent fuel 0 [] cursor
      blockLines literal indent fuel
        { pieces := line :: block.joint literal blankNext :: block.pieces
          lineEnd, breaks, indented := blankNext, cursor }
    else
      some block

/-- Reads a block scalar after its indicator.  `minIndent` is the least indentation its lines may
have, and an indentation that the header gives is counted from `base`. -/
def readBlock (literal : Bool) (minIndent base fuel : Nat) (cursor : Cursor) :
    Option (List Char × Cursor) := do
  let (chomping, given, cursor) ← blockHeader cursor
  let cursor ← restOfLine cursor
  let indent := if given = 0 then 0 else base + given
  let (breaks, widest, cursor) ← blockBreaks indent fuel 0 [] cursor
  let indent := if indent = 0 then max (max widest minIndent) 1 else indent
  let block ← blockLines literal indent fuel { breaks, cursor }
  let lineEnd := if chomping = .strip then [] else block.lineEnd
  let breaks := if chomping = .keep then block.breaks else []
  some (block.pieces.reverse.flatten ++ lineEnd ++ breaks, block.cursor)

end RouteScaffold.Yaml
