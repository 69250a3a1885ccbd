import RouteScaffold.Yaml.Token
import RouteScaffold.Yaml.Scalar

/-!
# Cutting YAML text into tokens

The lexer keeps the columns of the open blocks and, for each open flow collection, the place where a
key may have begun.  When a colon turns what was read since then into a key, a `key` token, and the
start of a block mapping if one is needed, go in front of it.

A key without a question mark has to fit on one line and in 1024 characters.  A key that starts at
the indentation of its block is required: there nothing but a key may stand.

All steps give nothing on text that is not YAML.
-/

namespace RouteScaffold.Yaml

/-- A place where a key may have begun. -/
structure Candidate where
  /-- The number of tokens before the key. -/
  position : Nat
  required : Bool
  index : Nat
  line : Nat
  column : Nat

/-- The state of the lexer. -/
structure Lexer where
  cursor : Cursor
  tokens : Array Token := #[]
  /-- The column of the innermost open block, `-1` when none is open. -/
  indent : Int := -1
  /-- The columns of the blocks around it. -/
  outerIndents : List Int := []
  /-- The candidate at the current level of flow collections. -/
  candidate : Option Candidate := none
  /-- The candidates at the levels around it. -/
  outerCandidates : List (Option Candidate) := []
  /-- Whether a key may begin at the cursor. -/
  keyAllowed : Bool := true
  /-- More than the count of characters that are left, which bounds every loop over them. -/
  bound : Nat

/-- A key without a question mark takes at most this many characters. -/
def keyLimit : Nat := 1024

namespace Lexer

def inFlow (lexer : Lexer) : Bool := !lexer.outerCandidates.isEmpty

/-- The least column of a line that continues the current block. -/
def minColumn (lexer : Lexer) : Nat := (lexer.indent + 1).toNat

/-- Adds a token. -/
def push (token : Token) (lexer : Lexer) : Lexer :=
  { lexer with tokens := lexer.tokens.push token }

/-- Puts a token in front of those from a position on. -/
def insert (position : Nat) (token : Token) (lexer : Lexer) : Lexer :=
  { lexer with tokens := lexer.tokens.insertIdxIfInBounds position token }

/-- Goes past characters of the current line. -/
def skip (count : Nat) (lexer : Lexer) : Lexer :=
  { lexer with cursor := lexer.cursor.skip count }

def allowKey (keyAllowed : Bool) (lexer : Lexer) : Lexer := { lexer with keyAllowed }

/-! ## Keys -/

/-- A candidate that can still become a key; a required one has to. -/
def fresh (cursor : Cursor) : Option Candidate → Option (Option Candidate)
  | none => some none
  | some candidate =>
    if candidate.line < cursor.line || candidate.index + keyLimit < cursor.index then
      if candidate.required then none else some none
    else
      some (some candidate)

/-- Gives up the candidates that cannot become keys any more. -/
def dropStale (lexer : Lexer) : Option Lexer := do
  let candidate ← fresh lexer.cursor lexer.candidate
  let outerCandidates ← lexer.outerCandidates.mapM (fresh lexer.cursor)
  some { lexer with candidate, outerCandidates }

/-- Gives up the candidate of the current level. -/
def dropCandidate (lexer : Lexer) : Option Lexer :=
  if lexer.candidate.any (·.required) then none else some { lexer with candidate := none }

/-- Remembers that a key may begin at the cursor. -/
def markCandidate (lexer : Lexer) : Option Lexer :=
  if lexer.keyAllowed then do
    let cursor := lexer.cursor
    let required := !lexer.inFlow && lexer.indent == cursor.column
    let lexer ← lexer.dropCandidate
    some { lexer with
      candidate :=
        some ⟨lexer.tokens.size, required, cursor.index, cursor.line, cursor.column⟩ }
  else
    some lexer

/-! ## Blocks -/

/-- Opens a block at a column unless one is open there; the token that opens it goes to a
position. -/
def openBlock (column : Nat) (position : Nat) (token : Token) (lexer : Lexer) : Lexer :=
  if !lexer.inFlow && lexer.indent < column then
    { lexer with indent := column, outerIndents := lexer.indent :: lexer.outerIndents }.insert
      position token
  else
    lexer

/-- Closes the blocks whose column is beyond the given one. -/
def closeBlocks (column : Int) (lexer : Lexer) : Lexer :=
  if lexer.inFlow then lexer else close lexer.outerIndents lexer
where
  /-- Closes blocks, given the columns of those around the innermost one. -/
  close : List Int → Lexer → Lexer
    | [], lexer => lexer
    | indent :: outerIndents, lexer =>
      if column < lexer.indent then
        close outerIndents ({ lexer with indent, outerIndents }.push .closeBlock)
      else
        lexer

/-! ## Space between tokens -/

/-- Goes past a byte order mark at the start of a line. -/
def skipOrderMark (cursor : Cursor) : Cursor :=
  if cursor.column == 0 && cursor.sees '\ufeff' then cursor.skip else cursor

/-- Goes past order marks, blanks, comments and line ends.  In block context a tab may not stand
where a key may begin, and a key may begin on each new line. -/
def skipSpace : Nat → Lexer → Lexer
  | 0, lexer => lexer
  | fuel + 1, lexer =>
    let tabs := lexer.inFlow || !lexer.keyAllowed
    let cursor := (skipOrderMark lexer.cursor).skipWhile fun c => c = ' ' || (tabs && c = '\t')
    let cursor := if cursor.sees '#' then cursor.skipLine else cursor
    if cursor.peek.any isBreak then
      skipSpace fuel
        { lexer with cursor := cursor.takeBreak.2, keyAllowed := lexer.keyAllowed || !lexer.inFlow }
    else
      { lexer with cursor }

/-! ## Directives -/

/-- Reads a number of at most nine digits. -/
def versionNumber (cursor : Cursor) : Option (Nat × Cursor) :=
  let (digits, next) := cursor.span Char.isDigit
  if digits.isEmpty || 9 < digits.length then none
  else some (digits.foldl (fun value c => value * 10 + (c.toNat - '0'.toNat)) 0, next)

/-- Reads the handle of a tag: an exclamation mark, and a name between two of them. -/
def tagHandle (inDirective : Bool) (cursor : Cursor) : Option (List Char × Cursor) :=
  if !cursor.sees '!' then
    none
  else
    let (name, next) := cursor.skip.span isNameChar
    if next.sees '!' then some ('!' :: name ++ ['!'], next.skip)
    else if inDirective && !name.isEmpty then none
    else some ('!' :: name, next)

/-- A character of a tag as it is written; flow indicators only within a verbatim tag. -/
def isTagChar (verbatim : Bool) (c : Char) : Bool :=
  isNameChar c || ";/?:@&=+$.%!~*'()".toList.contains c || (verbatim && ",[]".toList.contains c)

/-- How many bytes more belong to the character that starts with a byte. -/
def furtherBytes? (byte : UInt8) : Option Nat :=
  if byte < 0x80 then some 0
  else if 0xC0 ≤ byte ∧ byte < 0xE0 then some 1
  else if 0xE0 ≤ byte ∧ byte < 0xF0 then some 2
  else if 0xF0 ≤ byte ∧ byte < 0xF8 then some 3
  else none

/-- Reads a byte written as a percent sign and two hexadecimal digits. -/
def percentByte? : List Char → Option (UInt8 × List Char)
  | '%' :: a :: b :: rest => do
    some (UInt8.ofNat ((← hexValue? a) * 16 + (← hexValue? b)), rest)
  | _ => none

/-- Reads the further bytes of a character. -/
def percentTail : Nat → List Char → Option (List UInt8 × List Char)
  | 0, rest => some ([], rest)
  | more + 1, text => do
    let (byte, rest) ← percentByte? text
    if 0x80 ≤ byte ∧ byte < 0xC0 then
      let (bytes, rest) ← percentTail more rest
      some (byte :: bytes, rest)
    else none

/-- Reads a character written as bytes; only how many there are is checked, not that they are the
ones of a character. -/
def percentChar? (text : List Char) : Option (List UInt8 × List Char) := do
  let (byte, rest) ← percentByte? text
  let (bytes, rest) ← percentTail (← furtherBytes? byte) rest
  some (byte :: bytes, rest)

/-- The bytes that the characters of a tag denote. -/
def tagBytes : Nat → List Char → Option (List UInt8)
  | _, [] => some []
  | 0, _ => none
  | fuel + 1, c :: rest =>
    if c = '%' then do
      let (bytes, rest) ← percentChar? (c :: rest)
      (tagBytes fuel rest).map (bytes ++ ·)
    else
      (tagBytes fuel rest).map (UInt8.ofNat c.toNat :: ·)

/-- Reads the rest of a tag, which may have no characters. -/
def tagRest (verbatim : Bool) (cursor : Cursor) : Option (Tag × Cursor) := do
  let (written, next) := cursor.span (isTagChar verbatim)
  some (Tag.untilNull (← tagBytes written.length written), next)

/-- Reads the suffix of a tag or the meaning of a handle. -/
def tagSuffix (verbatim : Bool) (cursor : Cursor) : Option (Tag × Cursor) :=
  if cursor.peek.any (isTagChar verbatim) then tagRest verbatim cursor else none

/-- Reads a directive. -/
def directive (lexer : Lexer) : Option Lexer := do
  let lexer ← (lexer.closeBlocks (-1)).dropCandidate
  let (name, cursor) := lexer.cursor.skip.span isNameChar
  if name.isEmpty || !endsWord cursor.peek then
    none
  else
    let cursor := cursor.skipWhile isBlank
    let (token, cursor) ←
      if name = "YAML".toList then do
        let (major, cursor) ← versionNumber cursor
        if !cursor.sees '.' then none
        let (minor, cursor) ← versionNumber cursor.skip
        some (Token.version major minor, cursor)
      else if name = "TAG".toList then do
        let (handle, cursor) ← tagHandle true cursor
        if !cursor.peek.any isBlank then none
        let (meaning, cursor) ← tagSuffix true (cursor.skipWhile isBlank)
        if !endsWord cursor.peek then none
        some (Token.handle handle meaning, cursor)
      else none
    let cursor ← restOfLine cursor
    some ({ lexer with cursor, keyAllowed := false }.push token)

/-! ## Indicators -/

/-- The end of the text: it also ends the current line and all blocks. -/
def finish (lexer : Lexer) : Option Lexer :=
  (lexer.closeBlocks (-1)).dropCandidate

/-- The mark at the start or the end of a document. -/
def documentMark (token : Token) (lexer : Lexer) : Option Lexer := do
  let lexer ← (lexer.closeBlocks (-1)).dropCandidate
  some ((lexer.allowKey false).push token |>.skip 3)

/-- The start of a flow collection. -/
def openFlow (token : Token) (lexer : Lexer) : Option Lexer := do
  let lexer ← lexer.markCandidate
  some ({ lexer with
    candidate := none
    outerCandidates := lexer.candidate :: lexer.outerCandidates
    keyAllowed := true }.push token |>.skip 1)

/-- The end of a flow collection. -/
def closeFlow (token : Token) (lexer : Lexer) : Option Lexer := do
  let lexer ← lexer.dropCandidate
  let lexer :=
    match lexer.outerCandidates with
    | [] => lexer
    | candidate :: outerCandidates => { lexer with candidate, outerCandidates }
  some ((lexer.allowKey false).push token |>.skip 1)

/-- The comma of a flow collection. -/
def flowEntry (lexer : Lexer) : Option Lexer := do
  let lexer ← lexer.dropCandidate
  some ((lexer.allowKey true).push .flowEntry |>.skip 1)

/-- The dash of a block sequence. -/
def blockEntry (lexer : Lexer) : Option Lexer := do
  if !lexer.inFlow && !lexer.keyAllowed then none
  let lexer := lexer.openBlock lexer.cursor.column lexer.tokens.size .openBlockSequence
  let lexer ← lexer.dropCandidate
  some ((lexer.allowKey true).push .blockEntry |>.skip 1)

/-- The question mark before a key. -/
def explicitKey (lexer : Lexer) : Option Lexer := do
  if !lexer.inFlow && !lexer.keyAllowed then none
  let lexer := lexer.openBlock lexer.cursor.column lexer.tokens.size .openBlockMapping
  let lexer ← lexer.dropCandidate
  some ((lexer.allowKey !lexer.inFlow).push .key |>.skip 1)

/-- The colon before a value. -/
def valueMark (lexer : Lexer) : Option Lexer := do
  match lexer.candidate with
  | some key =>
    let lexer := lexer.insert key.position .key
    let lexer := lexer.openBlock key.column key.position .openBlockMapping
    some (({ lexer with candidate := none }.allowKey false).push .value |>.skip 1)
  | none =>
    if !lexer.inFlow && !lexer.keyAllowed then none
    let lexer := lexer.openBlock lexer.cursor.column lexer.tokens.size .openBlockMapping
    some ((lexer.allowKey !lexer.inFlow).push .value |>.skip 1)

/-! ## Properties and scalars -/

/-- The name of an anchor or an alias. -/
def anchorName (cursor : Cursor) : Option (List Char × Cursor) :=
  let (name, next) := cursor.skip.span isNameChar
  if name.isEmpty then none
  else if endsWord next.peek || next.peek.any ("?:,]\x7d%@`".toList.contains ·) then some (name, next)
  else none

/-- An anchor or an alias. -/
def reference (token : List Char → Token) (lexer : Lexer) : Option Lexer := do
  let lexer ← lexer.markCandidate
  let (name, cursor) ← anchorName lexer.cursor
  some (({ lexer with cursor }.allowKey false).push (token name))

/-- The handle and the suffix of a tag. -/
def tagParts (cursor : Cursor) : Option (List Char × Tag × Cursor) := do
  if cursor.peek 1 = some '<' then
    let (suffix, cursor) ← tagSuffix true (cursor.skip 2)
    if !cursor.sees '>' then none
    some ([], suffix, cursor.skip)
  else
    let (handle, next) ← tagHandle false cursor
    if 1 < handle.length ∧ handle.getLast? = some '!' then
      let (suffix, cursor) ← tagSuffix false next
      some (handle, suffix, cursor)
    else
      let (rest, cursor) ← tagRest false next
      let suffix := Tag.ofChars (handle.drop 1) ++ rest
      if suffix.isEmpty then some ([], Tag.lone, cursor) else some (['!'], suffix, cursor)

/-- A tag. -/
def tag (lexer : Lexer) : Option Lexer := do
  let lexer ← lexer.markCandidate
  let (handle, suffix, cursor) ← tagParts lexer.cursor
  if endsWord cursor.peek || (lexer.inFlow && cursor.sees ',') then
    some (({ lexer with cursor }.allowKey false).push (.tag handle suffix))
  else
    none

/-- A block scalar. -/
def blockScalar (literal : Bool) (lexer : Lexer) : Option Lexer := do
  let lexer ← lexer.dropCandidate
  let (text, cursor) ←
    readBlock literal lexer.minColumn lexer.indent.toNat lexer.bound lexer.cursor.skip
  some (({ lexer with cursor }.allowKey true).push (.scalar text false))

/-- A quoted scalar. -/
def quotedScalar (single : Bool) (lexer : Lexer) : Option Lexer := do
  let lexer ← lexer.markCandidate
  let (text, cursor) ← readQuoted single lexer.bound lexer.cursor.skip []
  some (({ lexer with cursor }.allowKey false).push (.scalar text false))

/-- A plain scalar; when lines have ended after it, a key may follow. -/
def plainScalar (lexer : Lexer) : Option Lexer := do
  let lexer ← lexer.markCandidate
  let scalar ← readPlain lexer.inFlow lexer.minColumn lexer.bound lexer.cursor [] {}
  some (({ lexer with cursor := scalar.cursor }.allowKey scalar.brokenAfter).push
    (.scalar scalar.text true))

/-! ## The token sequence -/

/-- Whether a plain scalar may begin with a character, given the one after it. -/
def beginsPlain (inFlow : Bool) (c : Char) (next : Option Char) : Bool :=
  !(isGap c || "-?:,[]\x7b\x7d#&*!|>'\"%@`".toList.contains c) ||
    (c = '-' && !next.any isBlank) || (!inFlow && (c = '?' || c = ':') && !endsWord next)

/-- Reads the token at a character. -/
def step (c : Char) (lexer : Lexer) : Option Lexer :=
  let cursor := lexer.cursor
  let next := cursor.peek 1
  let separate := lexer.inFlow || endsWord next
  if cursor.column == 0 && c = '%' then lexer.directive
  else if cursor.atMark '-' then lexer.documentMark .documentStart
  else if cursor.atMark '.' then lexer.documentMark .documentEnd
  else if c = '[' then lexer.openFlow .openFlowSequence
  else if c = '{' then lexer.openFlow .openFlowMapping
  else if c = ']' then lexer.closeFlow .closeFlowSequence
  else if c = '}' then lexer.closeFlow .closeFlowMapping
  else if c = ',' then lexer.flowEntry
  else if c = '-' && endsWord next then lexer.blockEntry
  else if c = '?' && separate then lexer.explicitKey
  else if c = ':' && separate then lexer.valueMark
  else if c = '*' then lexer.reference .aliasOf
  else if c = '&' then lexer.reference .anchor
  else if c = '!' then lexer.tag
  else if c = '|' && !lexer.inFlow then lexer.blockScalar true
  else if c = '>' && !lexer.inFlow then lexer.blockScalar false
  else if c = '\'' then lexer.quotedScalar true
  else if c = '"' then lexer.quotedScalar false
  else if beginsPlain lexer.inFlow c next then lexer.plainScalar
  else none

/-- Reads all tokens. -/
def run : Nat → Lexer → Option (List Token)
  | 0, _ => none
  | fuel + 1, lexer => do
    let lexer ← (lexer.skipSpace lexer.bound).dropStale
    let lexer := lexer.closeBlocks lexer.cursor.column
    match lexer.cursor.peek with
    | none => lexer.finish.map fun lexer => lexer.tokens.toList
    | some c => run fuel (← lexer.step c)

end Lexer

/-- The tokens of a text. -/
def tokens? (text : String) : Option (List Token) :=
  let chars := text.toList
  if chars.all isAllowed then
    let lexer : Lexer := { cursor := { rest := chars }, bound := chars.length + 1 }
    lexer.run lexer.bound
  else
    none

end RouteScaffold.Yaml
