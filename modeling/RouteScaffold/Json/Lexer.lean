import RouteScaffold.Json.Token

/-!
# Cutting JSON text into tokens

A text is cut into tokens up to its end or up to the first place where no token can be read.  That
place is kept as a token of its own kind, because whether it is an error, and which one, depends on
what the reader expects there.

Positions are a line, counted from one, and the count of bytes read on that line.
-/

namespace RouteScaffold.Json

/-- A place in a text. -/
structure Position where
  line : Nat := 1
  column : Nat := 0
  deriving DecidableEq, Repr, Inhabited

namespace Position

/-- The place after a character. -/
def after (place : Position) (c : Char) : Position :=
  if c = '\n' then ⟨place.line + 1, 0⟩ else ⟨place.line, place.column + c.utf8Size⟩

/-- The place after several characters. -/
def afterAll (place : Position) (text : List Char) : Position :=
  text.foldl after place

/-- The place after the next byte, or the place itself at the end of the text. -/
def afterByte (place : Position) : List Char → Position
  | [] => place
  | '\n' :: _ => ⟨place.line + 1, 0⟩
  | _ :: _ => ⟨place.line, place.column + 1⟩

/-- The place after a count of bytes. -/
def afterBytes (place : Position) (count : Nat) : List Char → Position
  | [] => place
  | c :: rest =>
    if count = 0 then place
    else if count < c.utf8Size then ⟨place.line, place.column + count⟩
    else afterBytes (place.after c) (count - c.utf8Size) rest

end Position

/-- Why a text is not JSON. -/
inductive Fault where
  | eofInList
  | eofInObject
  | eofInString
  | eofInValue
  | expectedColon
  | expectedListCommaOrEnd
  | expectedObjectCommaOrEnd
  | expectedIdent
  | expectedValue
  | invalidEscape
  | invalidNumber
  | numberOutOfRange
  | controlCharacter
  | keyMustBeString
  | loneLeadingSurrogate
  | trailingComma
  | trailingCharacters
  | unexpectedEndOfHexEscape
  | recursionLimit
  deriving DecidableEq, Repr

/-- The words for a fault. -/
def Fault.message : Fault → String
  | eofInList => "EOF while parsing a list"
  | eofInObject => "EOF while parsing an object"
  | eofInString => "EOF while parsing a string"
  | eofInValue => "EOF while parsing a value"
  | expectedColon => "expected `:`"
  | expectedListCommaOrEnd => "expected `,` or `]`"
  | expectedObjectCommaOrEnd => "expected `,` or `\x7d`"
  | expectedIdent => "expected ident"
  | expectedValue => "expected value"
  | invalidEscape => "invalid escape"
  | invalidNumber => "invalid number"
  | numberOutOfRange => "number out of range"
  | controlCharacter => "control character (\\u0000-\\u001F) found while parsing a string"
  | keyMustBeString => "key must be a string"
  | loneLeadingSurrogate => "lone leading surrogate in hex escape"
  | trailingComma => "trailing comma"
  | trailingCharacters => "trailing characters"
  | unexpectedEndOfHexEscape => "unexpected end of hex escape"
  | recursionLimit => "recursion limit exceeded"

/-- A fault and the place where it was noticed. -/
structure ReadError where
  fault : Fault
  place : Position
  deriving DecidableEq, Repr

def ReadError.message (error : ReadError) : String :=
  error.fault.message ++ " at line " ++ toString error.place.line ++ " column " ++
    toString error.place.column

/-- What was read, the place after it and the text that is left. -/
abbrev Reading (α : Type) := Except ReadError (α × Position × List Char)

/-! ## Strings -/

/-- The value of a hexadecimal digit. -/
def hexDigit? (c : Char) : Option Nat :=
  if c.isDigit then some (c.toNat - '0'.toNat)
  else if 'a' ≤ c ∧ c ≤ 'f' then some (c.toNat - 'a'.toNat + 10)
  else if 'A' ≤ c ∧ c ≤ 'F' then some (c.toNat - 'A'.toNat + 10)
  else none

/-- The number four hexadecimal digits denote. -/
def hexUnit? (a b c d : Char) : Option Nat := do
  return (((← hexDigit? a) * 16 + (← hexDigit? b)) * 16 + (← hexDigit? c)) * 16 + (← hexDigit? d)

/-- The error for four hexadecimal digits that are not there. -/
def badUnit (place : Position) (rest : List Char) : ReadError :=
  if (rest.foldl (fun size c => size + c.utf8Size) 0) < 4 then
    ⟨.eofInString, place.afterAll rest⟩
  else
    ⟨.invalidEscape, place.afterBytes 4 rest⟩

def isLeadingSurrogate (unit : Nat) : Bool := 0xD800 ≤ unit && unit ≤ 0xDBFF

def isTrailingSurrogate (unit : Nat) : Bool := 0xDC00 ≤ unit && unit ≤ 0xDFFF

/-- The error for a leading surrogate that no second escape follows. -/
def badPair (place : Position) : List Char → ReadError
  | [] => ⟨.eofInString, place⟩
  | ['\\'] => ⟨.eofInString, place.after '\\'⟩
  | '\\' :: 'u' :: rest => badUnit ((place.after '\\').after 'u') rest
  | '\\' :: rest => ⟨.unexpectedEndOfHexEscape, (place.after '\\').afterByte rest⟩
  | rest => ⟨.unexpectedEndOfHexEscape, place.afterByte rest⟩

/-- The character a one-letter escape denotes. -/
def shortEscape? : Char → Option Char
  | '"' => some '"'
  | '\\' => some '\\'
  | '/' => some '/'
  | 'b' => some '\x08'
  | 'f' => some '\x0c'
  | 'n' => some '\n'
  | 'r' => some '\r'
  | 't' => some '\t'
  | _ => none

/-- Reads a string after its opening quote; `found` holds the characters so far, the last first. -/
def stringBody (place : Position) (found : List Char) : List Char → Reading String
  | [] => .error ⟨.eofInString, place⟩
  | '"' :: rest => .ok (String.ofList found.reverse, place.after '"', rest)
  | '\\' :: 'u' :: a :: b :: c :: d :: rest =>
    let start := (place.after '\\').after 'u'
    match hexUnit? a b c d with
    | none => .error (badUnit start (a :: b :: c :: d :: rest))
    | some unit =>
      let place := start.afterAll [a, b, c, d]
      if isTrailingSurrogate unit then
        .error ⟨.loneLeadingSurrogate, place⟩
      else if isLeadingSurrogate unit then
        match rest with
        | '\\' :: 'u' :: e :: f :: g :: h :: more =>
          let start := (place.after '\\').after 'u'
          match hexUnit? e f g h with
          | none => .error (badUnit start (e :: f :: g :: h :: more))
          | some second =>
            let place := start.afterAll [e, f, g, h]
            if isTrailingSurrogate second then
              let code := 0x10000 + (unit - 0xD800) * 0x400 + (second - 0xDC00)
              stringBody place (Char.ofNat code :: found) more
            else
              .error ⟨.loneLeadingSurrogate, place⟩
        | rest => .error (badPair place rest)
      else
        stringBody place (Char.ofNat unit :: found) rest
  | '\\' :: 'u' :: rest => .error (badUnit ((place.after '\\').after 'u') rest)
  | ['\\'] => .error ⟨.eofInString, place.after '\\'⟩
  | '\\' :: c :: rest =>
    match shortEscape? c with
    | some meant => stringBody ((place.after '\\').after c) (meant :: found) rest
    | none => .error ⟨.invalidEscape, (place.after '\\').afterByte (c :: rest)⟩
  | c :: rest =>
    if c.toNat < 0x20 then .error ⟨.controlCharacter, place.afterByte (c :: rest)⟩
    else stringBody (place.after c) (c :: found) rest

/-! ## Numbers -/

/-- The value of a decimal digit. -/
def digitValue (c : Char) : Nat := c.toNat - '0'.toNat

/-- The largest significand a number is read with; digits beyond it only move the point. -/
def greatestSignificand : Nat := Nat.pow 2 64 - 1

/-- Extends a significand by digits as long as it stays in bounds: the significand and the digits
that were left. -/
def extendSignificand (significand : Nat) : List Char → Nat × List Char
  | [] => (significand, [])
  | c :: rest =>
    let next := significand * 10 + digitValue c
    if next ≤ greatestSignificand then extendSignificand next rest else (significand, c :: rest)

/-- The largest exponent that is counted; beyond it the number is zero or out of range. -/
def greatestExponent : Nat := Nat.pow 2 31 - 1

/-- The exponent that digits denote, or the digits after the one that leads beyond all bounds. -/
def exponentValue (value : Nat) : List Char → Except (List Char) Nat
  | [] => .ok value
  | c :: rest =>
    let next := value * 10 + digitValue c
    if next ≤ greatestExponent then exponentValue next rest else .error rest

/-- Divides a number by `10 ^ exponent` in steps that each divide by a representable power. -/
def scaleDownTen (value : Binary64) (exponent : Nat) : Option Binary64 :=
  if exponent ≤ 308 then do
    value.div? (← Binary64.ofRatio false (Nat.pow 10 exponent) 1)
  else if value.isZero then
    some value
  else do
    scaleDownTen (← value.div? (← Binary64.ofRatio false (Nat.pow 10 308) 1)) (exponent - 308)
termination_by exponent

/-- The number `significand * 10 ^ exponent` with the significand rounded first, and rounded again
after each power of ten it is multiplied with or divided by. -/
def scaled (significand : Nat) (exponent : Int) : Option Binary64 := do
  let value ← Binary64.ofRatio false significand 1
  if 308 < exponent then
    if value.isZero then some value else none
  else if 0 ≤ exponent then
    value.mul? (← Binary64.ofRatio false (Nat.pow 10 exponent.toNat) 1)
  else
    scaleDownTen value (-exponent).toNat

/-- The real number of the given parts, read up to `place`. -/
def realNumber (negative : Bool) (significand : Nat) (exponent : Int) (place : Position)
    (rest : List Char) : Reading Number :=
  match scaled significand exponent with
  | some value => .ok (.real (value.withSign negative), place, rest)
  | none => .error ⟨.numberOutOfRange, place⟩

/-- The integer of the given parts; a negative zero and integers out of bounds are real numbers. -/
def wholeNumber (negative : Bool) (significand : Nat) (place : Position) (rest : List Char) :
    Reading Number :=
  if !negative then .ok (.int significand, place, rest)
  else if 0 < significand ∧ significand ≤ Nat.pow 2 63 then
    .ok (.int (-(significand : Int)), place, rest)
  else realNumber true significand 0 place rest

/-- Reads the digits of an exponent, the mark and the sign being read. -/
def exponentDigits (negative : Bool) (significand : Nat) (point : Int) (below : Bool)
    (place : Position) (text : List Char) : Reading Number :=
  let digits := text.takeWhile Char.isDigit
  let rest := text.dropWhile Char.isDigit
  if text.isEmpty then .error ⟨.eofInValue, place⟩
  else if digits.isEmpty then .error ⟨.invalidNumber, place.afterByte text⟩
  else
    match exponentValue 0 digits with
    | .ok exponent =>
      realNumber negative significand (if below then point - exponent else point + exponent)
        (place.afterAll digits) rest
    | .error unread =>
      if significand ≠ 0 ∧ !below then
        .error ⟨.numberOutOfRange, place.afterAll (digits.take (digits.length - unread.length))⟩
      else
        .ok (.real (Binary64.zero negative), place.afterAll digits, rest)

/-- Reads what may follow the digits of a number: an exponent, or nothing. -/
def exponentPart (negative : Bool) (significand : Nat) (point : Int) (place : Position) :
    List Char → Reading Number
  | c :: rest =>
    if c = 'e' ∨ c = 'E' then
      match rest with
      | '+' :: more =>
        exponentDigits negative significand point false ((place.after c).after '+') more
      | '-' :: more =>
        exponentDigits negative significand point true ((place.after c).after '-') more
      | more => exponentDigits negative significand point false (place.after c) more
    else
      realNumber negative significand point place (c :: rest)
  | [] => realNumber negative significand point place []

/-- Reads the digits after a decimal point; `point` counts the digits before it that were not taken
into the significand. -/
def fractionPart (negative : Bool) (significand : Nat) (point : Nat) (place : Position)
    (text : List Char) : Reading Number :=
  let digits := text.takeWhile Char.isDigit
  let rest := text.dropWhile Char.isDigit
  if text.isEmpty then .error ⟨.eofInValue, place⟩
  else if digits.isEmpty then .error ⟨.invalidNumber, place.afterByte text⟩
  else
    let (significand, unread) := extendSignificand significand digits
    exponentPart negative significand (point - (digits.length - unread.length : Nat))
      (place.afterAll digits) rest

/-- Reads a number after its sign. -/
def numberBody (negative : Bool) (place : Position) (text : List Char) : Reading Number :=
  let digits := text.takeWhile Char.isDigit
  let rest := text.dropWhile Char.isDigit
  match digits with
  | [] =>
    .error ⟨if text.isEmpty then .eofInValue else .invalidNumber, place.afterByte text⟩
  | '0' :: next :: more =>
    .error ⟨.invalidNumber, (place.after '0').afterByte (next :: more)⟩
  | digits =>
    let (significand, unread) := extendSignificand 0 digits
    let place := place.afterAll digits
    match rest with
    | '.' :: more => fractionPart negative significand unread.length (place.after '.') more
    | rest =>
      match rest.head? with
      | some 'e' | some 'E' => exponentPart negative significand unread.length place rest
      | _ =>
        if unread.isEmpty then wholeNumber negative significand place rest
        else realNumber negative significand unread.length place rest

/-! ## Names -/

/-- Reads the remaining characters of a fixed name. -/
def nameBody (place : Position) : List Char → List Char → Except ReadError (Position × List Char)
  | [], rest => .ok (place, rest)
  | _ :: _, [] => .error ⟨.eofInValue, place⟩
  | c :: name, d :: rest =>
    if c = d then nameBody (place.after c) name rest
    else .error ⟨.expectedIdent, place.afterByte (d :: rest)⟩

/-! ## The token sequence -/

/-- What stands at a place: a token, a character that starts none, or a token that is faulty after
its first character. -/
inductive Lexeme where
  | token (value : Token)
  | stray
  | broken (leading : Char) (error : ReadError)
  deriving DecidableEq, Repr

/-- A lexeme and the place after its first byte. -/
structure Located where
  peeked : Position
  lexeme : Lexeme
  deriving DecidableEq, Repr

/-- Reads one lexeme at a character. -/
def lexeme (place : Position) (c : Char) (rest : List Char) :
    Lexeme × Position × List Char :=
  let single (token : Token) := (Lexeme.token token, place.after c, rest)
  let name (text : String) (token : Token) :=
    match nameBody (place.after c) text.toList rest with
    | .ok (place, rest) => (Lexeme.token token, place, rest)
    | .error error => (Lexeme.broken c error, place, [])
  let reading (result : Reading Token) :=
    match result with
    | .ok (token, place, rest) => (Lexeme.token token, place, rest)
    | .error error => (Lexeme.broken c error, place, [])
  match c with
  | '[' => single .openArray
  | ']' => single .closeArray
  | '{' => single .openObject
  | '}' => single .closeObject
  | ',' => single .comma
  | ':' => single .colon
  | 'n' => name "ull" .null
  | 't' => name "rue" (.bool true)
  | 'f' => name "alse" (.bool false)
  | '"' => reading ((stringBody (place.after c) [] rest).map fun (s, p, r) => (.str s, p, r))
  | '-' => reading ((numberBody true (place.after c) rest).map fun (n, p, r) => (.num n, p, r))
  | c =>
    if c.isDigit then
      reading ((numberBody false place (c :: rest)).map fun (n, p, r) => (.num n, p, r))
    else
      (.stray, place, [])

/-- White space between tokens. -/
def isSpace (c : Char) : Bool := c = ' ' || c = '\n' || c = '\t' || c = '\r'

/-- The lexemes of a text and the place of its end.  Each lexeme takes at least one character, so
the length of the text bounds their number; a lexeme that is no token is the last. -/
def lexemes (fuel : Nat) (place : Position) (text : List Char) : List Located × Position :=
  match fuel, text with
  | 0, _ => ([], place)
  | _, [] => ([], place)
  | fuel + 1, c :: rest =>
    if isSpace c then
      lexemes fuel (place.after c) rest
    else
      let (found, next, rest) := lexeme place c rest
      let (more, last) := lexemes fuel next rest
      (⟨place.afterByte [c], found⟩ :: more, last)

end RouteScaffold.Json
