import RouteScaffold.Json.Basic
import RouteScaffold.Yaml.Token

/-!
# What plain scalars mean

A plain scalar without a tag is null, a truth value, an integer, a real number or, when it is none
of these, a string.  A tag of the core schema asks for one of these meanings, and any other global
tag for a string.

Integers have a decimal, hexadecimal, octal or binary form.  One that has more than 64 but at most
128 bits is refused; beyond that a decimal one is a real number.  Digits after a leading zero are
no number.
-/

namespace RouteScaffold.Yaml

/-! ## Integers -/

/-- The value of a digit, letters counting from ten. -/
def radixDigit? (radix : Nat) (c : Char) : Option Nat :=
  let value? :=
    if c.isDigit then some (c.toNat - '0'.toNat)
    else if 'a' ≤ c ∧ c ≤ 'z' then some (c.toNat - 'a'.toNat + 10)
    else if 'A' ≤ c ∧ c ≤ 'Z' then some (c.toNat - 'A'.toNat + 10)
    else none
  value?.filter (· < radix)

/-- The number that one digit or more denote. -/
def radixNumber? (radix : Nat) (digits : List Char) : Option Nat :=
  if digits.isEmpty then none
  else digits.foldlM (fun value c => return value * radix + (← radixDigit? radix c)) 0

/-- A text after a sign, if it has one. -/
def afterSign : List Char → List Char
  | '+' :: rest => rest
  | '-' :: rest => rest
  | text => text

/-- Digits with a leading zero, which are not a number. -/
def isPaddedDigits (text : List Char) : Bool :=
  match afterSign text with
  | '0' :: next :: rest => (next :: rest).all Char.isDigit
  | _ => false

/-- The magnitude of an integer after its sign: in the radix its first characters name, or in
decimal. -/
def magnitude? : List Char → Option Nat
  | '0' :: 'x' :: rest => radixNumber? 16 rest
  | '0' :: 'o' :: rest => radixNumber? 8 rest
  | '0' :: 'b' :: rest => radixNumber? 2 rest
  | digits => radixNumber? 10 digits

/-- An integer in one of its forms, read from a text. -/
inductive IntReading where
  | int (value : Int)
  /-- An integer with too many bits for a document. -/
  | tooWide
  | notInt
  deriving DecidableEq

/-- An integer of a sign and a magnitude. -/
def IntReading.ofMagnitude (negative : Bool) (magnitude : Nat) : IntReading :=
  if negative then
    if magnitude ≤ Nat.pow 2 63 then .int (-(magnitude : Int))
    else if magnitude ≤ Nat.pow 2 127 then .tooWide
    else .notInt
  else
    if magnitude < Nat.pow 2 64 then .int magnitude
    else if magnitude < Nat.pow 2 128 then .tooWide
    else .notInt

/-- Reads an integer. -/
def readInt (text : List Char) : IntReading :=
  if isPaddedDigits text then .notInt
  else
    match magnitude? (afterSign text) with
    | some magnitude => .ofMagnitude (text.head? == some '-') magnitude
    | none => .notInt

/-! ## Real numbers -/

/-- A real number, or one of the values that are not numbers of a document. -/
inductive RealReading where
  | real (value : Binary64)
  /-- An infinity, or not a number. -/
  | special
  | notReal
  deriving DecidableEq

/-- The exponent part of a decimal: zero when it is missing. -/
def exponentPart? : List Char → Option Int
  | [] => some 0
  | c :: rest =>
    if c = 'e' ∨ c = 'E' then
      (radixNumber? 10 (afterSign rest)).map fun value =>
        if rest.head? = some '-' then -(value : Int) else value
    else none

/-- Reads a decimal after its sign: its digits and the power of ten they are multiplied with. -/
def decimal? (text : List Char) : Option (Nat × Int) := do
  let whole := text.takeWhile Char.isDigit
  let rest := text.dropWhile Char.isDigit
  let (fraction, rest) :=
    match rest with
    | '.' :: rest => (rest.takeWhile Char.isDigit, rest.dropWhile Char.isDigit)
    | rest => ([], rest)
  let digits ← radixNumber? 10 (whole ++ fraction)
  let exponent ← exponentPart? rest
  some (digits, exponent - fraction.length)

/-- Reads a real number. -/
def readReal (text : List Char) : RealReading :=
  let unsigned := afterSign text
  let written := String.ofList unsigned
  if [".inf", ".Inf", ".INF"].contains written then .special
  else if [".nan", ".NaN", ".NAN"].contains (String.ofList text) then .special
  else
    match (decimal? unsigned).bind fun (digits, exponent) =>
      Binary64.ofDecimal (text.head? == some '-') digits exponent with
    | some value => .real value
    | none => .notReal

/-- The tree of a real number: null for a value that is no number. -/
def RealReading.tree? : RealReading → Option Json
  | real value => some (.num (.real value))
  | special => some .null
  | notReal => none

/-! ## Scalars -/

/-- The written forms of null. -/
def nullNames : List String := ["~", "null", "Null", "NULL"]

/-- A truth value in one of its forms. -/
def readBool (text : List Char) : Option Bool :=
  if ["true", "True", "TRUE"].contains (String.ofList text) then some true
  else if ["false", "False", "FALSE"].contains (String.ofList text) then some false
  else none

/-- The tree of a plain scalar without a tag. -/
def plainTree (text : List Char) : Option Json :=
  if text.isEmpty || nullNames.contains (String.ofList text) then some .null
  else
    match readBool text with
    | some value => some (.bool value)
    | none =>
      match readInt text with
      | .int value => some (.num (.int value))
      | .tooWide => none
      | .notInt =>
        let read := if isPaddedDigits text then none else (readReal text).tree?
        some (read.getD (.str (String.ofList text)))

namespace Tag

/-- The tag of the core schema with a name. -/
def core (name : String) : Tag := ofText ("tag:yaml.org,2002:" ++ name)

/-- Whether a tag starts as those do that only the application knows. -/
def startsLocal (tag : Tag) : Bool := tag.head? == some 0x21

/-- A tag that only the application knows; one whose bytes are not those of a text is passed over. -/
def isLocal (tag : Tag) : Bool := tag.startsLocal && tag.toByteArray.validateUTF8

end Tag

/-- The tree of a scalar with a tag.  There is none where only the application knows the tag, as it does an
exclamation mark alone. -/
def taggedTree (tag : Tag) (text : List Char) (plain : Bool) : Option Json :=
  if tag = .core "bool" then (readBool text).map .bool
  else if tag = .core "int" then
    match readInt text with
    | .int value => some (.num (.int value))
    | _ => none
  else if tag = .core "float" then (readReal text).tree?
  else if tag = .core "null" then
    if nullNames.contains (String.ofList text) then some .null else none
  else if tag.isLocal then none
  else if tag.startsLocal && plain then plainTree text
  else some (.str (String.ofList text))

/-- The tree of a scalar. -/
def scalarTree (tag : Option Tag) (text : List Char) (plain : Bool) : Option Json :=
  match tag with
  | some tag => taggedTree tag text plain
  | none => if plain then plainTree text else some (.str (String.ofList text))

end RouteScaffold.Yaml
