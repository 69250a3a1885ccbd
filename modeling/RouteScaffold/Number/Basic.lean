import RouteScaffold.Number.Shortest

/-!
# Numbers of a document

A number is an integer or a binary64 number, and the two are kept apart: `1` and `1.0` are different
numbers with different texts.
-/

namespace RouteScaffold

/-- A number of a document. -/
inductive Number where
  | int (value : Int)
  | real (value : Binary64)
  deriving DecidableEq, Repr, Inhabited

namespace Number

/-- The largest integer a document may hold. -/
def greatestInt : Int := (Nat.pow 2 64 : Nat) - 1

/-- The least integer a document may hold. -/
def leastInt : Int := -(Nat.pow 2 63 : Nat)

/-- How a binary64 number is laid out: the exponents from `plainFrom` on and below `plainBelow` are
written without an exponent part. -/
structure Layout where
  plainFrom : Int
  plainBelow : Int

/-- Documents and messages write numbers from `0.00001` up to `9999999999999998.0` plainly. -/
def layout : Layout := ⟨-5, 16⟩

/-- Drops the zeros at the end of a digit list, but never its first digit. -/
def dropTrailingZeros : List Char → List Char
  | [] => []
  | first :: rest => first :: (rest.reverse.dropWhile (· == '0')).reverse

/-- Digits with a point after the leading one, and no point when there is one digit. -/
def pointed : List Char → List Char
  | [] => []
  | [single] => [single]
  | first :: rest => first :: '.' :: rest

/-- Digits laid out plainly around the point, with at least one digit on either side; the leading
digit stands at the decimal place `exponent`. -/
def plain (digits : List Char) (exponent : Int) : List Char :=
  if exponent < 0 then
    '0' :: '.' :: (List.replicate ((-exponent).toNat - 1) '0' ++ digits)
  else
    let whole := exponent.toNat + 1
    let fraction := digits.drop whole
    digits.take whole ++ List.replicate (whole - digits.length) '0' ++
      '.' :: (if fraction.isEmpty then ['0'] else fraction)

/-- The text of a binary64 number: the shortest digits that read back, plainly within the layout's
bounds, else with an exponent that always has a sign. -/
def realText (x : Binary64) : List Char :=
  let (value, place) := x.shortest
  let all := Nat.toDigits 10 value
  let exponent := place + all.length - 1
  let digits := dropTrailingZeros all
  let sign := if x.negative then ['-'] else []
  if layout.plainFrom ≤ exponent ∧ exponent < layout.plainBelow then
    sign ++ plain digits exponent
  else
    let mark := if exponent < 0 then '-' else '+'
    sign ++ pointed digits ++ 'e' :: mark :: Nat.toDigits 10 exponent.natAbs

/-- The text of an integer. -/
def intText (value : Int) : List Char :=
  (if value < 0 then ['-'] else []) ++ Nat.toDigits 10 value.natAbs

/-- The text of a number. -/
def text : Number → List Char
  | .int value => intText value
  | .real value => realText value

end Number

end RouteScaffold
