/-!
# Finite binary64 numbers

A finite number of the binary64 format is a sign, a significand below `2 ^ 53` and an exponent; its
value is `± significand * 2 ^ exponent`.  The least exponent is `-1074`, and every number whose
exponent is larger has a significand of at least `2 ^ 52`, so each number but zero has one
representation.

Numbers arise by rounding a ratio of natural numbers to the nearest representable value, ties to
the even significand.  Everything is exact arithmetic on natural numbers.
-/

namespace RouteScaffold

/-- A finite binary64 number, `± significand * 2 ^ exponent`. -/
structure Binary64 where
  negative : Bool
  significand : Nat
  exponent : Int
  deriving DecidableEq, Repr, Inhabited

namespace Binary64

/-- The exponent of the subnormal numbers. -/
def leastExponent : Int := -1074

/-- The exponent of the largest finite numbers. -/
def greatestExponent : Int := 971

/-- Zero with a sign. -/
def zero (negative : Bool) : Binary64 := ⟨negative, 0, leastExponent⟩

def isZero (x : Binary64) : Bool := x.significand == 0

/-- The same magnitude with the given sign. -/
def withSign (negative : Bool) (x : Binary64) : Binary64 := { x with negative }

/-- The ratio `num / den * 2 ^ (-shift)` as a fraction of natural numbers. -/
def scaleDown (num den : Nat) (shift : Int) : Nat × Nat :=
  if 0 ≤ shift then (num, den * Nat.pow 2 shift.toNat)
  else (num * Nat.pow 2 (-shift).toNat, den)

/-- The quotient of two natural numbers rounded to the nearest one, ties to even. -/
def roundQuotient (num den : Nat) : Nat :=
  let quotient := num / den
  let twice := 2 * (num % den)
  if twice < den ∨ (twice = den ∧ quotient % 2 = 0) then quotient else quotient + 1

/-- The exponent a number near `num / den` is represented with: the one that leaves 53 binary digits
before the point, but never less than the least exponent. -/
def exponentFor (num den : Nat) : Int :=
  let estimate : Int := max leastExponent ((num.log2 : Int) - den.log2 - 53)
  let (n, d) := scaleDown num den estimate
  if n / d < Nat.pow 2 53 then estimate else estimate + 1

/-- The binary64 number nearest to `± num / den`, or nothing when that is beyond the finite ones. -/
def ofRatio (negative : Bool) (num den : Nat) : Option Binary64 :=
  if num = 0 then
    some (zero negative)
  else
    let exponent := exponentFor num den
    let (n, d) := scaleDown num den exponent
    let rounded := roundQuotient n d
    let (significand, exponent) :=
      if rounded = Nat.pow 2 53 then (Nat.pow 2 52, exponent + 1) else (rounded, exponent)
    if exponent ≤ greatestExponent then some ⟨negative, significand, exponent⟩ else none

/-- The magnitude as a fraction of natural numbers. -/
def ratio (x : Binary64) : Nat × Nat :=
  if 0 ≤ x.exponent then (x.significand * Nat.pow 2 x.exponent.toNat, 1)
  else (x.significand, Nat.pow 2 (-x.exponent).toNat)

/-- The rounded product of the magnitudes of two numbers, positive. -/
def mul? (x y : Binary64) : Option Binary64 :=
  ofRatio false (x.ratio.1 * y.ratio.1) (x.ratio.2 * y.ratio.2)

/-- The rounded quotient of the magnitudes of two numbers, positive. -/
def div? (x y : Binary64) : Option Binary64 :=
  ofRatio false (x.ratio.1 * y.ratio.2) (x.ratio.2 * y.ratio.1)

/-- The number nearest to a decimal `± digits * 10 ^ exponent`, or nothing when that is beyond the
finite ones.  Exponents that put the value outside of the format's range are decided by the count
of decimal places alone. -/
def ofDecimal (negative : Bool) (digits : Nat) (exponent : Int) : Option Binary64 :=
  let places : Int := (Nat.toDigits 10 digits).length + exponent
  if digits = 0 ∨ places < -400 then some (zero negative)
  else if 400 < places then none
  else if 0 ≤ exponent then ofRatio negative (digits * Nat.pow 10 exponent.toNat) 1
  else ofRatio negative digits (Nat.pow 10 (-exponent).toNat)

end Binary64

end RouteScaffold
