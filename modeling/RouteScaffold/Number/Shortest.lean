import RouteScaffold.Number.Binary64

/-!
# The shortest decimal that reads back

A decimal reads back as a binary64 number when it lies in the interval of values that round to that
number; the ends of the interval belong to it when the significand is even.  Among the decimals
that read back, `Binary64.shortest` takes one with the fewest digits, of those the nearest to the
number, and of two equally near the one with the even last digit.

The search tries one digit, two digits and so on.  For each count the decimals with that many digits
form a grid, and it is enough to look at the two grid points around the number.
-/

namespace RouteScaffold.Binary64

/-- The count of decimal digits of a natural number, none for zero. -/
def digitCount (n : Nat) : Nat :=
  if n = 0 then 0 else (Nat.toDigits 10 n).length

/-- The exponent of the leading decimal digit of the positive fraction `num / den`. -/
def leadingPlace (num den : Nat) : Int :=
  if den ≤ num then (digitCount (num / den) : Int) - 1
  else -(digitCount ((den - 1) / num) : Int)

/-- The interval of values that round to a number, in quarters of the last binary place: lower end,
the number itself, upper end. -/
def interval (x : Binary64) : Nat × Nat × Nat :=
  let middle := 4 * x.significand
  let below := if x.significand = Nat.pow 2 52 ∧ leastExponent < x.exponent then 1 else 2
  (middle - below, middle, middle + 2)

/-- Whether the decimal `digits * 10 ^ place` rounds to the number; `num / den` is the decimal in
quarters of the number's last binary place. -/
def contains (x : Binary64) (num den : Nat) : Bool :=
  let (low, _, high) := x.interval
  if x.significand % 2 = 0 then low * den ≤ num && num ≤ high * den
  else low * den < num && num < high * den

/-- Quarters of the last binary place of `x` in one unit of the decimal place `10 ^ place`, as a
fraction. -/
def quartersPerUnit (x : Binary64) (place : Int) : Nat × Nat :=
  let (num, den) : Nat × Nat :=
    if 0 ≤ place then (Nat.pow 10 place.toNat, 1) else (1, Nat.pow 10 (-place).toNat)
  scaleDown num den (x.exponent - 2)

/-- The grid point to take at the decimal place `10 ^ place`, if one of the two around the number
reads back. -/
def gridPoint? (x : Binary64) (place : Int) : Option Nat :=
  let (num, den) := x.quartersPerUnit place
  let below := x.interval.2.1 * den / num
  let above := below + 1
  let lowFits := x.contains (below * num) den
  let highFits := x.contains (above * num) den
  match lowFits, highFits with
  | true, false => some below
  | false, true => some above
  | false, false => none
  | true, true =>
    let middle := x.interval.2.1 * den
    let toBelow := middle - below * num
    let toAbove := above * num - middle
    if toBelow < toAbove ∨ (toBelow = toAbove ∧ below % 2 = 0) then some below else some above

/-- The first grid with a point that reads back, trying the given count of further digits. -/
def searchGrid (x : Binary64) (place : Int) : Nat → Nat × Int
  | 0 => ((x.gridPoint? place).getD 0, place)
  | more + 1 =>
    match x.gridPoint? place with
    | some point => (point, place)
    | none => searchGrid x (place - 1) more

/-- The shortest decimal `digits * 10 ^ place` that reads back as the magnitude of the number. -/
def shortest (x : Binary64) : Nat × Int :=
  if x.isZero then (0, 0)
  else searchGrid x (leadingPlace x.ratio.1 x.ratio.2) 16

end RouteScaffold.Binary64
