/-
Shortest decimal: of all decimals that lie in the rounding interval of a binary64 number, one
with the fewest digits, and of those the nearest to the number. The interval reaches half way to
both neighbours, its ends belonging to it when the mantissa is even, and all comparisons are made
in exact arithmetic.
-/
import LatencyGauge.Number.Binary64
import LatencyGauge.Number.Digits

namespace LatencyGauge.Number

/-! ## Exact comparison -/

/-- A decimal `coefficient * 10 ^ exponent`. -/
structure Decimal where
  coefficient : Nat
  exponent : Int
deriving DecidableEq, Repr

/-- Compares a decimal with `b * 2 ^ q` exactly. -/
def Decimal.cmp (d : Decimal) (b : Nat) (q : Int) : Ordering :=
  compare (d.coefficient * Nat.pow 10 d.exponent.toNat * Nat.pow 2 (-q).toNat)
    (b * Nat.pow 2 q.toNat * Nat.pow 10 (-d.exponent).toNat)

/-! ## Rounding interval -/

/-- The lower end of the rounding interval of `m * 2 ^ q`, in units of `2 ^ (q - 2)`: below a
power of two the neighbours are closer. -/
def lowerEnd (m : Nat) (q : Int) : Nat :=
  if m = normalMantissa ∧ leastExponent < q then 4 * m - 1 else 4 * m - 2

/-- The upper end of the rounding interval, in the same units. -/
def upperEnd (m : Nat) : Nat := 4 * m + 2

/-- Whether a decimal rounds to `m * 2 ^ q`. -/
def rounds (m : Nat) (q : Int) (d : Decimal) : Bool :=
  let low := d.cmp (lowerEnd m q) (q - 2)
  let high := d.cmp (upperEnd m) (q - 2)
  (low == .gt || (low == .eq && m % 2 == 0)) && (high == .lt || (high == .eq && m % 2 == 0))

/-! ## Search over the number of digits -/

/-- The exponent of the leading decimal digit of `m * 2 ^ q`, for a positive mantissa. -/
def leadingExponent (m : Nat) (q : Int) : Int :=
  let num := m * Nat.pow 2 q.toNat
  let den := Nat.pow 2 (-q).toNat
  if den ≤ num then ((digits (num / den)).length : Int) - 1
  else -((digits ((den - 1) / num)).length : Int)

/-- The greatest decimal with the given exponent that is not above `m * 2 ^ q`. -/
def floorAt (m : Nat) (q e : Int) : Decimal :=
  ⟨m * Nat.pow 2 q.toNat * Nat.pow 10 (-e).toNat /
    (Nat.pow 2 (-q).toNat * Nat.pow 10 e.toNat), e⟩

/-- Of the two decimals of exponent `e` around `m * 2 ^ q`, the one that rounds to it; if both do,
the nearer, and the even one half way between. -/
def candidate? (m : Nat) (q e : Int) : Option Decimal :=
  let below := floorAt m q e
  let above : Decimal := ⟨below.coefficient + 1, e⟩
  match rounds m q below, rounds m q above with
  | false, false => none
  | true, false => some below
  | false, true => some above
  | true, true =>
    let middle : Decimal := ⟨2 * below.coefficient + 1, e⟩
    match middle.cmp (2 * m) q with
    | .gt => some below
    | .lt => some above
    | .eq => some (if below.coefficient % 2 = 0 then below else above)

/-- The first hit among grids that get finer by one digit, for at most `tries` more digits. -/
def searchFrom (m : Nat) (q e : Int) : Nat → Decimal
  | 0 => floorAt m q e
  | tries + 1 =>
    match candidate? m q e with
    | some d => d
    | none => searchFrom m q (e - 1) tries

/-- Seventeen digits tell any two numbers apart. -/
def mostDigits : Nat := 17

/-- The shortest decimal that reads back to `m * 2 ^ q`, for a positive mantissa. -/
def shortest (m : Nat) (q : Int) : Decimal := searchFrom m q (leadingExponent m q) mostDigits

/-! ## Significant digits -/

/-- Digits without the zeros they end with. -/
def dropTrailingZeros (ds : List Digit) : List Digit :=
  (ds.reverse.dropWhile (· == Digit.zero)).reverse

/-- The significant digits of a positive number's shortest decimal, and the first one's exponent. -/
def significant (m : Nat) (q : Int) : List Digit × Int :=
  let d := shortest m q
  let ds := digits d.coefficient
  (dropTrailingZeros ds, d.exponent + ds.length - 1)

end LatencyGauge.Number
