/-
Decimal text with a fixed number of places: the exact value rounded to the nearest last place, a
half going to the even digit, in full positional notation. Negative zero keeps its sign.
-/
import LatencyGauge.Number.Binary64
import LatencyGauge.Number.Digits

namespace LatencyGauge.Number

/-! ## Fixed places -/

/-- The text of `n / 10 ^ places` with all its places. -/
def placed (places n : Nat) : List Char :=
  let whole := decimal (n / Nat.pow 10 places)
  if places = 0 then whole
  else
    let rest := digits (n % Nat.pow 10 places)
    whole ++ '.' :: digitChars (List.replicate (places - rest.length) Digit.zero ++ rest)

/-- The magnitude of `m * 2 ^ q` in units of the last place. -/
def unitsAt (places m : Nat) (q : Int) : Nat :=
  roundDiv (m * Nat.pow 10 places * Nat.pow 2 q.toNat) (Nat.pow 2 (-q).toNat)

/-- A number with a fixed number of places. What is not a number has no sign; `plus` asks for a
sign also where the value is not negative. -/
def fixed (places : Nat) (x : Float) (plus : Bool) : String :=
  if x.isNaN then "NaN"
  else
    let sign := if signBit x then ['-'] else if plus then ['+'] else []
    let magnitude := match parts? x with
      | none => "inf".toList
      | some p => placed places (unitsAt places p.mantissa p.exponent)
    String.ofList (sign ++ magnitude)

end LatencyGauge.Number
