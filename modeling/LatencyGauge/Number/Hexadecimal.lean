/-
Hexadecimal digits: of natural numbers, of bytes, and of the sixteen-digit pattern that a binary64
number has in memory, most significant digit first.
-/

namespace LatencyGauge.Number

/-! ## Digits -/

/-- The value of a hexadecimal digit, in capital or small letters. -/
def hexDigit? (c : Char) : Option Nat :=
  if '0' ≤ c ∧ c ≤ '9' then some (c.toNat - '0'.toNat)
  else if 'a' ≤ c ∧ c ≤ 'f' then some (c.toNat - 'a'.toNat + 10)
  else if 'A' ≤ c ∧ c ≤ 'F' then some (c.toNat - 'A'.toNat + 10)
  else none

/-- The number that hexadecimal digits spell. -/
def hex? (cs : List Char) : Option Nat :=
  cs.foldlM (fun n c => (hexDigit? c).map (16 * n + ·)) 0

/-- The bytes that pairs of hexadecimal digits spell. -/
def hexBytes? : List Char → Option (List UInt8)
  | [] => some []
  | [_] => none
  | a :: b :: r => (hex? [a, b]).bind fun n => (hexBytes? r).map (UInt8.ofNat n :: ·)

/-! ## Binary64 patterns -/

/-- A binary64 pattern has so many digits. -/
def patternDigits : Nat := 16

/-- The pattern of a number. -/
def pattern (x : Float) : String :=
  let ds := Nat.toDigits 16 x.toBits.toNat
  String.ofList (List.replicate (patternDigits - ds.length) '0' ++ ds)

/-- The number that has a pattern. -/
def ofPattern? (text : String) : Option Float :=
  if text.length = patternDigits then
    (hex? text.toList).map fun n => Float.ofBits (UInt64.ofNat n)
  else none

end LatencyGauge.Number
