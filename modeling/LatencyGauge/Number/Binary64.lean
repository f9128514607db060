/-
Binary64 numbers as exact quantities: a finite number is a sign, a whole mantissa and a power of
two, and the number nearest to a quotient of naturals is found in exact arithmetic, a half going
to the even mantissa. The conversion of a natural number is the case of denominator one.
-/
import LatencyGauge.Number.Rounding

namespace LatencyGauge.Number

/-! ## Exact parts -/

/-- The magnitude `mantissa * 2 ^ exponent` of a finite number, with its sign. -/
structure Parts where
  negative : Bool
  mantissa : Nat
  exponent : Int
deriving DecidableEq, Repr

/-- The exponent of the least positive number, that of every subnormal mantissa. -/
def leastExponent : Int := -1074

/-- Mantissas of normal numbers have fifty-three bits: at least this, and less than twice this. -/
def normalMantissa : Nat := Nat.pow 2 52

/-- The parts of a finite number, and nothing for infinities and for what is not a number. -/
def parts? (x : Float) : Option Parts :=
  let bits := x.toBits.toNat
  let field := bits / Nat.pow 2 52 % Nat.pow 2 11
  let fraction := bits % Nat.pow 2 52
  let negative := bits / Nat.pow 2 63 == 1
  if field == 2047 then none
  else if field == 0 then some ⟨negative, fraction, leastExponent⟩
  else some ⟨negative, normalMantissa + fraction, leastExponent + (field - 1 : Nat)⟩

/-- The sign bit, which also zero and the infinities have. -/
def signBit (x : Float) : Bool := x.toBits.toNat / Nat.pow 2 63 == 1

/-! ## Nearest number -/

/-- The exponent at which the mantissa of `num / den` has fifty-three bits, but not below the
least one. -/
def exponentOf (num den : Nat) : Int :=
  let q : Int := (num.log2 : Int) - (den.log2 : Int) - 53
  let fits := num * Nat.pow 2 (-q).toNat < Nat.pow 2 53 * (den * Nat.pow 2 q.toNat)
  max (if fits then q else q + 1) leastExponent

/-- The bits of the positive infinity. -/
def infinityBits : Nat := 2047 * Nat.pow 2 52

/-- The number nearest to `num / den`, ties to the even mantissa, infinite if it is too large.
Exponent and mantissa fields lie next to each other, so a mantissa that rounds up to a power of
two carries into the exponent by itself. -/
def ofRatio (num den : Nat) : Float :=
  if num = 0 then 0.0
  else
    let q := exponentOf num den
    let mantissa := roundDiv (num * Nat.pow 2 (-q).toNat) (den * Nat.pow 2 q.toNat)
    let bits := (q - leastExponent).toNat * Nat.pow 2 52 + mantissa
    Float.ofBits (UInt64.ofNat (min bits infinityBits))

/-- The number nearest to a natural number. -/
def ofNat (n : Nat) : Float := ofRatio n 1

/-- The number nearest to a power of ten. -/
def powTen (e : Nat) : Float := ofNat (Nat.pow 10 e)

end LatencyGauge.Number
