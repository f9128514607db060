/-
A pseudo-random generator of 64-bit words with four words of state, filled from a seed by a
splitting generator, and draws of truth values with a given probability.
-/
import LatencyGauge.Number.Binary64

namespace LatencyGauge

open Number

/-! ## Filling the state -/

/-- The increment of the splitting generator. -/
def splitIncrement : UInt64 := 0x9e3779b97f4a7c15

/-- The output of the splitting generator at a state. -/
def splitMix (z : UInt64) : UInt64 :=
  let z := (z ^^^ (z >>> 30)) * 0xbf58476d1ce4e5b9
  let z := (z ^^^ (z >>> 27)) * 0x94d049bb133111eb
  z ^^^ (z >>> 31)

/-! ## The generator -/

/-- The state of the generator. -/
structure Random where
  s0 : UInt64
  s1 : UInt64
  s2 : UInt64
  s3 : UInt64
deriving DecidableEq, Repr

/-- The state for a seed: four outputs of the splitting generator in a row. -/
def Random.seeded (seed : UInt64) : Random :=
  ⟨splitMix (seed + splitIncrement), splitMix (seed + 2 * splitIncrement),
    splitMix (seed + 3 * splitIncrement), splitMix (seed + 4 * splitIncrement)⟩

/-- A word rotated to the left. -/
def rotateLeft (x k : UInt64) : UInt64 := (x <<< k) ||| (x >>> (64 - k))

/-- The next word and the state after it. -/
def Random.next (r : Random) : UInt64 × Random :=
  let out := rotateLeft (r.s0 + r.s3) 23 + r.s0
  let t := r.s1 <<< 17
  let s2 := r.s2 ^^^ r.s0
  let s3 := r.s3 ^^^ r.s1
  let s1 := r.s1 ^^^ s2
  let s0 := r.s0 ^^^ s3
  (out, ⟨s0, s1, s2 ^^^ t, rotateLeft s3 45⟩)

/-! ## Draws -/

/-- The whole part of `p * 2 ^ 64`, for a probability below one. -/
def threshold (p : Float) : Nat :=
  match parts? p with
  | some x =>
    x.mantissa * Nat.pow 2 (x.exponent + 64).toNat / Nat.pow 2 (-(x.exponent + 64)).toNat
  | none => 0

/-- Draws a truth value that holds with a probability; certainty draws nothing, and neither does
no chance at all. -/
def Random.draw (p : Float) (r : Random) : Bool × Random :=
  if p > 0.0 then
    if p == 1.0 then (true, r)
    else
      let (word, r) := r.next
      (word.toNat < threshold p, r)
  else (false, r)

end LatencyGauge
