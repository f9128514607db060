/-
Running totals of accepted samples: how many, their sum, their greatest, and the sum of their
squared deviations from a calibrated baseline. Counts and samples have 64 bits and the two sums
128; the sum of squares stays at its greatest value once it would exceed it.
-/

namespace LatencyGauge

/-! ## Words -/

/-- A count of processor cycles, or a reading of a cycle counter. -/
abbrev Cycles := UInt64

/-- A word of 128 bits, wide enough for the sum of all 64-bit samples a count can number. -/
abbrev Wide := BitVec 128

/-- A 64-bit word in 128 bits. -/
def Wide.ofCycles (c : Cycles) : Wide := BitVec.ofNat 128 c.toNat

/-- The sum, or the greatest word if the sum does not fit. -/
def Wide.addSaturating (a b : Wide) : Wide :=
  if a.toNat + b.toNat < Nat.pow 2 128 then a + b else BitVec.allOnes 128

/-- The distance of two words. -/
def distance (a b : Cycles) : Cycles := if a < b then b - a else a - b

/-! ## Totals -/

/-- Running totals of accepted samples. -/
structure Totals where
  baseline : Cycles
  count : UInt64
  sum : Wide
  max : Cycles
  squares : Wide
deriving DecidableEq, Repr

/-- No samples yet, with deviations measured from `baseline`. -/
def Totals.empty (baseline : Cycles) : Totals := ⟨baseline, 0, 0, 0, 0⟩

/-- Takes up one accepted sample. -/
def Totals.record (t : Totals) (cycles : Cycles) : Totals :=
  let deviation := Wide.ofCycles (distance cycles t.baseline)
  { t with
    count := t.count + 1
    sum := t.sum + Wide.ofCycles cycles
    max := if t.max < cycles then cycles else t.max
    squares := t.squares.addSaturating (deviation * deviation) }

/-- Takes up samples in order. -/
def Totals.recordAll (t : Totals) (samples : List Cycles) : Totals := samples.foldl Totals.record t

/-- Whether no sample was taken up. -/
def Totals.isEmpty (t : Totals) : Bool := t.count == 0

@[simp] theorem Totals.record_baseline (t : Totals) (c : Cycles) :
    (t.record c).baseline = t.baseline := rfl

@[simp] theorem Totals.record_count (t : Totals) (c : Cycles) :
    (t.record c).count = t.count + 1 := rfl

theorem Totals.recordAll_append (t : Totals) (xs ys : List Cycles) :
    t.recordAll (xs ++ ys) = (t.recordAll xs).recordAll ys := List.foldl_append

end LatencyGauge
