/-
Finished statistics of a measured operation: count, mean, greatest sample and variance, the
variance being the mean squared deviation from the baseline and not from the mean. A mean too far
from the baseline is a drift; a baseline of zero expects nothing and nothing drifts from it.
-/
import LatencyGauge.Number.Fixed
import LatencyGauge.Statistics.Totals

namespace LatencyGauge

open Number

/-! ## Summary -/

/-- Statistics of the accepted samples. -/
structure Summary where
  count : UInt64
  mean : Float
  max : Cycles
  variance : Float
  baseline : Cycles
deriving BEq, Repr

/-- Mean and variance of running totals; without a sample there are none. -/
def Totals.summary? (t : Totals) : Option Summary :=
  if t.isEmpty then none
  else
    let n := ofNat t.count.toNat
    some {
      count := t.count
      mean := ofNat t.sum.toNat / n
      max := t.max
      variance := ofNat t.squares.toNat / n
      baseline := t.baseline }

/-- The square root of the variance. -/
def Summary.deviation (s : Summary) : Float := s.variance.sqrt

theorem Totals.summary?_isNone (t : Totals) : t.summary?.isNone = t.isEmpty := by
  unfold Totals.summary?; split <;> simp_all

/-- A summary has the count, the greatest sample and the baseline of running totals, and their two
sums over the count as mean and variance. -/
structure Summary.Sums (s : Summary) (t : Totals) : Prop where
  count : s.count = t.count
  mean : s.mean = ofNat t.sum.toNat / ofNat t.count.toNat
  max : s.max = t.max
  variance : s.variance = ofNat t.squares.toNat / ofNat t.count.toNat
  baseline : s.baseline = t.baseline

/-- Totals of any sample have a summary, and it sums them up. -/
theorem Totals.summary?_eq_some_iff {t : Totals} {s : Summary} :
    t.summary? = some s ↔ t.count ≠ 0 ∧ s.Sums t := by
  unfold Totals.summary? Totals.isEmpty
  by_cases hcount : t.count = 0
  · simp [hcount]
  · rw [if_neg (by simpa using hcount), Option.some_inj]
    constructor
    · rintro rfl
      exact ⟨hcount, rfl, rfl, rfl, rfl, rfl⟩
    · rintro ⟨-, h⟩
      cases s
      simp only [Summary.mk.injEq]
      exact ⟨h.count.symm, h.mean.symm, h.max.symm, h.variance.symm, h.baseline.symm⟩

/-! ## Drift -/

/-- A measured mean that disagrees with the baseline, and by which part of it. -/
structure Drift where
  baseline : Cycles
  measured : Float
  relative : Float
deriving BEq, Repr

/-- The drift of a summary, if its mean is off the baseline by more than `tolerance` of it. -/
def Summary.drift? (s : Summary) (tolerance : Float) : Option Drift :=
  if s.baseline = 0 then none
  else
    let baseline := ofNat s.baseline.toNat
    let relative := (s.mean - baseline) / baseline
    if relative.abs > tolerance then some ⟨s.baseline, s.mean, relative⟩ else none

/-- A drift in words. -/
def Drift.message (d : Drift) : String :=
  s!"assumed average {d.baseline.toNat} not consistent with measured " ++
    s!"{fixed 0 d.measured false} ({fixed 1 (d.relative * 100.0) true}%)"

end LatencyGauge
