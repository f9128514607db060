/-
What a measuring loop reports: its counters, the summary of the accepted samples if there are any,
and cautions, which are findings that do not keep the result from being used.
-/
import LatencyGauge.Measure.Sample
import LatencyGauge.Statistics.Summary

namespace LatencyGauge

/-! ## Cautions -/

/-- A finding about a loop that does not end it. -/
inductive Caution where
  | nothingAccepted
  | budgetSpent (completed target : UInt64)
  | drift (d : Drift)
deriving BEq, Repr

/-- A caution in words. -/
def Caution.message : Caution → String
  | .nothingAccepted => "no sample accepted, statistics unavailable"
  | .budgetSpent completed target =>
    s!"attempt budget exhausted after {completed.toNat} of {target.toNat} iterations"
  | .drift d => d.message

/-- Whether a caution is about the baseline. -/
def Caution.isDrift : Caution → Bool
  | .drift _ => true
  | _ => false

/-! ## Loop reports -/

/-- What one loop produced. -/
structure LoopReport where
  name : String
  attempts : UInt64
  completed : UInt64
  accepted : UInt64
  failed : UInt64
  rejected : Rejections
  summary : Option Summary
  cautions : List Caution
deriving BEq, Repr

/-- Whether the mean drifted away from the baseline. -/
def LoopReport.drifted (r : LoopReport) : Bool := r.cautions.any Caution.isDrift

/-- What a loop over an operation and its inverse produced. -/
structure PairReport where
  forward : LoopReport
  reverse : LoopReport
deriving BEq, Repr

end LatencyGauge
