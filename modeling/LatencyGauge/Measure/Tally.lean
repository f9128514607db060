/-
The progress of a measuring loop: every attempt is counted once, under the verdict on its sample,
and an accepted sample goes into the totals. From the progress at the end follows the report.
-/
import LatencyGauge.Measure.Report

namespace LatencyGauge

/-! ## Progress -/

/-- The counters of a loop and the totals of its accepted samples. -/
structure Tally where
  totals : Totals
  attempts : Nat
  completed : Nat
  failed : Nat
  tickChanged : Nat
  retried : Nat
  backwards : Nat
  outliers : Nat
deriving DecidableEq, Repr

/-- Nothing attempted yet. -/
def Tally.start (baseline : Cycles) : Tally := ⟨.empty baseline, 0, 0, 0, 0, 0, 0, 0⟩

/-- Whether a verdict completes an iteration. -/
def Verdict.completes : Verdict → Bool
  | .accept _ | .failed => true
  | .reject _ => false

/-- Counts one attempt under its verdict. -/
def Tally.take (t : Tally) (v : Verdict) : Tally :=
  let t := { t with attempts := t.attempts + 1 }
  match v with
  | .accept cycles => { t with totals := t.totals.record cycles, completed := t.completed + 1 }
  | .failed => { t with failed := t.failed + 1, completed := t.completed + 1 }
  | .reject .tickChanged => { t with tickChanged := t.tickChanged + 1 }
  | .reject .failed => { t with retried := t.retried + 1 }
  | .reject .clockAnomaly => { t with backwards := t.backwards + 1 }
  | .reject .outlier => { t with outliers := t.outliers + 1 }

/-- Whether a plan allows one more attempt. -/
def LoopPlan.allows (plan : LoopPlan) (attempts : Nat) : Bool :=
  match plan.maxAttempts with
  | none => true
  | some most => attempts < most.toNat

/-- Whether a loop goes on: samples are still wanted and attempts left. -/
def Tally.goesOn (t : Tally) (plan : LoopPlan) : Bool :=
  t.completed < plan.samples.toNat && plan.allows t.attempts

theorem Tally.take_attempts (t : Tally) (v : Verdict) : (t.take v).attempts = t.attempts + 1 := by
  unfold Tally.take; split <;> rfl

theorem Tally.take_completed (t : Tally) (v : Verdict) :
    (t.take v).completed = t.completed + (if v.completes then 1 else 0) := by
  unfold Tally.take; split <;> simp [Verdict.completes]

/-! ## Report -/

/-- The rejections that were counted. -/
def Tally.rejected (t : Tally) : Rejections :=
  ⟨UInt64.ofNat t.tickChanged, UInt64.ofNat t.retried, UInt64.ofNat t.backwards,
    UInt64.ofNat t.outliers⟩

/-- What there is to say about the accepted samples. -/
def Tally.findings (t : Tally) (plan : LoopPlan) : List Caution :=
  match t.totals.summary? with
  | some s => ((s.drift? plan.tolerance).map Caution.drift).toList
  | none => [.nothingAccepted]

/-- What there is to say about a loop that ended after a number of iterations. -/
def LoopPlan.shortfall (plan : LoopPlan) (iterations : Nat) : List Caution :=
  if iterations < plan.samples.toNat then [.budgetSpent (UInt64.ofNat iterations) plan.samples]
  else []

/-- The report of a loop that ended after a number of iterations. -/
def Tally.report (t : Tally) (name : String) (plan : LoopPlan) (iterations : Nat) : LoopReport where
  name := name
  attempts := UInt64.ofNat t.attempts
  completed := UInt64.ofNat t.completed
  accepted := t.totals.count
  failed := UInt64.ofNat t.failed
  rejected := t.rejected
  summary := t.totals.summary?
  cautions := t.findings plan ++ plan.shortfall iterations

end LatencyGauge
