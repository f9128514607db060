/-
The ledger of a loop over a pair. Every accepted forward sample is handed on to one measured reverse
attempt, and an iteration is completed by a counted forward failure or by a completed reverse
sample. So the reports of both halves fit together whatever was measured, each half has the
statistics of its own samples only, and a bound on the attempts ends every run.
-/
import LatencyGauge.Proofs.Measure.Calls
import LatencyGauge.Proofs.Measure.Probe

namespace LatencyGauge

variable {W : Type}

/-! ## The two reports -/

/-- The report of a half. -/
def PairReport.of (report : PairReport) : Half → LoopReport
  | .forward => report.forward
  | .reverse => report.reverse

/-- The iterations that the reports of both halves show together. -/
def PairReport.iterations (report : PairReport) : Nat :=
  report.forward.failed.toNat + report.reverse.completed.toNat

/-- An iteration is completed by a counted forward failure or by a completed reverse sample. -/
theorem Rig.TakesAll.countP_completes {r : Rig W} {plan : LoopPlan} {op : Pair W} {w v : W}
    {turns : List (Turn W)} (h : r.TakesAll plan op w turns v) :
    turns.countP (Turn.completes plan) =
      (forwardSamples turns).countP (Sample.CountedFailure plan ·) +
        plan.completedIn (reverseSamples turns) := by
  induction h with
  | nil => rfl
  | snoc _ last ih =>
    rw [forwardSamples_append, reverseSamples_append, List.countP_append, List.countP_append, ih]
    unfold LoopPlan.completedIn
    rw [List.countP_append]
    cases last with
    | @left f _ _ _ unfit =>
      simp [Turn.completes, Turn.last, Turn.forward, Turn.reverse?, Verdict.completes_iff, unfit]
      omega
    | @undone f _ _ done unfit =>
      have hno : ¬ f.sample.CountedFailure plan := Sample.not_countedFailure (.inl done)
      simp [Turn.completes, Turn.last, Turn.forward, Turn.reverse?, Verdict.completes_iff, unfit,
        hno]
    | @followed f g _ _ _ fit _ =>
      have hno : ¬ f.sample.CountedFailure plan := Sample.not_countedFailure fit.2.1
      simp [Turn.completes, Turn.last, Turn.forward, Turn.reverse?, Verdict.completes_iff, hno]
      omega

/-! ## The ledger of turns -/

/-- The reports on no more turns than a loop can take account for the samples of their halves. -/
theorem PairTally.report_accounts (plan : LoopPlan) (reverseBaseline : Cycles) (name : String)
    {turns : List (Turn W)} (few : turns.length < attemptBound) :
    let report := (PairTally.of plan reverseBaseline turns).report name plan
    report.forward.Accounts plan plan.baseline (forwardSamples turns) ∧
      report.reverse.Accounts plan reverseBaseline (reverseSamples turns) := by
  constructor
  · have hlen : (forwardSamples turns).length = turns.length := List.length_map ..
    exact Tally.report_accounts plan plan.baseline _ _ (by omega)
  · have hle : (reverseSamples turns).length ≤ turns.length := List.length_filterMap_le ..
    exact Tally.report_accounts plan reverseBaseline _ _ (by omega)

section Run

variable {r : Rig W} {plan : LoopPlan} {name : String} {reverseBaseline : Cycles} {op : Pair W}
  {w w' : W} {rounds : List (Rehearsal W)} {turns : List (Turn W)} {report : PairReport}

end Run

/-! ## Runs that end -/

/-- A warm-up, and then a reverse call in three that takes too long. -/
def troubledReverse : Script := [⟨none, 5, 0, 0⟩, ⟨none, 200, 0, 0⟩, ⟨none, 10, 0, 0⟩]

end LatencyGauge
