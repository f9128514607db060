/-
What a report says about samples. The tally of a list of verdicts is made of counts over the list,
so a report accounts for its samples: every counter is the number of samples of its kind, the
counters add up, and the statistics are those of the accepted samples in their order.
-/
import LatencyGauge.Measure.Loop
import LatencyGauge.Proofs.Measure.Verdict

namespace LatencyGauge

/-! ## Tallies of lists -/

/-- The length that a verdict accepts. -/
def Verdict.cycles? : Verdict → Option Cycles
  | .accept cycles => some cycles
  | .failed | .reject _ => none

/-- The tally of verdicts, counted at once. -/
def Tally.of (baseline : Cycles) (vs : List Verdict) : Tally where
  totals := (Totals.empty baseline).recordAll (vs.filterMap Verdict.cycles?)
  attempts := vs.length
  completed := vs.countP Verdict.completes
  failed := vs.count .failed
  tickChanged := vs.count (.reject .tickChanged)
  retried := vs.count (.reject .failed)
  backwards := vs.count (.reject .clockAnomaly)
  outliers := vs.count (.reject .outlier)

theorem Tally.of_nil (baseline : Cycles) : Tally.of baseline [] = Tally.start baseline := rfl

/-- Counting one more verdict is taking it up. -/
theorem Tally.of_append (baseline : Cycles) (vs : List Verdict) (v : Verdict) :
    Tally.of baseline (vs ++ [v]) = (Tally.of baseline vs).take v := by
  cases v with
  | accept cycles =>
    simp [Tally.of, Tally.take, Verdict.cycles?, Verdict.completes, Totals.recordAll]
  | failed =>
    simp [Tally.of, Tally.take, List.filterMap_cons, Verdict.cycles?, Verdict.completes]
  | reject why =>
    cases why <;>
      simp [Tally.of, Tally.take, List.filterMap_cons, Verdict.cycles?, Verdict.completes]

/-- Every verdict is counted exactly once. -/
theorem length_eq_counts (vs : List Verdict) :
    vs.length = (vs.filterMap Verdict.cycles?).length + vs.count .failed +
      (vs.count (.reject .tickChanged) + vs.count (.reject .failed) +
        vs.count (.reject .clockAnomaly) + vs.count (.reject .outlier)) := by
  induction vs with
  | nil => rfl
  | cons v vs ih =>
    cases v with
    | accept cycles => simp [Verdict.cycles?]; omega
    | failed => simp [List.filterMap_cons, Verdict.cycles?]; omega
    | reject why => cases why <;> simp [List.filterMap_cons, Verdict.cycles?] <;> omega

/-- An iteration is completed by an accepted sample or by a counted failure. -/
theorem countP_completes (vs : List Verdict) :
    vs.countP Verdict.completes =
      (vs.filterMap Verdict.cycles?).length + vs.count .failed := by
  induction vs with
  | nil => rfl
  | cons v vs ih =>
    cases v with
    | accept cycles =>
      simp [List.countP_cons, Verdict.cycles?, Verdict.completes, ih]; omega
    | failed =>
      simp [List.countP_cons, List.filterMap_cons, Verdict.cycles?, Verdict.completes, ih]; omega
    | reject why =>
      simp [List.filterMap_cons, Verdict.cycles?, Verdict.completes, ih]

/-! ## Verdicts on samples -/

/-- The lengths of the accepted samples, in their order. -/
def LoopPlan.acceptedCycles (plan : LoopPlan) (samples : List Sample) : List Cycles :=
  (samples.filter (Sample.Accepted plan ·)).map fun s => s.window.stop - s.window.start

theorem filterMap_cycles_verdict (plan : LoopPlan) (samples : List Sample) :
    (samples.map (Sample.verdict · plan)).filterMap Verdict.cycles? =
      plan.acceptedCycles samples := by
  unfold LoopPlan.acceptedCycles
  induction samples with
  | nil => rfl
  | cons s samples ih =>
    rw [List.map_cons, List.filterMap_cons, ih, List.filter_cons]
    by_cases h : s.Accepted plan
    · rw [(Sample.verdict_eq_accept_iff plan s _).2 ⟨h, rfl⟩]
      simp [Verdict.cycles?, h]
    · have hnone : (s.verdict plan).cycles? = none := by
        cases hv : s.verdict plan with
        | accept c => exact absurd ((Sample.verdict_eq_accept_iff plan s c).1 hv).1 h
        | failed => rfl
        | reject why => rfl
      simp [hnone, h]

theorem count_failed_verdict (plan : LoopPlan) (samples : List Sample) :
    (samples.map (Sample.verdict · plan)).count .failed =
      samples.countP (Sample.CountedFailure plan ·) := by
  rw [List.count_eq_countP, List.countP_map]
  refine List.countP_congr fun s _ => ?_
  simp [Sample.verdict_eq_failed_iff]

theorem count_reject_verdict (plan : LoopPlan) (samples : List Sample) (why : Rejection) :
    (samples.map (Sample.verdict · plan)).count (.reject why) =
      samples.countP fun s => ¬ s.CountedFailure plan ∧ s.firstViolation plan = some why := by
  rw [List.count_eq_countP, List.countP_map]
  refine List.countP_congr fun s _ => ?_
  simp [Sample.verdict_eq_reject_iff]

/-- The number of iterations that samples complete. -/
def LoopPlan.completedIn (plan : LoopPlan) (samples : List Sample) : Nat :=
  samples.countP fun s => s.Accepted plan ∨ s.CountedFailure plan

theorem Verdict.completes_iff (plan : LoopPlan) (s : Sample) :
    (s.verdict plan).completes = true ↔ s.Accepted plan ∨ s.CountedFailure plan := by
  rw [← Sample.verdict_eq_failed_iff]
  cases hv : s.verdict plan with
  | accept c => simp [Verdict.completes, ((Sample.verdict_eq_accept_iff plan s c).1 hv).1]
  | failed => simp [Verdict.completes]
  | reject why =>
    have hno : ¬ s.Accepted plan := fun h => by
      rw [(Sample.verdict_eq_accept_iff plan s _).2 ⟨h, rfl⟩] at hv
      cases hv
    simp [Verdict.completes, hno]

theorem LoopPlan.completedIn_eq (plan : LoopPlan) (samples : List Sample) :
    plan.completedIn samples =
      (samples.map (Sample.verdict · plan)).countP Verdict.completes := by
  rw [LoopPlan.completedIn, List.countP_map]
  refine List.countP_congr fun s _ => ?_
  simp [Verdict.completes_iff]

/-! ## Counters of 64 bits -/

/-- The counter of a reason. -/
def Rejections.of (r : Rejections) : Rejection → UInt64
  | .tickChanged => r.tickChanged
  | .failed => r.failed
  | .clockAnomaly => r.clockAnomaly
  | .outlier => r.outlier

/-- Words can count fewer attempts than this. -/
def attemptBound : Nat := Nat.pow 2 64

theorem toNat_ofNat_word {n : Nat} (h : n < attemptBound) : (UInt64.ofNat n).toNat = n :=
  UInt64.toNat_ofNat_of_lt' h

theorem Totals.recordAll_count (t : Totals) (cs : List Cycles) :
    (t.recordAll cs).count = t.count + UInt64.ofNat cs.length := by
  induction cs generalizing t with
  | nil => simp [Totals.recordAll]
  | cons c cs ih =>
    have step : (t.record c).recordAll cs = t.recordAll (c :: cs) := rfl
    rw [← step, ih, Totals.record_count, List.length_cons, UInt64.ofNat_add, UInt64.add_assoc,
      UInt64.add_comm 1]
    rfl

section Few

variable {vs : List Verdict} (few : vs.length < attemptBound)

include few

theorem Tally.of_count (baseline : Cycles) :
    (Tally.of baseline vs).totals.count.toNat = (vs.filterMap Verdict.cycles?).length := by
  have hlen := length_eq_counts vs
  simp only [Tally.of, Totals.recordAll_count, Totals.empty]
  rw [UInt64.zero_add, toNat_ofNat_word (by omega)]

theorem Tally.of_rejected (baseline : Cycles) (why : Rejection) :
    ((Tally.of baseline vs).rejected.of why).toNat = vs.count (.reject why) := by
  have hlt : vs.count (.reject why) < attemptBound := Nat.lt_of_le_of_lt List.count_le_length few
  cases why <;> exact toNat_ofNat_word hlt

theorem Tally.of_rejected_total (baseline : Cycles) :
    (Tally.of baseline vs).rejected.total.toNat =
      vs.count (.reject .tickChanged) + vs.count (.reject .failed) +
        vs.count (.reject .clockAnomaly) + vs.count (.reject .outlier) := by
  have hlen := length_eq_counts vs
  have hsum : (Tally.of baseline vs).rejected.total =
      UInt64.ofNat (vs.count (.reject .tickChanged) + vs.count (.reject .failed) +
        vs.count (.reject .clockAnomaly) + vs.count (.reject .outlier)) := by
    simp only [Tally.of, Tally.rejected, Rejections.total, UInt64.ofNat_add]
  rw [hsum, toNat_ofNat_word (by omega)]

end Few

/-! ## Reports -/

/-- A report is right about the samples of a loop: every counter is the number of the samples of
its kind, the counters add up, and the summary is the one of the accepted lengths in their order,
which is missing, and missed, exactly if there are none. -/
structure LoopReport.Accounts (report : LoopReport) (plan : LoopPlan) (baseline : Cycles)
    (samples : List Sample) : Prop where
  attempts : report.attempts.toNat = samples.length
  accepted : report.accepted.toNat = samples.countP (Sample.Accepted plan ·)
  failed : report.failed.toNat = samples.countP (Sample.CountedFailure plan ·)
  rejected : ∀ why, (report.rejected.of why).toNat =
    samples.countP fun s => ¬ s.CountedFailure plan ∧ s.firstViolation plan = some why
  balance : report.attempts.toNat =
    report.accepted.toNat + report.failed.toNat + report.rejected.total.toNat
  completed : report.completed.toNat = report.accepted.toNat + report.failed.toNat
  summary : report.summary =
    ((Totals.empty baseline).recordAll (plan.acceptedCycles samples)).summary?
  unsummarized : report.summary = none ↔ report.accepted = 0
  missed : .nothingAccepted ∈ report.cautions ↔ report.accepted = 0

theorem Tally.nothingAccepted_mem_findings (t : Tally) (plan : LoopPlan) :
    Caution.nothingAccepted ∈ t.findings plan ↔ t.totals.count = 0 := by
  unfold Tally.findings Totals.summary? Totals.isEmpty
  by_cases h : t.totals.count = 0
  · simp [h]
  · simp [h]

theorem LoopPlan.nothingAccepted_not_mem_shortfall (plan : LoopPlan) (n : Nat) :
    Caution.nothingAccepted ∉ plan.shortfall n := by
  unfold LoopPlan.shortfall
  split <;> simp

theorem Tally.budgetSpent_not_mem_findings (t : Tally) (plan : LoopPlan) (c target : UInt64) :
    Caution.budgetSpent c target ∉ t.findings plan := by
  unfold Tally.findings
  split
  · simp
  · simp

/-- The spent budget is reported exactly if iterations are missing, and with their numbers. -/
theorem Tally.budgetSpent_mem_cautions (t : Tally) (name : String) (plan : LoopPlan)
    (iterations : Nat) (c target : UInt64) :
    Caution.budgetSpent c target ∈ (t.report name plan iterations).cautions ↔
      iterations < plan.samples.toNat ∧ c = UInt64.ofNat iterations ∧ target = plan.samples := by
  simp only [Tally.report, List.mem_append, t.budgetSpent_not_mem_findings, false_or]
  unfold LoopPlan.shortfall
  split
  · rename_i hshort; simp [hshort]
  · rename_i hfull; simp [hfull]

/-- The report on the verdicts of no more samples than a loop can make accounts for them. -/
theorem Tally.report_accounts (plan : LoopPlan) (baseline : Cycles) (name : String)
    (iterations : Nat) {samples : List Sample} (few : samples.length < attemptBound) :
    ((Tally.of baseline (samples.map (Sample.verdict · plan))).report name plan
      iterations).Accounts plan baseline samples := by
  have few' : (samples.map (Sample.verdict · plan)).length < attemptBound := by rwa [List.length_map]
  -- no counter exceeds the number of samples, so none of them wraps
  have hlen := length_eq_counts (samples.map (Sample.verdict · plan))
  have hdone := countP_completes (samples.map (Sample.verdict · plan))
  have haccepted := Tally.of_count few' baseline
  have htotal := Tally.of_rejected_total few' baseline
  have hcycles := filterMap_cycles_verdict plan samples
  have hsize : (plan.acceptedCycles samples).length = samples.countP (Sample.Accepted plan ·) := by
    simp [LoopPlan.acceptedCycles, List.countP_eq_length_filter]
  have hfailed : (UInt64.ofNat ((samples.map (Sample.verdict · plan)).count .failed)).toNat =
      (samples.map (Sample.verdict · plan)).count .failed := toNat_ofNat_word (by omega)
  refine ⟨?_, ?_, ?_, fun why => ?_, ?_, ?_, ?_, ?_, ?_⟩
  · simp only [Tally.report, Tally.of, List.length_map]
    exact toNat_ofNat_word few
  · rw [← hsize, ← hcycles]
    exact haccepted
  · rw [← count_failed_verdict]
    exact hfailed
  · rw [← count_reject_verdict]
    exact Tally.of_rejected few' baseline why
  · simp only [Tally.report]
    rw [haccepted, htotal]
    simp only [Tally.of]
    rw [hfailed, toNat_ofNat_word few', hlen]
  · simp only [Tally.report]
    rw [haccepted]
    simp only [Tally.of]
    rw [hfailed, toNat_ofNat_word (by omega), hdone]
  · simp only [Tally.report, Tally.of, hcycles]
  · simp only [Tally.report]
    rw [← Option.isNone_iff_eq_none, Totals.summary?_isNone]
    simp [Totals.isEmpty]
  · simp only [Tally.report, List.mem_append, Tally.nothingAccepted_mem_findings,
      LoopPlan.nothingAccepted_not_mem_shortfall, or_false]

theorem LoopReport.Accounts.completedIn {report : LoopReport} {plan : LoopPlan}
    {baseline : Cycles} {samples : List Sample} (h : report.Accounts plan baseline samples) :
    report.completed.toNat = plan.completedIn samples := by
  rw [h.completed, h.accepted, h.failed, plan.completedIn_eq, countP_completes,
    filterMap_cycles_verdict, count_failed_verdict]
  simp [LoopPlan.acceptedCycles, List.countP_eq_length_filter]

/-! ## Budgets -/

theorem LoopPlan.allows_iff (plan : LoopPlan) (n : Nat) :
    plan.allows n = true ↔ ∀ most, plan.maxAttempts = some most → n < most.toNat := by
  unfold LoopPlan.allows
  cases plan.maxAttempts with
  | none => simp
  | some most => simp

theorem LoopPlan.allows_eq_false_iff (plan : LoopPlan) (n : Nat) :
    plan.allows n = false ↔ ∃ most, plan.maxAttempts = some most ∧ most.toNat ≤ n := by
  unfold LoopPlan.allows
  cases plan.maxAttempts with
  | none => simp
  | some most => simp

/-- A loop that stopped with no more iterations and attempts than there was room for has completed
the iterations or spent the attempts. -/
theorem LoopPlan.ended_of_stop {plan : LoopPlan} {done made : Nat}
    (wanted : done ≤ plan.samples.toNat)
    (allowed : ∀ most, plan.maxAttempts = some most → made ≤ most.toNat)
    (stop : (decide (done < plan.samples.toNat) && plan.allows made) = false) :
    done = plan.samples.toNat ∨ ∃ most, plan.maxAttempts = some most ∧ made = most.toNat := by
  rcases Nat.lt_or_ge done plan.samples.toNat with hless | hfull
  · have hspent : plan.allows made = false := by simpa [hless] using stop
    obtain ⟨most, hmost, hle⟩ := (plan.allows_eq_false_iff _).1 hspent
    exact .inr ⟨most, hmost, Nat.le_antisymm (allowed most hmost) hle⟩
  · exact .inl (Nat.le_antisymm wanted hfull)

end LatencyGauge
