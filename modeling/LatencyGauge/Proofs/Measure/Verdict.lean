/-
Verdicts without the order of tests: a sample is accepted if it meets four conditions, it is a
counted failure if its ticks agree and its operation failed under the policy that counts, and any
other sample is thrown away for the first of the conditions, in their order, that it violates.
-/
import LatencyGauge.Measure.Sample

namespace LatencyGauge

/-! ## Conditions on samples -/

/-- A sample that goes into the statistics: no interrupt, no failure that matters, a clock that
went forward, and a length within the ceiling. -/
def Sample.Accepted (plan : LoopPlan) (s : Sample) : Prop :=
  s.before = s.after ∧ (s.window.code = 0 ∨ plan.onFailure = .ignore) ∧
    s.window.start ≤ s.window.stop ∧ s.window.stop - s.window.start ≤ plan.ceiling

instance (plan : LoopPlan) (s : Sample) : Decidable (s.Accepted plan) :=
  inferInstanceAs (Decidable (_ ∧ _))

/-- A sample that counts as a failure of its operation. -/
def Sample.CountedFailure (plan : LoopPlan) (s : Sample) : Prop :=
  s.before = s.after ∧ s.window.code ≠ 0 ∧ plan.onFailure = .countSeparately

instance (plan : LoopPlan) (s : Sample) : Decidable (s.CountedFailure plan) :=
  inferInstanceAs (Decidable (_ ∧ _))

/-- The reasons to throw a sample away, in the order in which they are looked for. -/
def Rejection.inOrder : List Rejection := [.tickChanged, .failed, .clockAnomaly, .outlier]

/-- Whether a sample violates the condition behind a reason, whatever the other conditions. -/
def Sample.violates (plan : LoopPlan) (s : Sample) : Rejection → Bool
  | .tickChanged => s.before ≠ s.after
  | .failed => s.window.code ≠ 0 ∧ plan.onFailure = .retry
  | .clockAnomaly => s.window.stop < s.window.start
  | .outlier => plan.ceiling.toNat < s.window.stop.toNat - s.window.start.toNat

/-- The first condition that a sample violates. -/
def Sample.firstViolation (plan : LoopPlan) (s : Sample) : Option Rejection :=
  Rejection.inOrder.find? (s.violates plan)

/-! ## Windows -/

theorem Window.verdict_eq_accept_iff (w : Window) (ceiling c : Cycles) :
    w.verdict ceiling = .accept c ↔
      w.start ≤ w.stop ∧ w.stop - w.start ≤ ceiling ∧ c = w.stop - w.start := by
  unfold Window.verdict Window.elapsed?
  by_cases hclock : w.start ≤ w.stop
  · by_cases hlong : ceiling < w.stop - w.start
    · simp [hclock, hlong, UInt64.not_le.2 hlong]
    · simp [hclock, hlong, UInt64.not_lt.1 hlong, eq_comm]
  · simp [hclock]

theorem Window.verdict_ne_failed (w : Window) (ceiling : Cycles) : w.verdict ceiling ≠ .failed := by
  unfold Window.verdict Window.elapsed?
  by_cases hclock : w.start ≤ w.stop <;> by_cases hlong : ceiling < w.stop - w.start <;>
    simp [hclock, hlong]

/-- A window by itself is thrown away only for its clock or for its length. -/
theorem Window.verdict_eq_reject_iff (w : Window) (ceiling : Cycles) (why : Rejection) :
    w.verdict ceiling = .reject why ↔
      w.stop < w.start ∧ why = .clockAnomaly ∨
        w.start ≤ w.stop ∧ ceiling < w.stop - w.start ∧ why = .outlier := by
  unfold Window.verdict Window.elapsed?
  by_cases hclock : w.start ≤ w.stop
  · by_cases hlong : ceiling < w.stop - w.start
    · simp [hclock, hlong, UInt64.not_lt.2 hclock, eq_comm]
    · simp [hclock, hlong, UInt64.not_lt.2 hclock]
  · simp [hclock, UInt64.not_le.1 hclock, eq_comm]

/-! ## Samples -/

/-- A sample whose ticks agree and whose code does not matter is judged by its window. -/
theorem Sample.verdict_eq_window {plan : LoopPlan} {s : Sample} (hticks : s.before = s.after)
    (hcode : s.window.code = 0 ∨ plan.onFailure = .ignore) :
    s.verdict plan = s.window.verdict plan.ceiling := by
  unfold Sample.verdict
  rcases hcode with hcode | hpolicy
  · simp [hticks, hcode]
  · simp [hticks, hpolicy]

theorem Sample.verdict_of_disturbed {plan : LoopPlan} {s : Sample} (h : s.before ≠ s.after) :
    s.verdict plan = .reject .tickChanged := by
  simp [Sample.verdict, h]

theorem Sample.verdict_of_retried {plan : LoopPlan} {s : Sample} (hticks : s.before = s.after)
    (hcode : s.window.code ≠ 0) (hpolicy : plan.onFailure = .retry) :
    s.verdict plan = .reject .failed := by
  simp [Sample.verdict, hticks, hcode, hpolicy]

theorem Sample.verdict_of_counted {plan : LoopPlan} {s : Sample} (h : s.CountedFailure plan) :
    s.verdict plan = .failed := by
  obtain ⟨hticks, hcode, hpolicy⟩ := h
  simp [Sample.verdict, hticks, hcode, hpolicy]

/-- The four ways in which a sample can be judged: its tick, its failure under either policy that
looks at failures, or its window. -/
theorem Sample.judged (plan : LoopPlan) (s : Sample) :
    s.before ≠ s.after ∨
      s.before = s.after ∧ s.window.code ≠ 0 ∧ plan.onFailure = .retry ∨
      s.CountedFailure plan ∨
      s.before = s.after ∧ (s.window.code = 0 ∨ plan.onFailure = .ignore) := by
  by_cases hticks : s.before = s.after
  · by_cases hcode : s.window.code = 0
    · exact .inr (.inr (.inr ⟨hticks, .inl hcode⟩))
    · cases hpolicy : plan.onFailure with
      | ignore => exact .inr (.inr (.inr ⟨hticks, .inr rfl⟩))
      | retry => exact .inr (.inl ⟨hticks, hcode, rfl⟩)
      | countSeparately => exact .inr (.inr (.inl ⟨hticks, hcode, hpolicy⟩))
  · exact .inl hticks

/-- A sample is accepted, with its length, exactly if it meets the four conditions. -/
theorem Sample.verdict_eq_accept_iff (plan : LoopPlan) (s : Sample) (c : Cycles) :
    s.verdict plan = .accept c ↔ s.Accepted plan ∧ c = s.window.stop - s.window.start := by
  unfold Sample.Accepted
  rcases s.judged plan with h | ⟨h, hcode, hpolicy⟩ | h | ⟨h, hcode⟩
  · simp [Sample.verdict_of_disturbed h, h]
  · simp [Sample.verdict_of_retried h hcode hpolicy, hcode, hpolicy]
  · rw [Sample.verdict_of_counted h]
    simp [h.2.1, h.2.2]
  · rw [Sample.verdict_eq_window h hcode, Window.verdict_eq_accept_iff]
    simp only [h, hcode, true_and, and_assoc]

theorem Sample.not_countedFailure {plan : LoopPlan} {s : Sample}
    (h : s.window.code = 0 ∨ plan.onFailure = .ignore) : ¬ s.CountedFailure plan := by
  rintro ⟨-, hcode, hpolicy⟩
  rcases h with hzero | hignore
  · exact hcode hzero
  · rw [hpolicy] at hignore; cases hignore

/-- A sample counts as a failure exactly under the policy that counts them. -/
theorem Sample.verdict_eq_failed_iff (plan : LoopPlan) (s : Sample) :
    s.verdict plan = .failed ↔ s.CountedFailure plan := by
  rcases s.judged plan with h | ⟨h, hcode, hpolicy⟩ | h | ⟨h, hcode⟩
  · simp [Sample.verdict_of_disturbed h, Sample.CountedFailure, h]
  · simp [Sample.verdict_of_retried h hcode hpolicy, Sample.CountedFailure, hpolicy]
  · simp [Sample.verdict_of_counted h, h]
  · rw [Sample.verdict_eq_window h hcode]
    simp [Window.verdict_ne_failed, Sample.not_countedFailure hcode]

/-- On a clock that went forward, the last condition is violated by windows over the ceiling. -/
theorem Sample.violates_outlier_iff {plan : LoopPlan} {s : Sample}
    (h : s.window.start ≤ s.window.stop) :
    s.violates plan .outlier = true ↔ plan.ceiling < s.window.stop - s.window.start := by
  simp [Sample.violates, UInt64.lt_iff_toNat_lt, UInt64.toNat_sub_of_le _ _ h]

/-- Where ticks agree and the code does not matter, only the window can violate a condition. -/
theorem Sample.firstViolation_eq_some_iff {plan : LoopPlan} {s : Sample} {why : Rejection}
    (hticks : s.before = s.after) (hcode : s.window.code = 0 ∨ plan.onFailure = .ignore) :
    s.firstViolation plan = some why ↔ s.window.verdict plan.ceiling = .reject why := by
  have htick : s.violates plan .tickChanged = false := by simp [Sample.violates, hticks]
  have hfail : s.violates plan .failed = false := by
    rcases hcode with hcode | hpolicy
    · simp [Sample.violates, hcode]
    · simp [Sample.violates, hpolicy]
  unfold Sample.firstViolation Rejection.inOrder
  rw [List.find?_cons_of_neg (by simp [htick]), List.find?_cons_of_neg (by simp [hfail]),
    Window.verdict_eq_reject_iff]
  by_cases hclock : s.window.start ≤ s.window.stop
  · have hback : s.violates plan .clockAnomaly = false := by
      simp [Sample.violates, UInt64.not_lt.2 hclock]
    rw [List.find?_cons_of_neg (by simp [hback])]
    by_cases hlong : plan.ceiling < s.window.stop - s.window.start
    · rw [List.find?_cons_of_pos ((Sample.violates_outlier_iff hclock).2 hlong)]
      simp [hclock, hlong, UInt64.not_lt.2 hclock, eq_comm]
    · rw [List.find?_cons_of_neg (by rwa [Sample.violates_outlier_iff hclock])]
      simp [hlong, UInt64.not_lt.2 hclock]
  · have hback : s.violates plan .clockAnomaly = true := by
      simp [Sample.violates, UInt64.not_le.1 hclock]
    rw [List.find?_cons_of_pos hback]
    simp [hclock, UInt64.not_le.1 hclock, eq_comm]

/-- A sample that does not count as a failure is thrown away for the first condition that it
violates, and for no other. -/
theorem Sample.verdict_eq_reject_iff (plan : LoopPlan) (s : Sample) (why : Rejection) :
    s.verdict plan = .reject why ↔
      ¬ s.CountedFailure plan ∧ s.firstViolation plan = some why := by
  rcases s.judged plan with h | ⟨h, hcode, hpolicy⟩ | h | ⟨h, hcode⟩
  · have hfirst : s.firstViolation plan = some .tickChanged := by
      simp [Sample.firstViolation, Rejection.inOrder, Sample.violates, h]
    rw [Sample.verdict_of_disturbed h, hfirst]
    simp [Sample.CountedFailure, h]
  · have hfirst : s.firstViolation plan = some .failed := by
      simp [Sample.firstViolation, Rejection.inOrder, Sample.violates, h, hcode, hpolicy]
    rw [Sample.verdict_of_retried h hcode hpolicy, hfirst]
    simp [Sample.CountedFailure, hpolicy]
  · simp [Sample.verdict_of_counted h, h]
  · rw [Sample.verdict_eq_window h hcode, Sample.firstViolation_eq_some_iff h hcode,
      ← Sample.verdict_eq_failed_iff, Sample.verdict_eq_window h hcode]
    simp [Window.verdict_ne_failed]

end LatencyGauge
