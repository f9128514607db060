/-
Runs with a probe. A run that ends has made samples, one by one, until nothing more was wanted or
allowed for the first time; its record holds the notes of the warm-up and of these samples and
nothing else, and its report accounts for them.
-/
import LatencyGauge.Proofs.Measure.Accounts
import LatencyGauge.Proofs.Measure.Record
import LatencyGauge.Simulate.Script

namespace LatencyGauge

variable {W : Type}

/-! ## Where a loop stops -/

/-- A loop stops behind these samples and not before: as long as one of them was still to come,
iterations were missing and attempts were left. -/
structure LoopPlan.StopsAfter (plan : LoopPlan) (samples : List Sample) : Prop where
  wanted : ∀ k < samples.length, plan.completedIn (samples.take k) < plan.samples.toNat
  allowed : ∀ k < samples.length, ∀ most, plan.maxAttempts = some most → k < most.toNat
  ended : plan.completedIn samples = plan.samples.toNat ∨
    ∃ most, plan.maxAttempts = some most ∧ samples.length = most.toNat

theorem Tally.of_completed (plan : LoopPlan) (baseline : Cycles) (samples : List Sample) :
    (Tally.of baseline (samples.map (Sample.verdict · plan))).completed =
      plan.completedIn samples :=
  (plan.completedIn_eq samples).symm

theorem Tally.of_attempts (plan : LoopPlan) (baseline : Cycles) (samples : List Sample) :
    (Tally.of baseline (samples.map (Sample.verdict · plan))).attempts = samples.length := by
  simp [Tally.of]

theorem Tally.goesOn_iff (t : Tally) (plan : LoopPlan) :
    t.goesOn plan = true ↔ t.completed < plan.samples.toNat ∧
      ∀ most, plan.maxAttempts = some most → t.attempts < most.toNat := by
  simp [Tally.goesOn, LoopPlan.allows_iff]

/-! ## The invariant -/

/-- A recorded loop that has made `samples`: they are counted and written down, and neither the
iterations nor the attempts are more than the plan has room for. -/
structure LoopPlan.Sampled (plan : LoopPlan) (before : List (Note W))
    (s : Tally × (W × List (Note W))) (samples : List Sample) : Prop where
  tally : s.1 = Tally.of plan.baseline (samples.map (Sample.verdict · plan))
  record : s.2.2 = before ++ samples.flatMap (Sample.notes plan)
  wanted : s.1.completed ≤ plan.samples.toNat
  allowed : ∀ most, plan.maxAttempts = some most → s.1.attempts ≤ most.toNat

theorem LoopPlan.sampled_nil (plan : LoopPlan) (w : W) (before : List (Note W)) :
    plan.Sampled before (.start plan.baseline, (w, before)) [] where
  tally := (Tally.of_nil _).symm
  record := by simp
  wanted := Nat.zero_le _
  allowed _ _ := Nat.zero_le _

/-- A step of a loop that goes on makes one more sample. -/
theorem LoopPlan.Sampled.step {plan : LoopPlan} {before : List (Note W)} (r : Rig W) (p : Probe W)
    {s : Tally × (W × List (Note W))} {samples : List Sample} (hgo : s.1.goesOn plan = true)
    (h : plan.Sampled before s samples) :
    ∃ sample, plan.Sampled before (r.recorded.step plan p.recorded s) (samples ++ [sample]) := by
  obtain ⟨t, w, record⟩ := s
  obtain ⟨sample, w', hstep⟩ := r.step_recorded plan p t w record
  obtain ⟨hwanted, hallowed⟩ := (t.goesOn_iff plan).1 hgo
  refine ⟨sample, ?_⟩
  rw [hstep]
  refine ⟨?_, ?_, ?_, fun most hmost => ?_⟩
  · have htally : t = _ := h.tally
    rw [List.map_append, List.map_singleton, Tally.of_append, ← htally]
  · have hrecord : record = _ := h.record
    simp [hrecord]
  · rw [Tally.take_completed]
    split <;> omega
  · have hlt := hallowed most hmost
    rw [Tally.take_attempts]
    omega

/-! ## Runs -/

/-- A recorded run consists of its warm-up and of samples, and stops behind the last of them. -/
theorem Rig.runProbe_recorded {r : Rig W} {plan : LoopPlan} {name : String} {p : Probe W}
    {fuel : Nat} {w w' : W} {report : LoopReport} {record : List (Note W)}
    (h : r.recorded.runProbe plan name p.recorded fuel (w, []) = some (report, (w', record))) :
    ∃ (windows : List Window) (samples : List Sample),
      record = windows.flatMap Window.notes ++ samples.flatMap (Sample.notes plan) ∧
      windows.length = plan.warmup.toNat ∧ samples.length ≤ fuel ∧ plan.StopsAfter samples ∧
      plan.completedIn samples ≤ plan.samples.toNat ∧
      report = (Tally.of plan.baseline (samples.map (Sample.verdict · plan))).report name plan
        (plan.completedIn samples) := by
  obtain ⟨windows, hwindows, hwarm⟩ := p.warmUp_recorded plan.warmup.toNat w []
  simp only [Rig.runProbe, hwarm, List.nil_append, Option.map_eq_some_iff] at h
  obtain ⟨⟨t, w'', record'⟩, hloop, heq⟩ := h
  cases heq
  -- the list left behind is the list of samples; the invariant says what the state knows of it
  obtain ⟨samples, hlength, hend, hparts⟩ := iterate_trail
    (fun s l hgo (hs : plan.Sampled (windows.flatMap Window.notes) s l) =>
      hs.step r p (by simpa using hgo))
    (plan.sampled_nil (p.warmUp plan.warmup.toNat w) _) hloop
  have hstop : t.goesOn plan = false := by simpa using stop_of_iterate hloop
  have htally : t = _ := hend.tally
  have hcompleted : t.completed = plan.completedIn samples := by
    rw [htally, List.nil_append, Tally.of_completed]
  have hattempts : t.attempts = samples.length := by
    rw [htally, List.nil_append, Tally.of_attempts]
  have hwanted : t.completed ≤ plan.samples.toNat := hend.wanted
  have hallowed : ∀ most, plan.maxAttempts = some most → t.attempts ≤ most.toNat := hend.allowed
  have hbefore : ∀ k < samples.length, plan.completedIn (samples.take k) < plan.samples.toNat ∧
      ∀ most, plan.maxAttempts = some most → k < most.toNat := by
    intro k hk
    obtain ⟨⟨u, v, rec⟩, hgo, hu⟩ := hparts k hk
    have hu' : u = _ := hu.tally
    have hgoes : u.goesOn plan = true := by simpa using hgo
    rw [hu', Tally.goesOn_iff, Tally.of_completed, Tally.of_attempts] at hgoes
    simpa [Nat.min_eq_left (Nat.le_of_lt hk)] using hgoes
  refine ⟨windows, samples, by simpa using hend.record, hwindows, hlength,
    ⟨fun k hk => (hbefore k hk).1, fun k hk => (hbefore k hk).2, ?_⟩, by omega, ?_⟩
  · rw [← hcompleted, ← hattempts]
    exact plan.ended_of_stop hwanted hallowed hstop
  · rw [← hcompleted, htally, List.nil_append]

/-- Whether a note is about a window that was measured. -/
def Note.isMeasured : Note W → Bool
  | .measured _ => true
  | _ => false

theorem countP_measured_pauseNotes (c : Cycles) :
    (pauseNotes c : List (Note W)).countP Note.isMeasured = 0 := by
  unfold pauseNotes
  split <;> rfl

theorem countP_measured_recoveryNotes (plan : LoopPlan) (v : Verdict) :
    (plan.recoveryNotes v : List (Note W)).countP Note.isMeasured = 0 := by
  unfold LoopPlan.recoveryNotes
  split
  · exact countP_measured_pauseNotes _
  · rfl

theorem countP_measured_windows (windows : List Window) :
    (windows.flatMap Window.notes : List (Note W)).countP Note.isMeasured = windows.length := by
  induction windows with
  | nil => rfl
  | cons x windows ih => simp [Window.notes, Note.isMeasured, List.countP_cons, ih]

theorem countP_measured_samples (plan : LoopPlan) (samples : List Sample) :
    (samples.flatMap (Sample.notes plan) : List (Note W)).countP Note.isMeasured =
      samples.length := by
  induction samples with
  | nil => rfl
  | cons s samples ih =>
    rw [List.flatMap_cons, List.countP_append, ih]
    simp [Sample.notes, Note.isMeasured, List.countP_cons, List.countP_append,
      countP_measured_pauseNotes, countP_measured_recoveryNotes]
    omega

/-- Whenever a run with a probe ends within what words can count, it has measured the windows of
the warm-up and then the samples of its attempts, in this order and nothing else; it stopped behind
the first sample after which nothing more was wanted or allowed; and its report accounts for the
samples. -/
theorem Rig.runProbe_accounts {r : Rig W} {plan : LoopPlan} {name : String} {p : Probe W}
    {fuel : Nat} {w w' : W} {report : LoopReport} (hfuel : fuel < attemptBound)
    (h : r.runProbe plan name p fuel w = some (report, w')) :
    ∃ (record : List (Note W)) (windows : List Window) (samples : List Sample),
      r.recorded.runProbe plan name p.recorded fuel (w, []) = some (report, (w', record)) ∧
      record = windows.flatMap Window.notes ++ samples.flatMap (Sample.notes plan) ∧
      windows.length = plan.warmup.toNat ∧
      record.countP Note.isMeasured = plan.warmup.toNat + report.attempts.toNat ∧
      report.Accounts plan plan.baseline samples ∧
      report.completed ≤ plan.samples ∧
      plan.StopsAfter samples ∧
      ∀ c target, .budgetSpent c target ∈ report.cautions ↔
        report.completed < plan.samples ∧ c = report.completed ∧ target = plan.samples := by
  obtain ⟨record, hrun⟩ := Rig.exists_record_of_runProbe h
  obtain ⟨windows, samples, hrecord, hwindows, hlength, hstops, hwanted, hreport⟩ :=
    Rig.runProbe_recorded hrun
  have hfew : samples.length < attemptBound := Nat.lt_of_le_of_lt hlength hfuel
  have haccounts : report.Accounts plan plan.baseline samples :=
    hreport ▸ Tally.report_accounts plan plan.baseline name _ hfew
  have hdone : report.completed = UInt64.ofNat (plan.completedIn samples) := by
    rw [hreport, Tally.report, Tally.of_completed]
  have hword : (UInt64.ofNat (plan.completedIn samples)).toNat = plan.completedIn samples :=
    toNat_ofNat_word (Nat.lt_of_le_of_lt List.countP_le_length hfew)
  refine ⟨record, windows, samples, hrun, hrecord, hwindows, ?_, haccounts, ?_, hstops, ?_⟩
  · rw [hrecord, List.countP_append, countP_measured_windows, countP_measured_samples, hwindows,
      haccounts.attempts]
  · rw [hdone, UInt64.le_iff_toNat_le, hword]
    exact hwanted
  · intro c target
    rw [hdone, UInt64.lt_iff_toNat_lt, hword, hreport]
    exact Tally.budgetSpent_mem_cautions ..

/-! ## A troubled run -/

/-- Two samples in at most eight attempts, with every wait and a low ceiling. -/
def troubledPlan : LoopPlan :=
  { LoopPlan.standard with
    samples := 2, maxAttempts := some 8, warmup := 1, baseline := 10, ceiling := 100,
    quiescence := 7, settle := 3 }

/-- A warm-up, an interrupt, a failure, a clock set back, a long window, and a good one. -/
def troubledScript : Script :=
  [⟨none, 5, 0, 0⟩, ⟨none, 10, 1, 0⟩, ⟨none, 10, 0, -1⟩, ⟨some 0, 1, 0, 0⟩, ⟨none, 200, 0, 0⟩,
    ⟨none, 12, 0, 0⟩]

/-- The troubled script takes five attempts to two iterations, of which one is a failure. -/
theorem Rig.runProbe_accounts_troubled :
    let r := Stage.rig (Stage.observe (.counter 0))
    ∃ report w samples,
      r.runProbe troubledPlan "troubled" (r.timed troubledScript.operation) 8 (.at 20) =
        some (report, w) ∧
      8 < attemptBound ∧ report.Accounts troubledPlan 10 samples ∧
      troubledPlan.StopsAfter samples ∧ samples.length = 5 ∧
      samples.countP (Sample.Accepted troubledPlan ·) = 1 ∧
      samples.countP (Sample.CountedFailure troubledPlan ·) = 1 := by
  intro r
  have hends : ((r.runProbe troubledPlan "troubled" (r.timed troubledScript.operation) 8
      (.at 20)).map fun x => (x.1.attempts, x.1.accepted, x.1.failed)) = some (5, 1, 1) := by
    decide +kernel
  obtain ⟨⟨report, w⟩, hrun, hcounts⟩ := Option.map_eq_some_iff.1 hends
  obtain ⟨record, windows, samples, -, -, -, -, haccounts, -, hstops, -⟩ :=
    Rig.runProbe_accounts (by decide) hrun
  simp only [Prod.mk.injEq] at hcounts
  obtain ⟨hattempts, haccepted, hfailed⟩ := hcounts
  refine ⟨report, w, samples, hrun, by decide, haccounts, hstops, ?_, ?_, ?_⟩
  · rw [← haccounts.attempts, hattempts]; rfl
  · rw [← haccounts.accepted, haccepted]; rfl
  · rw [← haccounts.failed, hfailed]; rfl

end LatencyGauge
