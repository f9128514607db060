/-
What a primary measures, as it will be reported. Its tallies take up one verdict after the other, so
every loop adds up; and it has an unfiltered average from the pass on that its plan wants, or never.
A core that exits with a measurement exits with one of the form that belongs to the workload.
-/
import LatencyGauge.Proofs.Host.Positions
import LatencyGauge.Proofs.Measure.Accounts

namespace LatencyGauge

variable {p : RunPlan} {i n : Nat} {r : Reading} {s : Shared} {x : Primary} {pos : Position}

/-! ## Counted verdicts -/

/-- A tally that was counted, of so many verdicts at most. -/
def Tally.Counted (baseline : Cycles) (n : Nat) (t : Tally) : Prop :=
  ∃ vs, vs.length ≤ n ∧ t = Tally.of baseline vs

theorem Tally.counted_start (baseline : Cycles) (n : Nat) :
    (Tally.start baseline).Counted baseline n := ⟨[], Nat.zero_le n, (Tally.of_nil baseline).symm⟩

theorem Tally.Counted.take {baseline : Cycles} {t : Tally} (h : t.Counted baseline n)
    (v : Verdict) : (t.take v).Counted baseline (n + 1) := by
  obtain ⟨vs, hlength, rfl⟩ := h
  refine ⟨vs ++ [v], ?_, (Tally.of_append baseline vs v).symm⟩
  rw [List.length_append]
  exact Nat.succ_le_succ hlength

theorem Tally.Counted.mono {baseline : Cycles} {t : Tally} {n' : Nat} (h : t.Counted baseline n)
    (hle : n ≤ n') : t.Counted baseline n' := by
  obtain ⟨vs, hlength, rfl⟩ := h
  exact ⟨vs, hlength.trans hle, rfl⟩

/-- The counters of a loop add up to its attempts, and as numbers they do so if the attempts are
fewer than what words can count. -/
structure LoopReport.AddsUp (n : Nat) (l : LoopReport) : Prop where
  words : l.attempts = l.accepted + l.failed + l.rejected.total
  numbers : n < attemptBound →
    l.attempts.toNat = l.accepted.toNat + l.failed.toNat + l.rejected.total.toNat

theorem Tally.Counted.addsUp {baseline : Cycles} {t : Tally} (h : t.Counted baseline n)
    (name : String) (plan : LoopPlan) (iterations : Nat) :
    (t.report name plan iterations).AddsUp n := by
  obtain ⟨vs, hlength, rfl⟩ := h
  have hcounts := length_eq_counts vs
  constructor
  · simp only [Tally.report, Tally.of, Tally.rejected, Rejections.total, Totals.recordAll_count,
      Totals.empty, UInt64.zero_add]
    rw [hcounts]
    simp only [UInt64.ofNat_add]
  · intro few
    have few' : vs.length < attemptBound := Nat.lt_of_le_of_lt hlength few
    simp only [Tally.report, Tally.of_count few', Tally.of_rejected_total few']
    simp only [Tally.of]
    rw [toNat_ofNat_word few', toNat_ofNat_word (by omega), hcounts]

/-! ## What a primary will report -/

/-- What a step does to the tallies of a primary: it takes one verdict up at most. -/
inductive PairTally.TakesUp (t t' : PairTally) : Prop
  | nothing (hforward : t'.forward = t.forward) (hreverse : t'.reverse = t.reverse)
  | forward (v : Verdict) (hforward : t'.forward = t.forward.take v)
      (hreverse : t'.reverse = t.reverse)
  | reverse (v : Verdict) (hforward : t'.forward = t.forward)
      (hreverse : t'.reverse = t.reverse.take v)

theorem Primary.judge_tally (after : Tick) : x.tally.TakesUp (x.judge p after).tally := by
  unfold Primary.judge
  dsimp only
  generalize Sample.verdict _ p.loop = v
  split
  · split
    · unfold Primary.judgeForward
      cases v with
      | reject why => exact .forward (.reject why) rfl rfl
      | failed => exact .forward .failed rfl rfl
      | accept cycles => exact .forward (.accept cycles) rfl rfl
    · exact .reverse v rfl rfl
  · exact .forward v rfl rfl

theorem Primary.choose_tally : (x.choose p).tally = x.tally := by
  unfold Primary.choose
  split_ifs <;> rfl

theorem Primary.windowed_tally (w : Window) : (x.windowed w).tally = x.tally := by
  unfold Primary.windowed
  split <;> rfl

theorem Primary.step_tally : x.tally.TakesUp (x.step p i r s).1.tally := by
  have hsame {x' : Primary} (h : x'.tally = x.tally) : x.tally.TakesUp x'.tally :=
    .nothing (by rw [h]) (by rw [h])
  unfold Primary.step
  split
  case h_12 => exact x.judge_tally _
  case h_1 =>
    split
    · exact hsame rfl
    · dsimp only
      split <;> exact hsame rfl
  case h_2 => exact hsame Primary.choose_tally
  case h_3 => split_ifs <;> exact hsame rfl
  case h_8 => exact hsame (Primary.windowed_tally _)
  case h_9 => exact hsame (Primary.windowed_tally _)
  all_goals exact hsame rfl

/-- Whether a primary is past the unfiltered pass. -/
def Duty.averaged : Duty → Bool
  | .leaving | .announcing | .ended => true
  | _ => false

/-- A primary that has met no fault has an unfiltered average exactly from the moment on in which it
is past the pass, if its plan wants one. -/
structure Primary.Averages (p : RunPlan) (x : Primary) : Prop where
  shown : x.fault = none → x.unfiltered.isSome = (x.duty.averaged && p.wantsUnfiltered)
  during : ∀ start, x.duty = .averaging start → p.wantsUnfiltered = true

theorem Primary.averages_start (p : RunPlan) : (Primary.start p).Averages p where
  shown _ := by rcases Primary.start_duty p with hd | hd <;> rw [hd] <;> rfl
  during start hd := by
    rcases Primary.start_duty p with hd' | hd' <;> rw [hd'] at hd <;> cases hd

theorem Primary.windowed_unfiltered (w : Window) : (x.windowed w).unfiltered = x.unfiltered := by
  unfold Primary.windowed
  split <;> rfl

theorem Primary.judge_unfiltered (after : Tick) :
    (x.judge p after).unfiltered = x.unfiltered := by
  unfold Primary.judge
  dsimp only
  split
  · split
    · unfold Primary.judgeForward
      split <;> rfl
    · rfl
  · rfl

/-- A step in the middle of a window. -/
theorem Primary.step_on (hspent : x.duty.spent = false) (hconnecting : x.duty ≠ .connecting)
    (hchoosing : x.duty ≠ .choosing) : (x.step p i r s).1.fault = x.fault ∧
      (x.step p i r s).1.unfiltered = x.unfiltered ∧ (x.step p i r s).1.duty.spent = false := by
  have hprepared : (x.prepared p).duty.spent = false := by
    rcases x.prepared_duty (p := p) with hd | hd | hd <;> rw [hd] <;> rfl
  unfold Primary.step
  split
  case h_1 hd => exact absurd hd hconnecting
  case h_2 hd => exact absurd hd hchoosing
  case h_3 =>
    split_ifs
    · exact ⟨rfl, rfl, rfl⟩
    · exact ⟨rfl, rfl, hprepared⟩
    · exact ⟨rfl, rfl, hprepared⟩
  case h_4 => exact ⟨rfl, rfl, hprepared⟩
  case h_6 => exact ⟨rfl, rfl, p.windowDuty_suits.1⟩
  case h_8 start _ =>
    refine ⟨Primary.windowed_fault _, Primary.windowed_unfiltered _, ?_⟩
    rcases Primary.windowed_duty (x := { x with held := (x.operate p).2 })
      ⟨start, r.cycles, (x.operate p).1⟩ with hd | hd <;> simp only [hd] <;> rfl
  case h_9 w _ =>
    refine ⟨Primary.windowed_fault w, Primary.windowed_unfiltered w, ?_⟩
    rcases x.windowed_duty w with hd | hd <;> simp only [hd] <;> rfl
  case h_12 =>
    refine ⟨Primary.judge_fault _, Primary.judge_unfiltered _, ?_⟩
    rcases x.judge_duty (p := p) (s.observe p.marker r).1 with hd | hd | hd | ⟨v, hd⟩ <;>
      simp only [hd] <;> rfl
  case h_13 v _ =>
    refine ⟨rfl, rfl, ?_⟩
    rcases v.duty_cases with hd | hd <;> simp only [hd] <;> rfl
  case h_15 hd | h_16 hd | h_17 hd | h_18 hd | h_19 hd =>
    rw [hd] at hspent
    cases hspent
  all_goals exact ⟨rfl, rfl, rfl⟩

/-- What goes on measuring has no average yet. -/
theorem Primary.Averages.of_measuring {x' : Primary} (h : x.Averages p)
    (hbefore : x.duty.averaged = false) (hfault : x'.fault = x.fault)
    (hunfiltered : x'.unfiltered = x.unfiltered) (hduty : x'.duty.spent = false) :
    x'.Averages p where
  shown hnone := by
    have hshown := h.shown (hfault ▸ hnone)
    rw [hbefore, Bool.false_and] at hshown
    rw [hunfiltered, hshown]
    cases hd : x'.duty <;> rw [hd] at hduty <;> first | rfl | cases hduty
  during start hd := by
    rw [hd] at hduty
    cases hduty

theorem Primary.Averages.step (h : x.Averages p) : (x.step p i r s).1.Averages p := by
  cases hduty : x.duty with
  | connecting =>
    simp only [Primary.step, hduty]
    split
    · -- a primary that is refused its link has a fault from then on
      exact ⟨by simp, by simp⟩
    · dsimp only
      split
      · exact h.of_measuring (by rw [hduty]; rfl) rfl rfl rfl
      · exact h
  | choosing =>
    have hbefore : x.duty.averaged = false := by
      rw [hduty]
      rfl
    have hnone : x.fault = none → x.unfiltered.isSome = false := fun hfault => by
      simpa [hbefore] using h.shown hfault
    simp only [Primary.step, hduty, Primary.choose]
    split_ifs with _ _ _ hwants
    · refine h.of_measuring hbefore rfl rfl ?_
      show x.duty.spent = false
      rw [hduty]
      rfl
    · exact h.of_measuring hbefore rfl rfl rfl
    · exact h.of_measuring hbefore rfl rfl rfl
    · exact ⟨hnone, fun _ _ => hwants⟩
    · refine ⟨fun hfault => ?_, by simp⟩
      rw [Bool.eq_false_iff.2 hwants]
      exact hnone hfault
  | clearing | requesting | opening | starting | working | exchanging | settling | closing
    | restoring | recovering =>
    obtain ⟨hfault, hunfiltered, hspent⟩ := x.step_on (p := p) (i := i) (r := r) (s := s)
      (by rw [hduty]; rfl) (by rw [hduty]; rintro ⟨⟩) (by rw [hduty]; rintro ⟨⟩)
    exact h.of_measuring (by rw [hduty]; rfl) hfault hunfiltered hspent
  | averaging start =>
    have hwants := h.during start hduty
    cases start with
    | none =>
      simp only [Primary.step, hduty]
      refine ⟨fun hfault => ?_, fun _ _ => hwants⟩
      simpa [hduty, Duty.averaged] using h.shown hfault
    | some start =>
      simp only [Primary.step, hduty]
      exact ⟨fun _ => by rw [hwants]; rfl, by simp⟩
  | leaving =>
    have hshown := h.shown
    rw [hduty] at hshown
    simp only [Primary.step, hduty]
    refine ⟨fun hfault => ?_, ?_⟩
    · dsimp only
      split <;> exact hshown hfault
    · dsimp only
      split <;> simp
  | announcing =>
    have hshown := h.shown
    rw [hduty] at hshown
    simp only [Primary.step, hduty]
    exact ⟨hshown, by simp⟩
  | ended =>
    simp only [Primary.step, hduty]
    exact h

/-! ## What a core will report -/

/-- A primary that did so many steps at most. -/
structure Primary.Told (p : RunPlan) (n : Nat) (x : Primary) : Prop where
  forward : x.tally.forward.Counted p.loop.baseline n
  reverse : x.tally.reverse.Counted p.reverseBaseline n
  averages : x.Averages p

theorem Primary.told_start (p : RunPlan) (n : Nat) : (Primary.start p).Told p n :=
  ⟨Tally.counted_start _ n, Tally.counted_start _ n, Primary.averages_start p⟩

theorem Primary.Told.step (h : x.Told p n) : (x.step p i r s).1.Told p (n + 1) := by
  have haverages : (x.step p i r s).1.Averages p := h.averages.step
  cases x.step_tally (p := p) (i := i) (r := r) (s := s) with
  | nothing hforward hreverse =>
    refine ⟨?_, ?_, haverages⟩
    · rw [hforward]
      exact h.forward.mono (Nat.le_succ n)
    · rw [hreverse]
      exact h.reverse.mono (Nat.le_succ n)
  | forward v hforward hreverse =>
    refine ⟨?_, ?_, haverages⟩
    · rw [hforward]
      exact h.forward.take v
    · rw [hreverse]
      exact h.reverse.mono (Nat.le_succ n)
  | reverse v hforward hreverse =>
    refine ⟨?_, ?_, haverages⟩
    · rw [hforward]
      exact h.forward.mono (Nat.le_succ n)
    · rw [hreverse]
      exact h.reverse.take v

/-- What a measurement is like under a plan, after so many events at most: it is a pair of loops for
the workload that comes with its inverse, and otherwise a loop with an unfiltered average if that
was asked for and the workload is not one that needs a receiver; and every loop adds up. -/
structure Measurement.Suits (p : RunPlan) (n : Nat) (m : Measurement) : Prop where
  paired : (∃ report, m = .paired report) ↔ p.workload = .allocFree
  unfiltered : ∀ report average, m = .single report average →
    (average.isSome = true ↔
      p.unfiltered = true ∧ (p.workload = .null ∨ ∃ k, p.workload = .spin k))
  loops : ∀ l ∈ m.loops, l.AddsUp n

theorem RunPlan.wantsUnfiltered_iff (hsamples : p.loop.samples ≠ 0) : p.wantsUnfiltered = true ↔
    p.unfiltered = true ∧ (p.workload = .null ∨ ∃ k, p.workload = .spin k) := by
  unfold RunPlan.wantsUnfiltered RunPlan.needsReceivers
  cases p.workload <;> simp [Workload.signals, Workload.isPaired, hsamples]

theorem Workload.isPaired_iff (w : Workload) : w.isPaired = true ↔ w = .allocFree := by
  cases w <;> simp [Workload.isPaired]

theorem Primary.Told.measurement_suits (h : x.Told p n) (hsamples : p.loop.samples ≠ 0)
    (hfault : x.fault = none) (hended : x.duty = .ended) :
    (x.measurement p i).Suits p n := by
  have haverage : x.unfiltered.isSome = p.wantsUnfiltered := by
    simpa [hended, Duty.averaged] using h.averages.shown hfault
  unfold Primary.measurement
  dsimp only
  split
  case isTrue hpaired =>
    refine ⟨⟨fun _ => (p.workload.isPaired_iff).1 hpaired, fun _ => ⟨_, rfl⟩⟩, by simp, ?_⟩
    intro l hl
    rcases List.mem_cons.1 hl with rfl | hl
    · exact h.forward.addsUp ..
    · cases List.mem_singleton.1 hl
      exact h.reverse.addsUp ..
  case isFalse hsingle =>
    refine ⟨⟨by simp, fun hw => absurd ((p.workload.isPaired_iff).2 hw) hsingle⟩, ?_, ?_⟩
    · intro report average heq
      cases heq
      rw [haverage, RunPlan.wantsUnfiltered_iff hsamples]
    · intro l hl
      cases List.mem_singleton.1 hl
      exact h.forward.addsUp ..

theorem Measurement.Suits.mono {measurement : Measurement} {n' : Nat}
    (h : measurement.Suits p n) (hle : n ≤ n') : measurement.Suits p n' where
  paired := h.paired
  unfiltered := h.unfiltered
  loops l hl := ⟨(h.loops l hl).words, fun few => (h.loops l hl).numbers (hle.trans_lt few)⟩

/-- What is known of a core that measures or has measured, after so many events at most. -/
def Position.Told (p : RunPlan) (n : Nat) : Position → Prop
  | .measuring x => x.Told p n
  | .exited (.ok (.measured measurement)) => measurement.Suits p n
  | _ => True

theorem Role.work_told (role : Role) : (role.work p).Told p n := by
  cases role with
  | primary => exact Primary.told_start p n
  | receiver | flusher | interferer | idle => trivial

theorem Position.Told.mono {n' : Nat} (h : pos.Told p n) (hle : n ≤ n') : pos.Told p n' := by
  cases pos with
  | measuring x => exact ⟨h.forward.mono hle, h.reverse.mono hle, h.averages⟩
  | exited result =>
    rcases result with f | o
    · trivial
    · cases o with
      | measured measurement => exact Measurement.Suits.mono h hle
      | served | flushed | interfered | idle => trivial
  | binding | marking | entering | answering | flushing | noting | interfering | idling | lost =>
    trivial

theorem Position.Told.step (hsamples : p.loop.samples ≠ 0) (h : pos.Told p n) :
    (pos.step p i r s).1.Told p (n + 1) := by
  cases pos with
  | measuring x =>
    by_cases hended : x.duty = .ended
    · have hstep : (measuring x).step p i r s = (.exited (x.result p i), s) := if_pos hended
      rw [hstep, Primary.result]
      cases hfault : x.fault with
      | some f => trivial
      | none =>
        have hsuits := Primary.Told.measurement_suits (i := i) h hsamples hfault hended
        exact hsuits.mono (Nat.le_succ n)
    · rw [Position.step_measuring hended]
      exact Primary.Told.step h
  | entering g =>
    cases g with
    | inside => exact Role.work_told _
    | outside | waiting => trivial
  | exited result => exact Position.Told.mono h (Nat.le_succ n)
  | binding | marking | answering | flushing | interfering | idling =>
    simp only [Position.step]
    split <;> trivial
  | noting | lost => trivial

end LatencyGauge
