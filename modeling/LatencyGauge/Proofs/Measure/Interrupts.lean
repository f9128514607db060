/-
Interrupts injected by a synthetic operation. An interrupt advances the counter inside the window,
so the oracle shows another tick after it and the sample is thrown away; a call without one takes
its fixed cost, which is accepted. So exactly the disturbed attempts are thrown away, whatever is
drawn, and the statistics are those of the undisturbed ones.
-/
import LatencyGauge.Proofs.Measure.Staged
import LatencyGauge.Proofs.Measure.Trial
import LatencyGauge.Proofs.Statistics.Exact
import LatencyGauge.Simulate.Synthetic

namespace LatencyGauge

variable {R : Type}

/-! ## Calls -/

/-- Whether the next call of a synthetic operation is disturbed. -/
def Synthetic.flips? (op : Synthetic R) : Bool := (op.draw op.source).1

/-- A synthetic operation after a call. -/
def Synthetic.called (op : Synthetic R) : Synthetic R :=
  { op with
    source := (op.draw op.source).2
    flips := op.flips + (if op.flips? then 1 else 0) }

theorem Synthetic.invoke_eq (op : Synthetic R) (s : Stage) :
    Synthetic.invoke (op, s) = (op.code, (op.called,
      (if op.flips? then { s with panel := s.panel.advance 0 } else s).advance op.cost)) := rfl

/-- What does not change about a synthetic operation. -/
structure Synthetic.Alike (op op' : Synthetic R) : Prop where
  code : op'.code = op.code
  cost : op'.cost = op.cost
  draw : op'.draw = op.draw

theorem Synthetic.Alike.refl (op : Synthetic R) : op.Alike op := ⟨rfl, rfl, rfl⟩

theorem Synthetic.alike_called (op : Synthetic R) : op.Alike op.called := ⟨rfl, rfl, rfl⟩

theorem Synthetic.Alike.trans {a b c : Synthetic R} (h : a.Alike b) (h' : b.Alike c) :
    a.Alike c :=
  ⟨h'.code.trans h.code, h'.cost.trans h.cost, h'.draw.trans h.draw⟩

/-! ## The rig -/

section Attempts

variable (o : Oracle)

/-- The rig of a synthetic operation beside a stage, with an oracle over the counters. -/
def Synthetic.rigWith : Rig (Synthetic R × Stage) := Synthetic.rig (Stage.rig (Stage.observe o))

theorem Synthetic.rigWith_seen :
    (Synthetic.rigWith o : Rig (Synthetic R × Stage)).Seen Prod.snd (Stage.rig (Stage.observe o)) :=
  ⟨fun _ => rfl, fun _ _ => rfl, fun _ => rfl⟩

theorem Synthetic.rigWith_keeps :
    (Synthetic.rigWith o : Rig (Synthetic R × Stage)).Keeps Prod.fst :=
  ⟨fun _ => rfl, fun _ _ => rfl, fun _ => rfl⟩

end Attempts

/-- An attempt whose call does not carry the clock over its end is thrown away for its tick if an
interrupt passed, and else accepted with the cost of the call. -/
theorem Synthetic.tried_verdict {o : Oracle} (shown : o.Shows 0) {plan : LoopPlan}
    {op : Synthetic R} {s : Stage} {f : Attempt (Synthetic R × Stage)} {v : Synthetic R × Stage}
    (h : (Synthetic.rigWith o).tried plan Synthetic.invoke (op, s) = (f, v))
    (succeeds : op.code = 0) (short : op.cost ≤ plan.ceiling)
    (hclock : f.call.world.2.clock.toNat + op.cost.toNat < UInt64.size) :
    v.1 = op.called ∧
      f.sample.verdict plan = if op.flips? then .reject .tickChanged else .accept op.cost := by
  have hf := (Synthetic.rigWith_seen o).tried h
  obtain ⟨hworld, hleft⟩ := (Synthetic.rigWith_keeps o).tried h
  have hcall : f.call.world = (op, f.call.world.2) := Prod.ext hworld rfl
  have hcode := hf.code
  have hstop := hf.stop
  have hafter := hf.after
  rw [hcall, Synthetic.invoke_eq] at hleft hcode hstop hafter
  refine ⟨hleft, ?_⟩
  cases hflips : op.flips? with
  | true =>
    -- the counter was advanced in between, and the oracle shows it
    refine Sample.verdict_of_disturbed fun hsame => shown.value_advance f.call.world.2.panel ?_
    have hticks : f.before = f.after := hsame
    rw [hf.before, hafter, hflips] at hticks
    exact hticks.symm
  | false =>
    simp only [hflips, Bool.false_eq_true, if_false] at hstop hafter
    have hadvance : f.stop = f.start + op.cost := by
      rw [hstop, hf.start, Stage.clock_advance]
    rw [← hf.start] at hclock
    have hticks : f.before = f.after := hf.before.trans hafter.symm
    have hlength : f.sample.window.elapsed? = some op.cost :=
      Window.elapsed?_of_advance hadvance hclock
    rw [Sample.verdict_eq_window hticks (.inl (hcode.trans succeeds)), Window.verdict, hlength]
    simp [UInt64.not_lt.2 short]

/-! ## Attempts in a row -/

/-- Verdicts on calls of which some were disturbed and the others took their cost. -/
def OnlyDisturbed (cost : Cycles) (vs : List Verdict) : Prop :=
  ∀ v ∈ vs, v = .accept cost ∨ v = .reject .tickChanged

/-- What attempts at a synthetic operation have made of it: the flips that it counted are the
samples that were thrown away for their tick, and there are none if it never draws one. -/
structure Synthetic.Left (op : Synthetic R) (vs : List Verdict) (op' : Synthetic R) : Prop where
  alike : op.Alike op'
  verdicts : OnlyDisturbed op.cost vs
  flips : op'.flips = op.flips + vs.count (.reject .tickChanged)
  calm : (∀ x, (op.draw x).1 = false) → vs.count (.reject .tickChanged) = 0

theorem Synthetic.left_nil (op : Synthetic R) : op.Left [] op where
  alike := .refl op
  verdicts := by simp [OnlyDisturbed]
  flips := rfl
  calm _ := rfl

/-- One more attempt. -/
theorem Synthetic.Left.snoc {op op' : Synthetic R} {vs : List Verdict} (h : op.Left vs op') :
    op.Left (vs ++ [if op'.flips? then .reject .tickChanged else .accept op.cost]) op'.called := by
  cases hflips : op'.flips? with
  | true =>
    constructor
    case alike => exact h.alike.trans op'.alike_called
    case verdicts =>
      intro v hv
      rcases List.mem_append.1 hv with hv | hv
      · exact h.verdicts v hv
      · exact .inr (by simpa using hv)
    case flips => simp [Synthetic.called, hflips, h.flips, Nat.add_assoc]
    case calm =>
      intro hnever
      have hdraw := hnever op'.source
      rw [← h.alike.draw] at hdraw
      exact absurd (hdraw.symm.trans hflips) Bool.false_ne_true
  | false =>
    constructor
    case alike => exact h.alike.trans op'.alike_called
    case verdicts =>
      intro v hv
      rcases List.mem_append.1 hv with hv | hv
      · exact h.verdicts v hv
      · exact .inl (by simpa using hv)
    case flips => simp [Synthetic.called, hflips, h.flips]
    case calm =>
      intro hnever
      simpa using h.calm hnever

/-- Attempts whose calls do not carry the clock over its end. -/
theorem Synthetic.left_of_tries {o : Oracle} (shown : o.Shows 0) {plan : LoopPlan}
    {w v : Synthetic R × Stage} {tries : List (Attempt (Synthetic R × Stage))}
    (succeeds : w.1.code = 0) (short : w.1.cost ≤ plan.ceiling)
    (h : (Synthetic.rigWith o).Tries plan Synthetic.invoke w tries v)
    (hclock : ∀ f ∈ tries, f.call.world.2.clock.toNat + w.1.cost.toNat < UInt64.size) :
    w.1.Left ((tries.map Attempt.sample).map (Sample.verdict · plan)) v.1 := by
  induction h with
  | nil => exact w.1.left_nil
  | @snoc l f v u _ last ih =>
    have hleft := ih fun g hg => hclock g (by simp [hg])
    have hf := hclock f (by simp)
    rw [← hleft.alike.cost] at short hf
    obtain ⟨op', s'⟩ := v
    obtain ⟨hcalled, hverdict⟩ := Synthetic.tried_verdict shown last
      (hleft.alike.code.trans succeeds) short hf
    rw [(Synthetic.rigWith_keeps o).recover, hcalled, List.map_append, List.map_append,
      List.map_singleton, List.map_singleton, hverdict, hleft.alike.cost]
    exact hleft.snoc

/-! ## Warm-ups -/

theorem Synthetic.alike_of_times {o : Oracle} {w v : Synthetic R × Stage}
    {timings : List (TimedCall (Synthetic R × Stage))}
    (h : (Synthetic.rigWith o).Times Synthetic.invoke w timings v) : w.1.Alike v.1 := by
  induction h with
  | nil => exact .refl _
  | cons first _ ih =>
    cases first
    exact (Synthetic.alike_called _).trans ih

/-! ## Counts and totals -/

section Counts

variable {cost : Cycles} {vs : List Verdict} (h : OnlyDisturbed cost vs)

include h

theorem OnlyDisturbed.count_failed : vs.count .failed = 0 := by
  refine List.count_eq_zero.2 fun hmem => ?_
  rcases h _ hmem with heq | heq <;> cases heq

theorem OnlyDisturbed.count_reject (why : Rejection) (hwhy : why ≠ .tickChanged) :
    vs.count (.reject why) = 0 := by
  refine List.count_eq_zero.2 fun hmem => ?_
  rcases h _ hmem with heq | heq
  · cases heq
  · cases heq
    exact hwhy rfl

/-- The accepted lengths are all the same. -/
theorem OnlyDisturbed.cycles :
    vs.filterMap Verdict.cycles? = List.replicate (vs.filterMap Verdict.cycles?).length cost := by
  refine List.eq_replicate_iff.2 ⟨rfl, fun c hc => ?_⟩
  obtain ⟨v, hv, hcycles⟩ := List.mem_filterMap.1 hc
  rcases h v hv with rfl | rfl
  · exact (Option.some.inj hcycles).symm
  · cases hcycles

end Counts

/-- Totals of a number of samples of the same length, cut off as totals are. -/
structure Totals.OfSame (t : Totals) (b cost : Cycles) (n : Nat) : Prop where
  baseline : t.baseline = b
  count : t.count.toNat = n
  sum : t.sum.toNat = n * cost.toNat
  max : t.max = if n = 0 then 0 else cost
  squares : (t.squares.toNat : Int) =
    min (2 ^ 128 - 1) (n * ((cost.toNat : Int) - b.toNat) ^ 2)

theorem Totals.ofSame_recordAll (baseline cost : Cycles) {n : Nat} (few : n < 2 ^ 64) :
    ((Totals.empty baseline).recordAll (List.replicate n cost)).OfSame baseline cost n := by
  have hexact : ((Totals.empty baseline).recordAll (List.replicate n cost)).Exact baseline
      (List.replicate n cost) := Totals.exact_recordAll baseline (by simpa using few)
  constructor
  case baseline => exact hexact.baseline
  case count => simpa using hexact.count
  case sum => simpa using hexact.sum
  case max =>
    rw [← UInt64.toNat_inj, hexact.max]
    cases n with
    | zero => rfl
    | succ n => simp
  case squares => simpa [squaredDeviations] using hexact.squares

theorem Totals.OfSame.unique {t u : Totals} {baseline cost : Cycles} {n : Nat}
    (h : t.OfSame baseline cost n) (h' : u.OfSame baseline cost n) : t = u := by
  have hcount : t.count = u.count := UInt64.toNat_inj.1 (h.count.trans h'.count.symm)
  have hsum : t.sum = u.sum := BitVec.toNat_inj.1 (h.sum.trans h'.sum.symm)
  have hsquares : t.squares = u.squares :=
    BitVec.toNat_inj.1 (Int.ofNat_inj.1 (h.squares.trans h'.squares.symm))
  have hmax : t.max = u.max := h.max.trans h'.max.symm
  have hbaseline : t.baseline = u.baseline := h.baseline.trans h'.baseline.symm
  cases t
  cases u
  simp_all

/-- A report of a loop that threw away samples for their ticks only, and accepted the others, all of
them of the same length: if there are any, the summary counts them, with that length as the
greatest and as the mean its sum over their number. -/
structure LoopReport.Filtered (report : LoopReport) (t : Totals) (baseline cost : Cycles) :
    Prop where
  others : ∀ why, why ≠ .tickChanged → report.rejected.of why = 0
  failed : report.failed = 0
  attempts : report.attempts.toNat =
    report.accepted.toNat + report.rejected.tickChanged.toNat
  totals : t.OfSame baseline cost report.accepted.toNat
  summary : report.summary = t.summary?
  summed : report.accepted ≠ 0 → ∃ s, report.summary = some s ∧ s.Sums t ∧
    s.count = report.accepted ∧ s.max = cost ∧ s.baseline = baseline

theorem Tally.report_filtered {vs : List Verdict} {cost : Cycles} (h : OnlyDisturbed cost vs)
    (few : vs.length < attemptBound) (baseline : Cycles) (name : String) (plan : LoopPlan)
    (iterations : Nat) :
    ((Tally.of baseline vs).report name plan iterations).Filtered (Tally.of baseline vs).totals
      baseline cost := by
  have hsame : (Tally.of baseline vs).totals.OfSame baseline cost
      (Tally.of baseline vs).totals.count.toNat := by
    have hfew : (vs.filterMap Verdict.cycles?).length < attemptBound :=
      Nat.lt_of_le_of_lt (List.length_filterMap_le _ _) few
    rw [Tally.of_count few]
    simp only [Tally.of]
    rw [h.cycles, List.length_replicate]
    exact Totals.ofSame_recordAll baseline cost hfew
  have haccepted := Tally.of_count few baseline
  have hrejected := Tally.of_rejected few baseline
  have hlen := length_eq_counts vs
  rw [h.count_failed, h.count_reject .failed (by decide),
    h.count_reject .clockAnomaly (by decide),
    h.count_reject .outlier (by decide)] at hlen
  constructor
  case others =>
    intro why hwhy
    rw [← UInt64.toNat_inj]
    exact (hrejected why).trans (h.count_reject why hwhy)
  case failed =>
    show UInt64.ofNat (vs.count .failed) = 0
    rw [h.count_failed]
    rfl
  case attempts =>
    have hattempts : (UInt64.ofNat vs.length).toNat = vs.length := toNat_ofNat_word few
    have htick : ((Tally.of baseline vs).rejected.tickChanged).toNat =
        vs.count (.reject .tickChanged) := hrejected .tickChanged
    show (UInt64.ofNat vs.length).toNat = (Tally.of baseline vs).totals.count.toNat +
      (Tally.of baseline vs).rejected.tickChanged.toNat
    rw [hattempts, haccepted, htick]
    omega
  case totals => exact hsame
  case summary => rfl
  case summed =>
    intro hany
    have hsome : (Tally.of baseline vs).totals.summary? ≠ none := by
      rw [ne_eq, ← Option.isNone_iff_eq_none, Totals.summary?_isNone, Totals.isEmpty]
      exact fun hnone => hany (beq_iff_eq.1 hnone)
    obtain ⟨s, hs⟩ := Option.ne_none_iff_exists'.1 hsome
    obtain ⟨hcount, hsums⟩ := Totals.summary?_eq_some_iff.1 hs
    refine ⟨s, hs, hsums, hsums.count, ?_, hsums.baseline.trans hsame.baseline⟩
    have hcounted : (Tally.of baseline vs).totals.count.toNat ≠ 0 :=
      fun hzero => hcount (UInt64.toNat_inj.1 hzero)
    rw [hsums.max, hsame.max, if_neg hcounted]

/-! ## Runs -/

/-- The calls of a run with a synthetic operation succeed, do not take longer than the plan allows,
and do not carry the clock over its end; and words can count its attempts. -/
structure Synthetic.Smooth (op : Synthetic R) (o : Oracle) (plan : LoopPlan) (fuel : Nat)
    (s : Stage) : Prop where
  succeeds : op.code = 0
  short : op.cost ≤ plan.ceiling
  few : fuel < attemptBound
  clock : ∀ x ∈ (Synthetic.rigWith o).callsMade plan Synthetic.invoke fuel (op, s),
    x.2.world.2.clock.toNat + op.cost.toNat < UInt64.size

/-- A run with a synthetic operation ends with a report on totals, and with the operation as it is
then. -/
def Synthetic.Ends (op : Synthetic R) (o : Oracle) (plan : LoopPlan) (name : String) (fuel : Nat)
    (s : Stage) (report : LoopReport) (totals : Totals) (op' : Synthetic R) : Prop :=
  let r := Synthetic.rigWith o
  let p := r.timed Synthetic.invoke
  ∃ t s', r.loop plan p fuel (p.warmUp plan.warmup.toNat (op, s)) = some (t, (op', s')) ∧
    report = t.report name plan t.completed ∧ totals = t.totals

/-- The operation behind the warm-up of a run. -/
def Synthetic.warm (op : Synthetic R) (o : Oracle) (plan : LoopPlan) (s : Stage) : Synthetic R :=
  (((Synthetic.rigWith o).timed Synthetic.invoke).warmUp plan.warmup.toNat (op, s)).1

/-- A run of a synthetic operation that is not in the way of its clock throws away the samples that
the operation disturbed. -/
theorem Synthetic.Ends.filtered {o : Oracle} (shown : o.Shows 0) {plan : LoopPlan} {name : String}
    {fuel : Nat} {op op' : Synthetic R} {s : Stage} {report : LoopReport} {totals : Totals}
    (h : op.Ends o plan name fuel s report totals op') (smooth : op.Smooth o plan fuel s) :
    report.Filtered totals plan.baseline op.cost ∧
      op'.flips = (op.warm o plan s).flips + report.rejected.tickChanged.toNat ∧
      ((∀ x, (op.draw x).1 = false) → report.rejected.tickChanged = 0) := by
  obtain ⟨t, s', hloop, rfl, rfl⟩ := h
  obtain ⟨record, hrecorded⟩ := Rig.exists_record_of_loop hloop
  obtain ⟨timings, tries, hrecord, hlength, hruns⟩ := Rig.loop_recorded hrecorded
  have halike : op.Alike (op.warm o plan s) := Synthetic.alike_of_times hruns.warmed
  have hclock := smooth.clock
  rw [Rig.callsMade_of_loop hrecorded, hrecord, callsIn_trial] at hclock
  have hleft : (op.warm o plan s).Left
      ((tries.map Attempt.sample).map (Sample.verdict · plan)) op' := by
    refine Synthetic.left_of_tries shown (halike.code.trans smooth.succeeds) ?_ hruns.made ?_
    · exact halike.cost ▸ smooth.short
    · intro f hf
      have hcall := hclock (.forward, f.call) (List.mem_append_right _ (List.mem_map_of_mem hf))
      exact halike.cost ▸ hcall
  have few : ((tries.map Attempt.sample).map (Sample.verdict · plan)).length < attemptBound := by
    rw [List.length_map, List.length_map]
    exact Nat.lt_of_le_of_lt hlength smooth.few
  rw [hruns.tally]
  have htick := Tally.of_rejected few plan.baseline .tickChanged
  refine ⟨?_, ?_, ?_⟩
  · exact halike.cost ▸ Tally.report_filtered hleft.verdicts few plan.baseline name plan _
  · exact hleft.flips.trans (congrArg _ htick.symm)
  · intro hnever
    rw [← UInt64.toNat_inj]
    exact htick.trans (hleft.calm (halike.draw ▸ hnever))

/-- Whatever a synthetic operation draws, a run whose oracle shows the counter throws away exactly
the attempts that the operation disturbed: those are all the flips that it counts behind the
warm-up, and nothing else is thrown away or fails. All the other attempts are accepted with the cost
of the operation, so the totals are those of so many equal samples; and they are the totals of any
run at the same cost, from the same baseline, with as many accepted samples, in which nothing is
ever disturbed. -/
theorem Synthetic.run_filtered {o : Oracle} (shown : o.Shows 0) {plan : LoopPlan} {name : String}
    {fuel : Nat} {op op' : Synthetic R} {s s' : Stage} {report : LoopReport}
    (smooth : op.Smooth o plan fuel s)
    (h : (Synthetic.rigWith o).run plan name Synthetic.invoke fuel (op, s) =
      some (report, (op', s'))) :
    ∃ totals, op.Ends o plan name fuel s report totals op' ∧
      report.Filtered totals plan.baseline op.cost ∧
      op'.flips = (op.warm o plan s).flips + report.rejected.tickChanged.toNat ∧
      ∀ (Q : Type) (calm calm' : Synthetic Q) (plan' : LoopPlan) (name' : String) (fuel' : Nat)
        (u : Stage) (report' : LoopReport) (totals' : Totals),
        calm.Smooth o plan' fuel' u → calm.Ends o plan' name' fuel' u report' totals' calm' →
        (∀ x, (calm.draw x).1 = false) → calm.cost = op.cost → plan'.baseline = plan.baseline →
        report'.accepted = report.accepted →
        report'.attempts = report.accepted ∧ totals' = totals ∧
          report'.summary = report.summary := by
  obtain ⟨⟨t, v⟩, hloop, heq⟩ := Option.map_eq_some_iff.1 h
  cases heq
  have hends : op.Ends o plan name fuel s (t.report name plan t.completed) t.totals op' :=
    ⟨t, s', hloop, rfl, rfl⟩
  obtain ⟨hfiltered, hflips, -⟩ := hends.filtered shown smooth
  refine ⟨t.totals, hends, hfiltered, hflips, ?_⟩
  intro Q calm calm' plan' name' fuel' u report' totals' smooth' hends' hnever hcost hbaseline
    haccepted
  obtain ⟨hother, -, hcalm⟩ := hends'.filtered shown smooth'
  have hsame := hother.totals
  rw [hcost, hbaseline, haccepted] at hsame
  have htotals : totals' = t.totals := hsame.unique hfiltered.totals
  refine ⟨?_, htotals, ?_⟩
  · rw [← UInt64.toNat_inj, hother.attempts, hcalm hnever, haccepted]
    rfl
  · rw [hother.summary, htotals, hfiltered.summary]

/-! ## A disturbed run -/

/-- A quiet operation never draws an interrupt. -/
theorem Synthetic.draw_quiet (cost : Cycles) (x : Random) :
    ((Synthetic.quiet cost).draw x).1 = false := by
  have hnone : ¬ (0.0 : Float) > 0.0 := by decide +kernel
  simp [Synthetic.quiet, Random.draw, hnone]

/-- An operation that is disturbed where a list says so. -/
def listedInterrupts (cost : Cycles) (flips : List Bool) : Synthetic (List Bool) :=
  ⟨cost, 0, fun l => (l.headD false, l.tail), flips, 0⟩

/-- Three samples, after a warm-up. -/
def disturbedPlan : LoopPlan :=
  { LoopPlan.standard with samples := 3, warmup := 1, baseline := 40, quiescence := 7, settle := 3 }

/-- Of three interrupts one passes in the warm-up and two spoil a sample each; the other three
samples are those of a quiet run. -/
theorem Synthetic.run_filtered_listed :
    let o := Oracle.counter 0
    let op := listedInterrupts 50 [true, false, true, true, false]
    o.Shows 0 ∧ op.Smooth o disturbedPlan 8 (.at 20) ∧
    ∃ report op' totals report' calm',
      op.Ends o disturbedPlan "disturbed" 8 (.at 20) report totals op' ∧
      report.Filtered totals 40 50 ∧ report.attempts = 5 ∧ report.rejected.tickChanged = 2 ∧
      op'.flips = 3 ∧ totals.sum.toNat = 150 ∧ totals.squares.toNat = 300 ∧
      (Synthetic.quiet 50).Ends o disturbedPlan "quiet" 3 (.at 0) report' totals calm' ∧
      report'.attempts = 3 ∧ report'.summary = report.summary := by
  intro o op
  have shown : o.Shows 0 := by decide
  have smooth : op.Smooth o disturbedPlan 8 (.at 20) :=
    { succeeds := by decide, short := by decide +kernel, few := by decide,
      clock := by decide +kernel }
  have smooth' : (Synthetic.quiet 50).Smooth o disturbedPlan 3 (.at 0) :=
    { succeeds := by decide, short := by decide +kernel, few := by decide,
      clock := by decide +kernel }
  have hcounts : (((Synthetic.rigWith o).run disturbedPlan "disturbed" Synthetic.invoke 8
      (op, .at 20)).map fun x => (x.1.attempts, x.1.accepted, x.1.rejected.tickChanged,
        x.2.1.flips)) = some (5, 3, 2, 3) := by decide +kernel
  have hcounts' : (((Synthetic.rigWith o).run disturbedPlan "quiet" Synthetic.invoke 3
      (Synthetic.quiet 50, .at 0)).map fun x => x.1.accepted) = some 3 := by decide +kernel
  obtain ⟨⟨report, op', s'⟩, hrun, hvalues⟩ := Option.map_eq_some_iff.1 hcounts
  obtain ⟨⟨report', calm', u'⟩, hquiet, haccepted'⟩ := Option.map_eq_some_iff.1 hcounts'
  simp only [Prod.mk.injEq] at hvalues
  obtain ⟨hattempts, haccepted, htick, hflips⟩ := hvalues
  obtain ⟨totals, hends, hfiltered, -, hcalm⟩ := Synthetic.run_filtered shown smooth hrun
  obtain ⟨totals', hends', -⟩ := Synthetic.run_filtered shown smooth' hquiet
  obtain ⟨hattempts', rfl, hsummary⟩ := hcalm _ _ _ _ _ _ _ _ _ smooth' hends'
    (Synthetic.draw_quiet 50) rfl rfl (haccepted'.trans haccepted.symm)
  have hsame := hfiltered.totals
  rw [haccepted] at hsame
  refine ⟨shown, smooth, report, op', _, report', calm', hends, hfiltered, hattempts, htick, hflips,
    hsame.sum, ?_, hends', hattempts'.trans haccepted, hsummary⟩
  have hsquares := hsame.squares
  have hvalue : min (2 ^ 128 - 1) (((3 : UInt64).toNat : Int) *
      (((50 : Cycles).toNat : Int) - (40 : Cycles).toNat) ^ 2) = 300 := by decide +kernel
  exact Int.ofNat_inj.1 (hsquares.trans hvalue)

end LatencyGauge
