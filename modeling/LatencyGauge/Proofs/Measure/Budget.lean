/-
Runs under two bounds on their attempts. A bound is asked for before every attempt and nowhere else,
so the run with less room is a beginning of the run with more: it makes the same samples up to where
its attempts are spent, and counts no more of any kind. If it was not stopped by its bound it is the
same run.
-/
import LatencyGauge.Proofs.Measure.Ledger
import LatencyGauge.Proofs.Measure.Underway

namespace LatencyGauge

variable {W : Type}

/-! ## Bounds -/

/-- A plan with another bound on its attempts, or with none. -/
def LoopPlan.within (plan : LoopPlan) (most : Option UInt64) : LoopPlan :=
  { plan with maxAttempts := most }

/-- A bound on attempts leaves no more room than another one; without a bound there is room for any
number of them. -/
def Tighter (most more : Option UInt64) : Prop := ∀ n, more = some n → ∃ k, most = some k ∧ k ≤ n

theorem LoopPlan.allows_of_tighter (plan : LoopPlan) {most more : Option UInt64}
    (h : Tighter most more) {n : Nat} (hn : (plan.within most).allows n = true) :
    (plan.within more).allows n = true := by
  rw [LoopPlan.allows_iff] at hn ⊢
  intro m hm
  obtain ⟨k, hk, hle⟩ := h m hm
  exact Nat.lt_of_lt_of_le (hn k hk) (UInt64.le_iff_toNat_le.1 hle)

theorem Tally.goesOn_of_tighter (t : Tally) (plan : LoopPlan) {most more : Option UInt64}
    (h : Tighter most more) (hgo : t.goesOn (plan.within most) = true) :
    t.goesOn (plan.within more) = true := by
  simp only [Tally.goesOn, Bool.and_eq_true] at hgo ⊢
  exact ⟨hgo.1, plan.allows_of_tighter h hgo.2⟩

theorem PairTally.goesOn_of_tighter (t : PairTally) (plan : LoopPlan) {most more : Option UInt64}
    (h : Tighter most more) (hgo : t.goesOn (plan.within most) = true) :
    t.goesOn (plan.within more) = true := by
  simp only [PairTally.goesOn, Bool.and_eq_true] at hgo ⊢
  exact ⟨hgo.1, plan.allows_of_tighter h hgo.2⟩

theorem tighter_none (most : Option UInt64) : Tighter most none := by
  rintro n ⟨⟩

/-! ## Reports on more samples -/

/-- No counter of a report exceeds that of another. -/
structure LoopReport.Within (report other : LoopReport) : Prop where
  attempts : report.attempts ≤ other.attempts
  completed : report.completed ≤ other.completed
  accepted : report.accepted ≤ other.accepted
  failed : report.failed ≤ other.failed
  rejected : ∀ why, report.rejected.of why ≤ other.rejected.of why
  total : report.rejected.total ≤ other.rejected.total

/-- A report on the first of some samples counts no more than the report on all of them. -/
theorem LoopReport.Accounts.within {plan : LoopPlan} {baseline : Cycles} {report other : LoopReport}
    {samples rest : List Sample} (h : report.Accounts plan baseline samples)
    (hall : other.Accounts plan baseline (samples ++ rest)) : report.Within other := by
  have hsplit : ∀ f : Sample → Bool, samples.countP f ≤ (samples ++ rest).countP f := by
    intro f
    rw [List.countP_append]
    exact Nat.le_add_right _ _
  have hrejected : ∀ why, report.rejected.of why ≤ other.rejected.of why := by
    intro why
    rw [UInt64.le_iff_toNat_le, h.rejected, hall.rejected]
    exact hsplit _
  have haccepted : report.accepted.toNat ≤ other.accepted.toNat := by
    rw [h.accepted, hall.accepted]
    exact hsplit _
  have hfailed : report.failed.toNat ≤ other.failed.toNat := by
    rw [h.failed, hall.failed]
    exact hsplit _
  have hattempts : other.attempts.toNat = report.attempts.toNat + rest.length := by
    rw [h.attempts, hall.attempts, List.length_append]
  -- of the other samples no more are completed than there are
  have hcompleted : other.completed.toNat = report.completed.toNat + plan.completedIn rest := by
    rw [h.completedIn, hall.completedIn]
    exact List.countP_append
  have hrest : plan.completedIn rest ≤ rest.length := List.countP_le_length
  have hbalance := h.balance
  have hbalance' := hall.balance
  rw [← h.completed] at hbalance
  rw [← hall.completed] at hbalance'
  constructor
  case attempts => rw [UInt64.le_iff_toNat_le]; omega
  case completed => rw [UInt64.le_iff_toNat_le]; omega
  case accepted => exact UInt64.le_iff_toNat_le.2 haccepted
  case failed => exact UInt64.le_iff_toNat_le.2 hfailed
  case rejected => exact hrejected
  case total => rw [UInt64.le_iff_toNat_le]; omega

/-! ## Runs that come to an end -/

/-- A run with a probe comes to an end in a world, with a report, on attempts that a word can
count. -/
def Rig.ProbeEnds (r : Rig W) (plan : LoopPlan) (name : String) (p : Probe W) (w : W)
    (report : LoopReport) (v : W) : Prop :=
  ∃ fuel < attemptBound, r.runProbe plan name p fuel w = some (report, v)

/-- A run over a pair comes to an end in a world, with a report, on attempts that a word can
count. -/
def Rig.PairEnds (r : Rig W) (plan : LoopPlan) (name : String) (reverseBaseline : Cycles)
    (op : Pair W) (w : W) (report : PairReport) (v : W) : Prop :=
  ∃ fuel < attemptBound, r.runPair plan name reverseBaseline op fuel w = some (report, v)

theorem Rig.runProbe_mono {r : Rig W} {plan : LoopPlan} {name : String} {p : Probe W}
    {fuel more : Nat} {w : W} {x : LoopReport × W} (le : fuel ≤ more)
    (h : r.runProbe plan name p fuel w = some x) : r.runProbe plan name p more w = some x := by
  obtain ⟨s, hs, hx⟩ := Option.map_eq_some_iff.1 h
  exact Option.map_eq_some_iff.2 ⟨s, iterate_mono hs le, hx⟩

theorem Rig.runPair_mono {r : Rig W} {plan : LoopPlan} {name : String} {reverseBaseline : Cycles}
    {op : Pair W} {fuel more : Nat} {w : W} {x : PairReport × W} (le : fuel ≤ more)
    (h : r.runPair plan name reverseBaseline op fuel w = some x) :
    r.runPair plan name reverseBaseline op more w = some x := by
  obtain ⟨s, hs, hx⟩ := Option.map_eq_some_iff.1 h
  exact Option.map_eq_some_iff.2 ⟨s, iterate_mono hs le, hx⟩

/-- A run with a probe has one end. -/
theorem Rig.ProbeEnds.unique {r : Rig W} {plan : LoopPlan} {name : String} {p : Probe W} {w v v' : W}
    {report report' : LoopReport} (h : r.ProbeEnds plan name p w report v)
    (h' : r.ProbeEnds plan name p w report' v') : report = report' ∧ v = v' := by
  obtain ⟨fuel, -, hrun⟩ := h
  obtain ⟨fuel', -, hrun'⟩ := h'
  have hmore := Rig.runProbe_mono (Nat.le_max_left fuel fuel') hrun
  rw [Rig.runProbe_mono (Nat.le_max_right fuel fuel') hrun'] at hmore
  cases hmore
  exact ⟨rfl, rfl⟩

/-- A run over a pair has one end. -/
theorem Rig.PairEnds.unique {r : Rig W} {plan : LoopPlan} {name : String} {reverseBaseline : Cycles}
    {op : Pair W} {w v v' : W} {report report' : PairReport}
    (h : r.PairEnds plan name reverseBaseline op w report v)
    (h' : r.PairEnds plan name reverseBaseline op w report' v') : report = report' ∧ v = v' := by
  obtain ⟨fuel, -, hrun⟩ := h
  obtain ⟨fuel', -, hrun'⟩ := h'
  have hmore := Rig.runPair_mono (Nat.le_max_left fuel fuel') hrun
  rw [Rig.runPair_mono (Nat.le_max_right fuel fuel') hrun'] at hmore
  cases hmore
  exact ⟨rfl, rfl⟩

/-! ## Single loops -/

theorem LoopPlan.stops_of_tighter (plan : LoopPlan) {most more : Option UInt64}
    (h : Tighter most more) (s : Tally × W) (hstop : (!s.1.goesOn (plan.within more)) = true) :
    (!s.1.goesOn (plan.within most)) = true := by
  rw [Bool.not_eq_true', Bool.eq_false_iff] at hstop ⊢
  exact fun hgo => hstop (s.1.goesOn_of_tighter plan h hgo)

/-- A loop that is given more samples to make makes them behind those that it has made. -/
theorem LoopPlan.Sampled.goesOn {plan : LoopPlan} {before : List (Note W)} (r : Rig W) (p : Probe W)
    {most : Option UInt64} {fuel : Nat} {s t : Tally × (W × List (Note W))} {samples : List Sample}
    (hs : (plan.within none).Sampled before s samples)
    (ht : iterateUpTo (fun s => !s.1.goesOn (plan.within most))
      (r.recorded.step (plan.within most) p.recorded) fuel s = t) :
    ∃ rest, rest.length ≤ fuel ∧ (plan.within none).Sampled before t (samples ++ rest) := by
  have hstep : ∀ s l, (!s.1.goesOn (plan.within most)) = false →
      (plan.within none).Sampled before s l →
      ∃ x, (plan.within none).Sampled before
        (r.recorded.step (plan.within most) p.recorded s) (l ++ [x]) :=
    fun s l hgo hl =>
      hl.step r p (s.1.goesOn_of_tighter plan (tighter_none most) (by simpa using hgo))
  rw [← ht]
  exact iterateUpTo_trail hstep fuel hs

/-- A recorded run with a probe has no samples behind its warm-up. -/
theorem LoopPlan.sampled_warmUp (plan : LoopPlan) (p : Probe W) (w : W) :
    ∃ windows : List Window, (plan.within none).Sampled (windows.flatMap Window.notes)
      (.start plan.baseline, p.recorded.warmUp plan.warmup.toNat (w, [])) [] := by
  obtain ⟨windows, -, hwarm⟩ := p.warmUp_recorded plan.warmup.toNat w []
  rw [hwarm]
  exact ⟨windows, LoopPlan.sampled_nil _ _ _⟩

/-- Under a tighter bound a run that is under way has made the first of the samples that it has made
under a looser one. -/
theorem Rig.probeNotes_within (r : Rig W) (plan : LoopPlan) (p : Probe W) {most more : Option UInt64}
    (htight : Tighter most more) (fuel : Nat) (w : W) :
    ∃ (windows : List Window) (samples samples' : List Sample), samples <+: samples' ∧
      r.probeNotes (plan.within most) p fuel w =
        windows.flatMap Window.notes ++ samples.flatMap (Sample.notes plan) ∧
      r.probeNotes (plan.within more) p fuel w =
        windows.flatMap Window.notes ++ samples'.flatMap (Sample.notes plan) := by
  obtain ⟨windows, hstart⟩ := plan.sampled_warmUp p w
  obtain ⟨samples, -, hsamples⟩ := hstart.goesOn r p
    (t := r.probeSoFar (plan.within most) p fuel w) rfl
  obtain ⟨k, -, hlater⟩ := iterateUpTo_earlier (plan.stops_of_tighter htight)
    fuel (.start plan.baseline, p.recorded.warmUp plan.warmup.toNat (w, []))
  obtain ⟨rest, -, hall⟩ := hsamples.goesOn r p
    (t := r.probeSoFar (plan.within more) p fuel w) hlater.symm
  rw [List.nil_append] at hsamples hall
  exact ⟨windows, samples, samples ++ rest, List.prefix_append _ _, hsamples.record, hall.record⟩

/-- A recorded run with a probe that ends under one bound has ended before under a tighter one, and
the samples that it makes then are the first of those that it makes now. -/
theorem Rig.runProbe_within {r : Rig W} {plan : LoopPlan} {name : String} {p : Probe W}
    {most more : Option UInt64} (htight : Tighter most more) {fuel : Nat}
    (hfuel : fuel < attemptBound) {w v' : W} {report' : LoopReport} {record' : List (Note W)}
    (h : r.recorded.runProbe (plan.within more) name p.recorded fuel (w, []) =
      some (report', (v', record'))) :
    ∃ (report : LoopReport) (v : W) (windows : List Window) (samples rest : List Sample),
      r.recorded.runProbe (plan.within most) name p.recorded fuel (w, []) =
        some (report, (v, windows.flatMap Window.notes ++ samples.flatMap (Sample.notes plan))) ∧
      record' = windows.flatMap Window.notes ++ (samples ++ rest).flatMap (Sample.notes plan) ∧
      report.Accounts plan plan.baseline samples ∧
      report'.Accounts plan plan.baseline (samples ++ rest) := by
  obtain ⟨windows, hstart⟩ := plan.sampled_warmUp p w
  obtain ⟨⟨t', v'', record''⟩, hloop, heq⟩ := Option.map_eq_some_iff.1 h
  cases heq
  obtain ⟨⟨t, v, record⟩, k, hk, hfirst, hlater⟩ :=
    iterate_earlier (plan.stops_of_tighter htight) hloop
  obtain ⟨samples, hsome, hsamples⟩ := hstart.goesOn r p (iterateUpTo_of_iterate hfirst)
  obtain ⟨rest, hrest, hall⟩ := hsamples.goesOn r p (iterateUpTo_of_iterate hlater)
  rw [List.nil_append] at hsamples hall
  have htally : t = Tally.of plan.baseline (samples.map (Sample.verdict · plan)) := hsamples.tally
  have htally' : t' = Tally.of plan.baseline ((samples ++ rest).map (Sample.verdict · plan)) :=
    hall.tally
  have hrecord : record = windows.flatMap Window.notes ++ samples.flatMap (Sample.notes plan) :=
    hsamples.record
  refine ⟨t.report name plan t.completed, v, windows, samples, rest, ?_, hall.record, ?_, ?_⟩
  · rw [← hrecord]
    exact Option.map_eq_some_iff.2 ⟨_, iterate_mono hfirst hk, rfl⟩
  · rw [htally]
    exact Tally.report_accounts plan plan.baseline name _ (by omega)
  · rw [htally']
    refine Tally.report_accounts plan plan.baseline name _ ?_
    rw [List.length_append]
    omega

/-- A run with a probe that has nothing to say of a spent budget is the same under any looser
bound. -/
theorem Rig.runProbe_unspent {r : Rig W} {plan : LoopPlan} {name : String} {p : Probe W}
    {most more : Option UInt64} (htight : Tighter most more) {fuel : Nat} {w v : W}
    {report : LoopReport}
    (h : r.runProbe (plan.within most) name p fuel w = some (report, v))
    (hnone : ∀ c target, .budgetSpent c target ∉ report.cautions) :
    r.runProbe (plan.within more) name p fuel w = some (report, v) := by
  obtain ⟨⟨t, u⟩, hloop, heq⟩ := Option.map_eq_some_iff.1 h
  cases heq
  have hfull : ¬ t.completed < plan.samples.toNat := fun hless =>
    hnone _ _ ((t.budgetSpent_mem_cautions name (plan.within most) t.completed _ _).2
      ⟨hless, rfl, rfl⟩)
  have hstop : (!t.goesOn (plan.within more)) = true := by
    simp [Tally.goesOn, LoopPlan.within, hfull]
  exact Option.map_eq_some_iff.2 ⟨(t, v), iterate_late (plan.stops_of_tighter htight) hloop hstop, rfl⟩

/-! ## Paired loops -/

theorem LoopPlan.pairStops_of_tighter (plan : LoopPlan) {most more : Option UInt64}
    (h : Tighter most more) (s : PairTally × W)
    (hstop : (!s.1.goesOn (plan.within more)) = true) :
    (!s.1.goesOn (plan.within most)) = true := by
  rw [Bool.not_eq_true', Bool.eq_false_iff] at hstop ⊢
  exact fun hgo => hstop (s.1.goesOn_of_tighter plan h hgo)

/-- A loop that is given more turns to take takes them behind those that it has taken. -/
theorem LoopPlan.Turned.goesOn {plan : LoopPlan} {r : Rig W} {reverseBaseline : Cycles}
    {op : Pair W} {w : W} {before : List (Note W)} {most : Option UInt64} {fuel : Nat}
    {s t : PairTally × (W × List (Note W))} {turns : List (Turn W)}
    (hs : (plan.within none).Turned r reverseBaseline op w before s turns)
    (ht : iterateUpTo (fun s => !s.1.goesOn (plan.within most))
      (r.recorded.pairStep (plan.within most) op.recorded) fuel s = t) :
    ∃ rest, rest.length ≤ fuel ∧
      (plan.within none).Turned r reverseBaseline op w before t (turns ++ rest) := by
  have hstep : ∀ s l, (!s.1.goesOn (plan.within most)) = false →
      (plan.within none).Turned r reverseBaseline op w before s l →
      ∃ x, (plan.within none).Turned r reverseBaseline op w before
        (r.recorded.pairStep (plan.within most) op.recorded s) (l ++ [x]) :=
    fun s l hgo hl => hl.step (s.1.goesOn_of_tighter plan (tighter_none most) (by simpa using hgo))
  rw [← ht]
  exact iterateUpTo_trail hstep fuel hs

/-- A recorded run over a pair has taken no turns behind its warm-up. -/
theorem LoopPlan.turned_warmUp (plan : LoopPlan) (r : Rig W) (reverseBaseline : Cycles)
    (op : Pair W) (w : W) :
    ∃ rounds : List (Rehearsal W),
      (plan.within none).Turned r reverseBaseline op (op.warmUp plan.warmup.toNat w)
        (rounds.flatMap Rehearsal.notes)
        (.start plan.baseline reverseBaseline, op.recorded.warmUp plan.warmup.toNat (w, [])) [] := by
  obtain ⟨rounds, -, -, hwarm⟩ := op.warmUp_recorded plan.warmup.toNat w []
  rw [hwarm]
  exact ⟨rounds, LoopPlan.turned_nil _ _ _ _ _ _⟩

/-- Under a tighter bound a run that is under way has taken the first of the turns that it has taken
under a looser one. -/
theorem Rig.pairNotes_within (r : Rig W) (plan : LoopPlan) (reverseBaseline : Cycles) (op : Pair W)
    {most more : Option UInt64} (htight : Tighter most more) (fuel : Nat) (w : W) :
    ∃ (rounds : List (Rehearsal W)) (turns turns' : List (Turn W)), turns <+: turns' ∧
      r.pairNotes (plan.within most) reverseBaseline op fuel w =
        rounds.flatMap Rehearsal.notes ++ turns.flatMap (Turn.notes plan) ∧
      r.pairNotes (plan.within more) reverseBaseline op fuel w =
        rounds.flatMap Rehearsal.notes ++ turns'.flatMap (Turn.notes plan) := by
  obtain ⟨rounds, hstart⟩ := plan.turned_warmUp r reverseBaseline op w
  obtain ⟨turns, -, hturns⟩ := hstart.goesOn
    (t := r.pairSoFar (plan.within most) reverseBaseline op fuel w) rfl
  obtain ⟨k, -, hlater⟩ := iterateUpTo_earlier (plan.pairStops_of_tighter htight)
    fuel (.start plan.baseline reverseBaseline, op.recorded.warmUp plan.warmup.toNat (w, []))
  obtain ⟨rest, -, hall⟩ := hturns.goesOn
    (t := r.pairSoFar (plan.within more) reverseBaseline op fuel w) hlater.symm
  rw [List.nil_append] at hturns hall
  exact ⟨rounds, turns, turns ++ rest, List.prefix_append _ _, hturns.record, hall.record⟩

/-- A recorded run over a pair that ends under one bound has ended before under a tighter one, and
the turns that it takes then are the first of those that it takes now. -/
theorem Rig.runPair_within {r : Rig W} {plan : LoopPlan} {name : String} {reverseBaseline : Cycles}
    {op : Pair W} {most more : Option UInt64} (htight : Tighter most more) {fuel : Nat}
    (hfuel : fuel < attemptBound) {w v' : W} {report' : PairReport} {record' : List (Note W)}
    (h : r.recorded.runPair (plan.within more) name reverseBaseline op.recorded fuel (w, []) =
      some (report', (v', record'))) :
    ∃ (report : PairReport) (v : W) (rounds : List (Rehearsal W)) (turns rest : List (Turn W)),
      r.recorded.runPair (plan.within most) name reverseBaseline op.recorded fuel (w, []) =
        some (report, (v, rounds.flatMap Rehearsal.notes ++ turns.flatMap (Turn.notes plan))) ∧
      record' = rounds.flatMap Rehearsal.notes ++ (turns ++ rest).flatMap (Turn.notes plan) ∧
      report = (PairTally.of plan reverseBaseline turns).report name plan ∧
      report' = (PairTally.of plan reverseBaseline (turns ++ rest)).report name plan ∧
      (turns ++ rest).length < attemptBound := by
  obtain ⟨rounds, hstart⟩ := plan.turned_warmUp r reverseBaseline op w
  obtain ⟨⟨t', v'', record''⟩, hloop, heq⟩ := Option.map_eq_some_iff.1 h
  cases heq
  obtain ⟨⟨t, v, record⟩, k, hk, hfirst, hlater⟩ :=
    iterate_earlier (plan.pairStops_of_tighter htight) hloop
  obtain ⟨turns, hsome, hturns⟩ := hstart.goesOn (iterateUpTo_of_iterate hfirst)
  obtain ⟨rest, hrest, hall⟩ := hturns.goesOn (iterateUpTo_of_iterate hlater)
  rw [List.nil_append] at hturns hall
  have htally : t = PairTally.of plan reverseBaseline turns := hturns.tally
  have htally' : t' = PairTally.of plan reverseBaseline (turns ++ rest) := hall.tally
  have hrecord : record = rounds.flatMap Rehearsal.notes ++ turns.flatMap (Turn.notes plan) :=
    hturns.record
  refine ⟨t.report name plan, v, rounds, turns, rest, ?_, hall.record, by rw [htally],
    by rw [← htally']; rfl, ?_⟩
  · rw [← hrecord]
    exact Option.map_eq_some_iff.2 ⟨_, iterate_mono hfirst hk, rfl⟩
  · rw [List.length_append]
    omega

/-- A run over a pair one half of which has nothing to say of a spent budget is the same under any
looser bound. -/
theorem Rig.runPair_unspent {r : Rig W} {plan : LoopPlan} {name : String} {reverseBaseline : Cycles}
    {op : Pair W} {most more : Option UInt64} (htight : Tighter most more) {fuel : Nat} {w v : W}
    {report : PairReport} {half : Half}
    (h : r.runPair (plan.within most) name reverseBaseline op fuel w = some (report, v))
    (hnone : ∀ c target, .budgetSpent c target ∉ (report.of half).cautions) :
    r.runPair (plan.within more) name reverseBaseline op fuel w = some (report, v) := by
  obtain ⟨⟨t, u⟩, hloop, heq⟩ := Option.map_eq_some_iff.1 h
  cases heq
  have hfull : ¬ t.iterations < plan.samples.toNat := by
    intro hless
    refine hnone (UInt64.ofNat t.iterations) plan.samples ?_
    cases half <;> exact (Tally.budgetSpent_mem_cautions ..).2 ⟨hless, rfl, rfl⟩
  have hstop : (!t.goesOn (plan.within more)) = true := by
    simp [PairTally.goesOn, LoopPlan.within, hfull]
  exact Option.map_eq_some_iff.2
    ⟨(t, v), iterate_late (plan.pairStops_of_tighter htight) hloop hstop, rfl⟩

/-! ## Beginnings of runs -/

/-- The run with a probe under one bound is a beginning of the run under another. -/
structure Rig.ProbeBegins (r : Rig W) (plan : LoopPlan) (name : String) (p : Probe W) (w : W)
    (most more : Option UInt64) : Prop where
  ends : ∀ report' v', r.ProbeEnds (plan.within more) name p w report' v' →
    ∃ report v, r.ProbeEnds (plan.within most) name p w report v
  begins : ∀ report v report' v', r.ProbeEnds (plan.within most) name p w report v →
    r.ProbeEnds (plan.within more) name p w report' v' →
    report.Within report' ∧
    ∃ (windows : List Window) (samples samples' : List Sample), samples <+: samples' ∧
      r.recorded.ProbeEnds (plan.within most) name p.recorded (w, []) report
        (v, windows.flatMap Window.notes ++ samples.flatMap (Sample.notes plan)) ∧
      r.recorded.ProbeEnds (plan.within more) name p.recorded (w, []) report'
        (v', windows.flatMap Window.notes ++ samples'.flatMap (Sample.notes plan))
  underway : ∀ fuel, ∃ (windows : List Window) (samples samples' : List Sample),
    samples <+: samples' ∧
      r.probeNotes (plan.within most) p fuel w =
        windows.flatMap Window.notes ++ samples.flatMap (Sample.notes plan) ∧
      r.probeNotes (plan.within more) p fuel w =
        windows.flatMap Window.notes ++ samples'.flatMap (Sample.notes plan)
  unspent : ∀ report v, r.ProbeEnds (plan.within most) name p w report v →
    (∀ c target, .budgetSpent c target ∉ report.cautions) →
    r.ProbeEnds (plan.within more) name p w report v

/-- The run over a pair under one bound is a beginning of the run under another. -/
structure Rig.PairBegins (r : Rig W) (plan : LoopPlan) (name : String) (reverseBaseline : Cycles)
    (op : Pair W) (w : W) (most more : Option UInt64) : Prop where
  ends : ∀ report' v', r.PairEnds (plan.within more) name reverseBaseline op w report' v' →
    ∃ report v, r.PairEnds (plan.within most) name reverseBaseline op w report v
  begins : ∀ report v report' v',
    r.PairEnds (plan.within most) name reverseBaseline op w report v →
    r.PairEnds (plan.within more) name reverseBaseline op w report' v' →
    (∀ half, (report.of half).Within (report'.of half)) ∧
    ∃ (rounds : List (Rehearsal W)) (turns turns' : List (Turn W)), turns <+: turns' ∧
      r.recorded.PairEnds (plan.within most) name reverseBaseline op.recorded (w, []) report
        (v, rounds.flatMap Rehearsal.notes ++ turns.flatMap (Turn.notes plan)) ∧
      r.recorded.PairEnds (plan.within more) name reverseBaseline op.recorded (w, []) report'
        (v', rounds.flatMap Rehearsal.notes ++ turns'.flatMap (Turn.notes plan))
  underway : ∀ fuel, ∃ (rounds : List (Rehearsal W)) (turns turns' : List (Turn W)),
    turns <+: turns' ∧
      r.pairNotes (plan.within most) reverseBaseline op fuel w =
        rounds.flatMap Rehearsal.notes ++ turns.flatMap (Turn.notes plan) ∧
      r.pairNotes (plan.within more) reverseBaseline op fuel w =
        rounds.flatMap Rehearsal.notes ++ turns'.flatMap (Turn.notes plan)
  unspent : ∀ report v half, r.PairEnds (plan.within most) name reverseBaseline op w report v →
    (∀ c target, .budgetSpent c target ∉ (report.of half).cautions) →
    r.PairEnds (plan.within more) name reverseBaseline op w report v

theorem Rig.ProbeEnds.of_recorded {r : Rig W} {plan : LoopPlan} {name : String} {p : Probe W}
    {w v : W} {record : List (Note W)} {report : LoopReport} {fuel : Nat}
    (hfuel : fuel < attemptBound)
    (h : r.recorded.runProbe plan name p.recorded fuel (w, []) = some (report, (v, record))) :
    r.ProbeEnds plan name p w report v := by
  have hview := r.recorded_seen.runProbe plan p.recorded_seen name fuel (w, [])
  rw [h] at hview
  exact ⟨fuel, hfuel, hview.symm⟩

theorem Rig.PairEnds.of_recorded {r : Rig W} {plan : LoopPlan} {name : String}
    {reverseBaseline : Cycles} {op : Pair W} {w v : W} {record : List (Note W)}
    {report : PairReport} {fuel : Nat} (hfuel : fuel < attemptBound)
    (h : r.recorded.runPair plan name reverseBaseline op.recorded fuel (w, []) =
      some (report, (v, record))) :
    r.PairEnds plan name reverseBaseline op w report v := by
  have hview := r.recorded_seen.runPair plan op.recorded_seen name reverseBaseline fuel (w, [])
  rw [h] at hview
  exact ⟨fuel, hfuel, hview.symm⟩

theorem Rig.probeBegins (r : Rig W) (plan : LoopPlan) (name : String) (p : Probe W) (w : W)
    {most more : Option UInt64} (htight : Tighter most more) :
    r.ProbeBegins plan name p w most more := by
  constructor
  case ends =>
    rintro report' v' ⟨fuel, hfuel, h⟩
    obtain ⟨record', hrun⟩ := Rig.exists_record_of_runProbe h
    obtain ⟨report, v, _, _, _, hfirst, -⟩ := Rig.runProbe_within htight hfuel hrun
    exact ⟨report, v, .of_recorded hfuel hfirst⟩
  case begins =>
    rintro report v report' v' hless ⟨fuel, hfuel, h⟩
    obtain ⟨record', hrun⟩ := Rig.exists_record_of_runProbe h
    obtain ⟨_, _, windows, samples, rest, hfirst, hrecord, haccounts, haccounts'⟩ :=
      Rig.runProbe_within htight hfuel hrun
    obtain ⟨rfl, rfl⟩ := hless.unique (.of_recorded hfuel hfirst)
    refine ⟨haccounts.within haccounts', windows, samples, samples ++ rest,
      List.prefix_append _ _, ⟨fuel, hfuel, hfirst⟩, ⟨fuel, hfuel, ?_⟩⟩
    rw [← hrecord]
    exact hrun
  case underway => exact fun fuel => r.probeNotes_within plan p htight fuel w
  case unspent =>
    rintro report v ⟨fuel, hfuel, h⟩ hnone
    exact ⟨fuel, hfuel, Rig.runProbe_unspent htight h hnone⟩

theorem Rig.pairBegins (r : Rig W) (plan : LoopPlan) (name : String) (reverseBaseline : Cycles)
    (op : Pair W) (w : W) {most more : Option UInt64} (htight : Tighter most more) :
    r.PairBegins plan name reverseBaseline op w most more := by
  constructor
  case ends =>
    rintro report' v' ⟨fuel, hfuel, h⟩
    obtain ⟨record', hrun⟩ := Rig.exists_record_of_runPair h
    obtain ⟨report, v, _, _, _, hfirst, -⟩ := Rig.runPair_within htight hfuel hrun
    exact ⟨report, v, .of_recorded hfuel hfirst⟩
  case begins =>
    rintro report v report' v' hless ⟨fuel, hfuel, h⟩
    obtain ⟨record', hrun⟩ := Rig.exists_record_of_runPair h
    obtain ⟨_, _, rounds, turns, rest, hfirst, hrecord, hreport, hreport', hfew⟩ :=
      Rig.runPair_within htight hfuel hrun
    obtain ⟨rfl, rfl⟩ := hless.unique (.of_recorded hfuel hfirst)
    have hsome : turns.length < attemptBound := by
      rw [List.length_append] at hfew
      omega
    obtain ⟨hforward, hreverse⟩ := PairTally.report_accounts plan reverseBaseline name hsome
    obtain ⟨hforward', hreverse'⟩ := PairTally.report_accounts plan reverseBaseline name hfew
    rw [forwardSamples, List.map_append] at hforward'
    rw [reverseSamples, List.filterMap_append] at hreverse'
    refine ⟨?_, rounds, turns, turns ++ rest, List.prefix_append _ _, ⟨fuel, hfuel, hfirst⟩,
      ⟨fuel, hfuel, ?_⟩⟩
    · intro half
      rw [hreport, hreport']
      cases half with
      | forward => exact hforward.within hforward'
      | reverse => exact hreverse.within hreverse'
    · rw [← hrecord]
      exact hrun
  case underway => exact fun fuel => r.pairNotes_within plan reverseBaseline op htight fuel w
  case unspent =>
    rintro report v half ⟨fuel, hfuel, h⟩ hnone
    exact ⟨fuel, hfuel, Rig.runPair_unspent htight h hnone⟩

/-- Of two plans that differ in their bounds on the attempts only, the run under the tighter bound
is a beginning of the other: it comes to an end if the other one does, it makes the first of the
samples that the other one makes, whether or not that comes to an end, and no counter of its report
exceeds that of the other. If its report has nothing to say of a spent budget, the other run ends
with the same report and in the same world. This holds of runs with any probe, and of runs over any
pair for both halves. -/
theorem Rig.run_begins (r : Rig W) (plan : LoopPlan) (name : String) {most more : Option UInt64}
    (htight : Tighter most more) :
    (∀ p w, r.ProbeBegins plan name p w most more) ∧
      ∀ reverseBaseline op w, r.PairBegins plan name reverseBaseline op w most more := by
  constructor
  · intro p w
    exact r.probeBegins plan name p w htight
  · intro reverseBaseline op w
    exact r.pairBegins plan name reverseBaseline op w htight

/-- Under a bound of three attempts the troubled run is cut short, and under one of six attempts the
troubled run over a pair is not. -/
theorem Rig.run_begins_troubled :
    let r := Stage.rig (Stage.observe (.counter 0))
    let p := r.timed troubledScript.operation
    let op := Script.pair troubledScript troubledReverse
    Tighter (some 3) none ∧ Tighter (some 6) none ∧
    (∃ report v report' v',
      r.ProbeEnds (troubledPlan.within (some 3)) "troubled" p (.at 20) report v ∧
      r.ProbeEnds (troubledPlan.within none) "troubled" p (.at 20) report' v' ∧
      report.attempts = 3 ∧ report'.attempts = 5 ∧ report.Within report') ∧
    ∃ report v, report.forward.attempts = 6 ∧
      r.PairEnds (troubledPlan.within (some 6)) "troubled" 20 op (.at 20) report v ∧
      r.PairEnds (troubledPlan.within none) "troubled" 20 op (.at 20) report v := by
  intro r p op
  have hshort : ((r.runProbe (troubledPlan.within (some 3)) "troubled" p 8 (.at 20)).map
      fun x => x.1.attempts) = some 3 := by decide +kernel
  have hlong : ((r.runProbe (troubledPlan.within none) "troubled" p 8 (.at 20)).map
      fun x => x.1.attempts) = some 5 := by decide +kernel
  have hpair : ((r.runPair (troubledPlan.within (some 6)) "troubled" 20 op 8 (.at 20)).map
      fun x => (x.1.forward.attempts, x.1.forward.cautions.all Caution.isDrift)) =
        some (6, true) := by decide +kernel
  obtain ⟨⟨report, v⟩, hrun, hthree⟩ := Option.map_eq_some_iff.1 hshort
  obtain ⟨⟨report', v'⟩, hrun', hfive⟩ := Option.map_eq_some_iff.1 hlong
  obtain ⟨⟨pair, u⟩, hturns, heq⟩ := Option.map_eq_some_iff.1 hpair
  obtain ⟨hsix, hdrift⟩ := Prod.mk.inj heq
  obtain ⟨hprobes, -⟩ := Rig.run_begins r troubledPlan "troubled" (tighter_none (some 3))
  obtain ⟨-, hpairs⟩ := Rig.run_begins r troubledPlan "troubled" (tighter_none (some 6))
  have hends : r.ProbeEnds (troubledPlan.within (some 3)) "troubled" p (.at 20) report v :=
    ⟨8, by decide, hrun⟩
  have hends' : r.ProbeEnds (troubledPlan.within none) "troubled" p (.at 20) report' v' :=
    ⟨8, by decide, hrun'⟩
  have hstops : r.PairEnds (troubledPlan.within (some 6)) "troubled" 20 op (.at 20) pair u :=
    ⟨8, by decide, hturns⟩
  refine ⟨tighter_none _, tighter_none _, ⟨report, v, report', v', hends, hends', hthree,
    hfive, ?_⟩, pair, u, hsix, hstops, ?_⟩
  · exact ((hprobes p (.at 20)).begins _ _ _ _ hends hends').1
  · refine (hpairs 20 op (.at 20)).unspent pair u .forward hstops fun c target hspent => ?_
    exact absurd (List.all_eq_true.1 hdrift _ hspent) Bool.false_ne_true

end LatencyGauge
