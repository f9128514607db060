/-
Two runs of the same scripts that start at different readings of the clock and of the ticks and wait
for different delays. A window shows what its call did and nothing of where the clock stood, unless
the call carries the clock over its end; the settling comes after the window, and whether a tick
changed does not depend on its value. So both runs judge every attempt alike and report the same.
-/
import LatencyGauge.Proofs.Measure.Ledger
import LatencyGauge.Proofs.Measure.Staged
import LatencyGauge.Proofs.Measure.Trial

namespace LatencyGauge

/-! ## Sequences of actions -/

/-- How often the operation of a half was called. -/
def Stage.played (s : Stage) : Half → Nat
  | .forward => s.first
  | .reverse => s.second

/-- Counts a call of the operation of a half. -/
def Stage.count (s : Stage) : Half → Stage
  | .forward => { s with first := s.first + 1 }
  | .reverse => { s with second := s.second + 1 }

/-- The operation of a half that carries out one action a call, by the number of the call. -/
def playing (acts : Half → Nat → Action) (half : Half) : Operation Stage := fun s =>
  (acts half (s.played half)).play (s.count half)

/-- The pair of both operations. -/
def Pair.playing (acts : Half → Nat → Action) : Pair Stage :=
  ⟨LatencyGauge.playing acts .forward, LatencyGauge.playing acts .reverse⟩

/-- A call carries the clock over its end. -/
def Call.Carries (acts : Half → Nat → Action) (x : Half × Call Stage) : Prop :=
  UInt64.size ≤ x.2.world.clock.toNat + (acts x.1 (x.2.world.played x.1)).cycles.toNat

instance (acts : Half → Nat → Action) (x : Half × Call Stage) : Decidable (Call.Carries acts x) :=
  inferInstanceAs (Decidable (_ ≤ _))

/-- A plan with other delays. -/
def LoopPlan.waiting (plan : LoopPlan) (settle quiescence : Cycles) : LoopPlan :=
  { plan with settle := settle, quiescence := quiescence }

/-- Two stages at which the same calls come next. Their clocks and ticks need not agree. -/
def Stage.InStep (s s' : Stage) : Prop := s.played = s'.played

theorem Stage.InStep.count {s s' : Stage} (h : s.InStep s') (half : Half) :
    (s.count half).InStep (s'.count half) := by
  have hforward : s.first = s'.first := congrFun h .forward
  have hreverse : s.second = s'.second := congrFun h .reverse
  funext other
  cases half <;> cases other <;> simp [Stage.played, Stage.count, hforward, hreverse]

/-! ## Actions -/

/-- An action that does not set the clock advances it and one counter. -/
theorem playing_steady {acts : Half → Nat → Action} (steady : ∀ half n, (acts half n).set = none)
    (half : Half) (s : Stage) :
    (playing acts half s).2.clock = s.clock + (acts half (s.played half)).cycles ∧
      (playing acts half s).2.panel.counters = fun i => s.panel.counters i +
        if i = 0 then UInt32.ofNat (acts half (s.played half)).ticks else 0 := by
  have hset := steady half (s.played half)
  have hclock : (s.count half).clock = s.clock := by cases half <;> rfl
  have hpanel : (s.count half).panel = s.panel := by cases half <;> rfl
  constructor
  · simp [playing, Action.play, hset, hclock]
  · funext i
    by_cases hnone : (acts half (s.played half)).ticks = 0
    · simp [playing, Action.play, hnone, hpanel]
    · by_cases hi : i = 0
      · simp [playing, Action.play, hnone, hpanel, Panel.put, hi]
      · simp [playing, Action.play, hnone, hpanel, Panel.put, hi]

theorem Action.played_play (a : Action) (s : Stage) : (a.play s).2.played = s.played := by
  funext half
  cases half <;> rfl

/-- The sample that an action shows at the start of a clock and of the ticks. -/
def Action.sample (a : Action) (o : Oracle) : Sample :=
  ⟨⟨0, a.cycles, a.code⟩, 0, o.value fun i => if i = 0 then UInt32.ofNat a.ticks else 0⟩

/-! ## Samples -/

/-- The verdict on a sample rests on whether the tick changed, on the code and on the length. -/
theorem Sample.verdict_congr {s s' : Sample} (plan : LoopPlan)
    (ticks : s.before = s.after ↔ s'.before = s'.after) (code : s.window.code = s'.window.code)
    (length : s.window.elapsed? = s'.window.elapsed?) : s.verdict plan = s'.verdict plan := by
  have hwindow : s.window.verdict plan.ceiling = s'.window.verdict plan.ceiling := by
    simp only [Window.verdict, length]
  simp only [Sample.verdict, ne_eq, ticks, code, hwindow]

/-! ## Attempts -/

section Scripts

variable {r : Rig Stage} {o : Oracle} {acts : Half → Nat → Action}

theorem Rig.Seen.keepsPlayed (hr : r.Seen id (Stage.rig (Stage.observe o))) :
    r.Keeps Stage.played := by
  constructor
  · intro s
    exact congrArg Stage.played (hr.reading s).2
  · intro c s
    rw [← show _ = r.wait c s from hr.wait c s]
    funext half
    cases half <;> rfl
  · intro s
    rw [show (r.observe s).2 = _ from (hr.observation s).2]
    funext half
    cases half <;> rfl

theorem Stage.InStep.playing (acts : Half → Nat → Action) (half : Half) {s s' : Stage}
    (h : s.InStep s') :
    (LatencyGauge.playing acts half s).2.InStep (LatencyGauge.playing acts half s').2 := by
  show (Action.play _ _).2.played = (Action.play _ _).2.played
  rw [Action.played_play, Action.played_play]
  exact h.count half

/-- An attempt at a script returns the code of the action that comes next, and as long as its call
does not carry the clock over its end, the action alone decides the verdict. -/
theorem Stage.tried_playing (hr : r.Seen id (Stage.rig (Stage.observe o)))
    (steady : ∀ half n, (acts half n).set = none) {plan : LoopPlan}
    {half : Half} {s v : Stage} {f : Attempt Stage}
    (h : r.tried plan (playing acts half) s = (f, v)) :
    f.call.code = (acts half (s.played half)).code ∧
      (¬ Call.Carries acts (half, f.call) →
        f.sample.verdict plan = ((acts half (s.played half)).sample o).verdict plan) := by
  have hf := hr.tried h
  obtain ⟨hworld, -⟩ := hr.keepsPlayed.tried h
  have hnext : acts half (f.call.world.played half) = acts half (s.played half) := by rw [hworld]
  obtain ⟨hclock, hcounters⟩ := playing_steady steady half f.call.world
  rw [hnext] at hclock hcounters
  have hcode : f.call.code = (acts half (s.played half)).code := by
    rw [← hnext]
    exact hf.code
  refine ⟨hcode, fun hcarry => Sample.verdict_congr plan ?_ hcode ?_⟩
  · -- the tick goes on by what the action adds to it, so it changes if that is not nothing
    have hafter : f.after = f.before + ((acts half (s.played half)).sample o).after := by
      rw [hf.after, hf.before]
      exact (congrArg (o.value ·) hcounters).trans (o.value_add _ _)
    show f.before = f.after ↔ 0 = ((acts half (s.played half)).sample o).after
    rw [hafter]
    exact UInt32.left_eq_add.trans eq_comm
  · have hstop : f.stop = f.start + (acts half (s.played half)).cycles := by
      rw [hf.stop, hf.start]
      exact hclock
    have hroom : f.start.toNat + (acts half (s.played half)).cycles.toNat < UInt64.size := by
      rw [hf.start, ← hnext]
      exact Nat.lt_of_not_le hcarry
    have hlength : f.sample.window.elapsed? = some (acts half (s.played half)).cycles :=
      Window.elapsed?_of_advance hstop hroom
    have hplain : ((acts half (s.played half)).sample o).window.elapsed? =
        some (acts half (s.played half)).cycles :=
      Window.elapsed?_of_advance (UInt64.zero_add _).symm
        (by simpa [Action.sample] using (acts half (s.played half)).cycles.toNat_lt)
    rw [hlength, hplain]

/-- Attempts in step are judged alike, whatever delays their plans ask for, and stay in step. -/
theorem Stage.InStep.tried (hr : r.Seen id (Stage.rig (Stage.observe o)))
    (steady : ∀ half n, (acts half n).set = none) {plan : LoopPlan}
    {settle quiescence : Cycles} {half : Half} {s s' v v' : Stage} {f f' : Attempt Stage}
    (hs : s.InStep s')
    (h : r.tried plan (LatencyGauge.playing acts half) s = (f, v))
    (h' : r.tried (plan.waiting settle quiescence)
      (LatencyGauge.playing acts half) s' = (f', v'))
    (hcarry : ¬ Call.Carries acts (half, f.call)) (hcarry' : ¬ Call.Carries acts (half, f'.call)) :
    f.sample.verdict plan = f'.sample.verdict (plan.waiting settle quiescence) ∧
      f.call.code = f'.call.code ∧ v.InStep v' := by
  obtain ⟨hcode, hverdict⟩ := Stage.tried_playing hr steady h
  obtain ⟨hcode', hverdict'⟩ := Stage.tried_playing hr steady h'
  obtain ⟨hworld, hleft⟩ := hr.keepsPlayed.tried h
  obtain ⟨hworld', hleft'⟩ := hr.keepsPlayed.tried h'
  have hsame : f.call.world.InStep f'.call.world := hworld.trans (hs.trans hworld'.symm)
  rw [hverdict hcarry, hverdict' hcarry', hcode, hcode', hs]
  exact ⟨rfl, rfl, hleft.trans ((hsame.playing acts half).trans hleft'.symm)⟩

theorem Stage.InStep.recover (hr : r.Seen id (Stage.rig (Stage.observe o))) {s s' : Stage}
    (h : s.InStep s') (plan plan' : LoopPlan) (verdict verdict' : Verdict) :
    (r.recover plan verdict s).InStep (r.recover plan' verdict' s') :=
  (hr.keepsPlayed.recover plan verdict s).trans
    (h.trans (hr.keepsPlayed.recover plan' verdict' s').symm)

/-! ## Loops -/

/-- Two recorded loops in step: they have counted the same, and the same calls come next. -/
def LoopsInStep {T : Type} (x y : T × (Stage × List (Note Stage))) : Prop :=
  x.1 = y.1 ∧ x.2.1.InStep y.2.1

/-- No call that a recorded loop has made carries the clock over its end. -/
def Uncarried {T : Type} (acts : Half → Nat → Action) (x : T × (Stage × List (Note Stage))) : Prop :=
  ∀ c ∈ callsIn x.2.2, ¬ Call.Carries acts c

theorem uncarried_append {T : Type} {t : T} {s : Stage} {record rest : List (Note Stage)} :
    Uncarried acts (t, (s, record ++ rest)) ↔
      (∀ c ∈ callsIn record, ¬ Call.Carries acts c) ∧ ∀ c ∈ callsIn rest, ¬ Call.Carries acts c := by
  unfold Uncarried
  rw [callsIn_append]
  simp only [List.mem_append, or_imp, forall_and]

/-- Warm-ups keep two stages in step. -/
theorem Stage.InStep.warmUp (hr : r.Seen id (Stage.rig (Stage.observe o))) {s s' : Stage}
    (h : s.InStep s') (half : Half) (n : Nat) :
    ((r.timed (LatencyGauge.playing acts half)).warmUp n s).InStep
      ((r.timed (LatencyGauge.playing acts half)).warmUp n s') := by
  induction n generalizing s s' with
  | zero => exact h
  | succ n ih =>
    refine ih ?_
    have hread : (r.now s).2.InStep (r.now s').2 :=
      (hr.keepsPlayed.now s).trans (h.trans (hr.keepsPlayed.now s').symm)
    exact (hr.keepsPlayed.now _).trans
      ((hread.playing acts half).trans (hr.keepsPlayed.now _).symm)

end Scripts

/-! ## Reports of recorded runs -/

theorem Rig.run_reports {W : Type} (r : Rig W) (plan : LoopPlan) (name : String) (op : Operation W)
    (fuel : Nat) (w : W) :
    (r.run plan name op fuel w).map Prod.fst =
      (r.recorded.run plan name (Operation.recorded op .forward) fuel (w, [])).map Prod.fst := by
  have hview := r.recorded_seen.runProbe plan (r.timed_recorded_seen op) name fuel (w, [])
  have hrun : r.run plan name op fuel w = r.runProbe plan name (r.timed op) fuel w := rfl
  rw [hrun, ← hview, Option.map_map]
  rfl

theorem Rig.runPair_reports {W : Type} (r : Rig W) (plan : LoopPlan) (name : String)
    (reverseBaseline : Cycles) (op : Pair W) (fuel : Nat) (w : W) :
    (r.runPair plan name reverseBaseline op fuel w).map Prod.fst =
      (r.recorded.runPair plan name reverseBaseline op.recorded fuel (w, [])).map Prod.fst := by
  rw [← r.recorded_seen.runPair plan op.recorded_seen name reverseBaseline fuel (w, []),
    Option.map_map]
  rfl

/-! ## Single loops -/

section Single

variable {r : Rig Stage} {o : Oracle} (hr : r.Seen id (Stage.rig (Stage.observe o)))
  {acts : Half → Nat → Action} (steady : ∀ half n, (acts half n).set = none)
  {plan : LoopPlan} {settle quiescence : Cycles}

include hr steady

/-- A step of a loop at a script, whose call does not carry the clock over its end. -/
theorem LoopsInStep.step {x y : Tally × (Stage × List (Note Stage))} (h : LoopsInStep x y)
    (hx : Uncarried acts (r.recorded.step plan
      (r.recorded.timed (Operation.recorded (playing acts .forward) .forward)) x))
    (hy : Uncarried acts (r.recorded.step (plan.waiting settle quiescence)
      (r.recorded.timed (Operation.recorded (playing acts .forward) .forward)) y)) :
    LoopsInStep
      (r.recorded.step plan
        (r.recorded.timed (Operation.recorded (playing acts .forward) .forward)) x)
      (r.recorded.step (plan.waiting settle quiescence)
        (r.recorded.timed (Operation.recorded (playing acts .forward) .forward)) y) := by
  obtain ⟨t, s, record⟩ := x
  obtain ⟨t', s', record'⟩ := y
  obtain ⟨htally, hs⟩ := h
  cases htried : r.tried plan (playing acts .forward) s with | mk f v
  cases htried' : r.tried (plan.waiting settle quiescence) (playing acts .forward) s' with
  | mk f' v'
  rw [r.step_timed_recorded plan _ t s record htried] at hx ⊢
  rw [r.step_timed_recorded (plan.waiting settle quiescence) _ t' s' record' htried'] at hy ⊢
  have hcarry : ¬ Call.Carries acts (.forward, f.call) :=
    (uncarried_append.1 hx).2 _ (by simp [f.callsIn_trail])
  have hcarry' : ¬ Call.Carries acts (.forward, f'.call) :=
    (uncarried_append.1 hy).2 _ (by simp [f'.callsIn_trail])
  obtain ⟨hverdict, -, hleft⟩ := Stage.InStep.tried hr steady hs htried htried' hcarry hcarry'
  constructor
  · show t.take _ = t'.take _
    have hcounted : t = t' := htally
    rw [hcounted, hverdict]
  · exact hleft.recover hr _ _ _ _

omit steady hr in
theorem uncarried_of_step (x : Tally × (Stage × List (Note Stage)))
    (h : Uncarried acts (r.recorded.step plan
      (r.recorded.timed (Operation.recorded (playing acts .forward) .forward)) x)) :
    Uncarried acts x := by
  obtain ⟨t, s, record⟩ := x
  rw [r.step_timed_recorded plan (playing acts .forward) t s record rfl] at h
  exact (uncarried_append.1 h).1

/-- Loops at a script from stages in step end in step, or neither ends. -/
theorem Stage.InStep.loop {s s' : Stage} (hs : s.InStep s') (fuel : Nat)
    (hx : ∀ x ∈ r.callsMade plan (LatencyGauge.playing acts .forward) fuel s, ¬ Call.Carries acts x)
    (hy : ∀ x ∈ r.callsMade (plan.waiting settle quiescence) (LatencyGauge.playing acts .forward)
      fuel s', ¬ Call.Carries acts x) :
    let p := r.recorded.timed (Operation.recorded (LatencyGauge.playing acts .forward) .forward)
    Option.Rel LoopsInStep
      (r.recorded.loop plan p fuel (p.warmUp plan.warmup.toNat (s, [])))
      (r.recorded.loop (plan.waiting settle quiescence) p fuel
        (p.warmUp plan.warmup.toNat (s', []))) := by
  intro p
  have hseen := r.timed_recorded_seen (LatencyGauge.playing acts .forward)
  have hwarm : (p.warmUp plan.warmup.toNat (s, [])).1.InStep
      (p.warmUp plan.warmup.toNat (s', [])).1 := by
    rw [← hseen.warmUp, ← hseen.warmUp]
    exact hs.warmUp hr .forward plan.warmup.toNat
  have hstop : ∀ x y : Tally × (Stage × List (Note Stage)), LoopsInStep x y →
      (!x.1.goesOn plan) = !y.1.goesOn (plan.waiting settle quiescence) := by
    intro x y h
    rw [h.1]
    rfl
  have hstep : ∀ x y, LoopsInStep x y → Uncarried acts (r.recorded.step plan p x) →
      Uncarried acts (r.recorded.step (plan.waiting settle quiescence) p y) →
      LoopsInStep (r.recorded.step plan p x)
        (r.recorded.step (plan.waiting settle quiescence) p y) :=
    fun x y h hx hy => h.step hr steady hx hy
  exact iterate_together (P := Uncarried acts) (Q := Uncarried acts) hstop hstep
    uncarried_of_step uncarried_of_step ⟨rfl, hwarm⟩ hx hy

/-- Runs with a script from stages in step report the same, or neither ends. -/
theorem Stage.InStep.run {s s' : Stage} (hs : s.InStep s') (name : String) (fuel : Nat)
    (hx : ∀ x ∈ r.callsMade plan (LatencyGauge.playing acts .forward) fuel s, ¬ Call.Carries acts x)
    (hy : ∀ x ∈ r.callsMade (plan.waiting settle quiescence) (LatencyGauge.playing acts .forward)
      fuel s', ¬ Call.Carries acts x) :
    (r.run plan name (LatencyGauge.playing acts .forward) fuel s).map Prod.fst =
      (r.run (plan.waiting settle quiescence) name (LatencyGauge.playing acts .forward) fuel
        s').map Prod.fst := by
  rw [r.run_reports, r.run_reports]
  unfold Rig.run Rig.runProbe
  rw [Option.map_map, Option.map_map]
  refine map_eq_of_rel ?_ (hs.loop hr steady fuel hx hy)
  intro x y h
  show x.1.report name plan x.1.completed = y.1.report name (plan.waiting _ _) y.1.completed
  rw [h.1]
  rfl

end Single

/-! ## Paired loops -/

theorem Sample.Accepted.of_verdict {plan plan' : LoopPlan} {s s' : Sample} (hs : s.Accepted plan)
    (h : s.verdict plan = s'.verdict plan') : s'.Accepted plan' := by
  have haccept := (Sample.verdict_eq_accept_iff plan s _).2 ⟨hs, rfl⟩
  rw [h] at haccept
  exact ((Sample.verdict_eq_accept_iff plan' s' _).1 haccept).1

/-- Two turns that are judged alike. -/
structure Turn.Alike {W : Type} (plan plan' : LoopPlan) (x x' : Turn W) : Prop where
  forward : x.forward.sample.verdict plan = x'.forward.sample.verdict plan'
  reverse : x.reverse?.map (·.sample.verdict plan) = x'.reverse?.map (·.sample.verdict plan')
  last : x.last.sample.verdict plan = x'.last.sample.verdict plan'

/-- Turns that are judged alike are counted alike. -/
theorem Turn.Alike.take {W : Type} {plan plan' : LoopPlan} {x x' : Turn W}
    (h : x.Alike plan plan' x') (t : PairTally) : t.take plan x = t.take plan' x' := by
  have hreverse := h.reverse
  unfold PairTally.take Turn.completes
  rw [h.forward, h.last]
  cases hx : x.reverse? with
  | none =>
    cases hx' : x'.reverse? with
    | none => rfl
    | some g' => rw [hx, hx'] at hreverse; cases hreverse
  | some g =>
    cases hx' : x'.reverse? with
    | none => rw [hx, hx'] at hreverse; cases hreverse
    | some g' =>
      rw [hx, hx'] at hreverse
      simp only [Option.map_some, Option.some.injEq] at hreverse
      simp only [hreverse]

theorem Rig.Takes.tried {W : Type} {r : Rig W} {plan : LoopPlan} {op : Pair W} {w v : W} {x : Turn W}
    (h : r.Takes plan op w x v) : ∃ u, r.tried plan op.forward w = (x.forward, u) := by
  cases h with
  | left tried _ _ => exact ⟨_, tried⟩
  | undone tried _ _ => exact ⟨_, tried⟩
  | followed tried _ _ => exact ⟨_, tried⟩

section Paired

variable {r : Rig Stage} {o : Oracle} (hr : r.Seen id (Stage.rig (Stage.observe o)))
  {acts : Half → Nat → Action} (steady : ∀ half n, (acts half n).set = none)
  {plan : LoopPlan} {settle quiescence : Cycles}

include hr steady

/-- Turns that stages in step take are judged alike, and keep them in step. -/
theorem Stage.InStep.takes {s s' v v' : Stage} {x x' : Turn Stage} (hs : s.InStep s')
    (h : r.Takes plan (Pair.playing acts) s x v)
    (h' : r.Takes (plan.waiting settle quiescence) (Pair.playing acts) s' x' v')
    (hx : ∀ c ∈ x.calls, ¬ Call.Carries acts c) (hx' : ∀ c ∈ x'.calls, ¬ Call.Carries acts c) :
    x.Alike plan (plan.waiting settle quiescence) x' ∧ v.InStep v' := by
  obtain ⟨u, htried⟩ := h.tried
  obtain ⟨u', htried'⟩ := h'.tried
  -- what follows the forward attempt is decided by its verdict and its code, which both runs share
  obtain ⟨hverdict, hcode, hbetween⟩ := Stage.InStep.tried hr steady hs htried htried'
    (hx _ (by simp [Turn.calls])) (hx' _ (by simp [Turn.calls]))
  cases h with
  | left tried failed unfit =>
    cases htried.symm.trans tried
    cases h' with
    | left tried' _ _ =>
      cases htried'.symm.trans tried'
      exact ⟨⟨hverdict, rfl, hverdict⟩, hbetween.recover hr _ _ _ _⟩
    | undone _ done _ => exact absurd (hcode.trans done) failed
    | followed _ fit _ => exact absurd (fit.of_verdict hverdict.symm) unfit
  | undone tried done unfit =>
    cases htried.symm.trans tried
    cases h' with
    | left _ failed _ => exact absurd (hcode.symm.trans done) failed
    | undone tried' _ _ =>
      cases htried'.symm.trans tried'
      exact ⟨⟨hverdict, rfl, hverdict⟩, (hbetween.playing acts .reverse).recover hr _ _ _ _⟩
    | followed _ fit _ => exact absurd (fit.of_verdict hverdict.symm) unfit
  | followed tried fit back =>
    cases htried.symm.trans tried
    cases h' with
    | left _ _ unfit => exact absurd (fit.of_verdict hverdict) unfit
    | undone _ _ unfit => exact absurd (fit.of_verdict hverdict) unfit
    | followed tried' _ back' =>
      cases htried'.symm.trans tried'
      obtain ⟨hreverse, -, hleft⟩ := Stage.InStep.tried hr steady hbetween back back'
        (hx _ (by simp [Turn.calls, Turn.back?])) (hx' _ (by simp [Turn.calls, Turn.back?]))
      exact ⟨⟨hverdict, congrArg some hreverse, hreverse⟩, hleft.recover hr _ _ _ _⟩

/-- A step of a loop over two scripts, whose calls do not carry the clock over its end. -/
theorem LoopsInStep.pairStep {x y : PairTally × (Stage × List (Note Stage))} (h : LoopsInStep x y)
    (hx : Uncarried acts (r.recorded.pairStep plan (Pair.playing acts).recorded x))
    (hy : Uncarried acts (r.recorded.pairStep (plan.waiting settle quiescence)
      (Pair.playing acts).recorded y)) :
    LoopsInStep (r.recorded.pairStep plan (Pair.playing acts).recorded x)
      (r.recorded.pairStep (plan.waiting settle quiescence) (Pair.playing acts).recorded y) := by
  obtain ⟨t, s, record⟩ := x
  obtain ⟨t', s', record'⟩ := y
  obtain ⟨htally, hs⟩ := h
  obtain ⟨x, v, htakes, hstep⟩ := r.pairStep_recorded plan (Pair.playing acts) t s record
  obtain ⟨x', v', htakes', hstep'⟩ :=
    r.pairStep_recorded (plan.waiting settle quiescence) (Pair.playing acts) t' s' record'
  rw [hstep] at hx ⊢
  rw [hstep'] at hy ⊢
  have hcalls := (uncarried_append.1 hx).2
  have hcalls' := (uncarried_append.1 hy).2
  rw [Turn.callsIn_notes] at hcalls hcalls'
  obtain ⟨halike, hleft⟩ := Stage.InStep.takes hr steady hs htakes htakes' hcalls hcalls'
  refine ⟨?_, hleft⟩
  show t.take plan x = t'.take _ x'
  have hcounted : t = t' := htally
  rw [hcounted]
  exact halike.take t'

omit hr steady in
theorem uncarried_of_pairStep (x : PairTally × (Stage × List (Note Stage)))
    (h : Uncarried acts (r.recorded.pairStep plan (Pair.playing acts).recorded x)) :
    Uncarried acts x := by
  obtain ⟨t, s, record⟩ := x
  obtain ⟨x, v, -, hstep⟩ := r.pairStep_recorded plan (Pair.playing acts) t s record
  rw [hstep] at h
  exact (uncarried_append.1 h).1

omit hr steady in
/-- Warm-ups of a pair keep two stages in step. -/
theorem Stage.InStep.pairWarmUp {s s' : Stage} (h : s.InStep s') (n : Nat) :
    ((Pair.playing acts).warmUp n s).InStep ((Pair.playing acts).warmUp n s') := by
  induction n generalizing s s' with
  | zero => exact h
  | succ n ih => exact ih ((h.playing acts .forward).playing acts .reverse)

/-- Loops over two scripts from stages in step end in step, or neither ends. -/
theorem Stage.InStep.pairLoop {s s' : Stage} (hs : s.InStep s') (reverseBaseline : Cycles)
    (fuel : Nat)
    (hx : ∀ x ∈ r.pairCallsMade plan reverseBaseline (Pair.playing acts) fuel s,
      ¬ Call.Carries acts x)
    (hy : ∀ x ∈ r.pairCallsMade (plan.waiting settle quiescence) reverseBaseline (Pair.playing acts)
      fuel s', ¬ Call.Carries acts x) :
    let op := (Pair.playing acts).recorded
    Option.Rel LoopsInStep
      (r.recorded.pairLoop plan reverseBaseline op fuel (op.warmUp plan.warmup.toNat (s, [])))
      (r.recorded.pairLoop (plan.waiting settle quiescence) reverseBaseline op fuel
        (op.warmUp plan.warmup.toNat (s', []))) := by
  intro op
  have hseen := (Pair.playing acts).recorded_seen
  have hwarm : (op.warmUp plan.warmup.toNat (s, [])).1.InStep
      (op.warmUp plan.warmup.toNat (s', [])).1 := by
    rw [← hseen.warmUp, ← hseen.warmUp]
    exact hs.pairWarmUp plan.warmup.toNat
  have hstop : ∀ x y : PairTally × (Stage × List (Note Stage)), LoopsInStep x y →
      (!x.1.goesOn plan) = !y.1.goesOn (plan.waiting settle quiescence) := by
    intro x y h
    rw [h.1]
    rfl
  have hstep : ∀ x y, LoopsInStep x y → Uncarried acts (r.recorded.pairStep plan op x) →
      Uncarried acts (r.recorded.pairStep (plan.waiting settle quiescence) op y) →
      LoopsInStep (r.recorded.pairStep plan op x)
        (r.recorded.pairStep (plan.waiting settle quiescence) op y) :=
    fun x y h hx hy => h.pairStep hr steady hx hy
  exact iterate_together (P := Uncarried acts) (Q := Uncarried acts) hstop hstep
    uncarried_of_pairStep uncarried_of_pairStep ⟨rfl, hwarm⟩ hx hy

/-- Runs over two scripts from stages in step report the same, or neither ends. -/
theorem Stage.InStep.runPair {s s' : Stage} (hs : s.InStep s') (name : String)
    (reverseBaseline : Cycles) (fuel : Nat)
    (hx : ∀ x ∈ r.pairCallsMade plan reverseBaseline (Pair.playing acts) fuel s,
      ¬ Call.Carries acts x)
    (hy : ∀ x ∈ r.pairCallsMade (plan.waiting settle quiescence) reverseBaseline (Pair.playing acts)
      fuel s', ¬ Call.Carries acts x) :
    (r.runPair plan name reverseBaseline (Pair.playing acts) fuel s).map Prod.fst =
      (r.runPair (plan.waiting settle quiescence) name reverseBaseline (Pair.playing acts) fuel
        s').map Prod.fst := by
  rw [r.runPair_reports, r.runPair_reports]
  unfold Rig.runPair
  rw [Option.map_map, Option.map_map]
  refine map_eq_of_rel ?_ (hs.pairLoop hr steady reverseBaseline fuel hx hy)
  intro x y h
  show x.1.report name plan = y.1.report name (plan.waiting _ _)
  rw [h.1]
  rfl

end Paired

/-! ## Runs -/

/-- Where operations only advance the clock and the tick and return codes, one action a call, neither
the readings at which the clock and the ticks start nor the delays of the plan leak into a result.
Two runs at which the same actions come next, under plans that differ in their delays only, in
neither of which a call carries the clock over its end, report the same after any number of
attempts, or neither of them has ended by then. This holds of runs with one operation and of runs
over a pair. -/
theorem Stage.run_reportsAlike {acts : Half → Nat → Action} (steady : ∀ half n, (acts half n).set = none)
    (o : Oracle) (plan : LoopPlan) (settle quiescence : Cycles) (name : String) {s s' : Stage}
    (start : s.InStep s') :
    let r := Stage.rig (Stage.observe o)
    let plan' := plan.waiting settle quiescence
    let op := Pair.playing acts
    (∀ fuel, (∀ x ∈ r.callsMade plan op.forward fuel s, ¬ Call.Carries acts x) →
      (∀ x ∈ r.callsMade plan' op.forward fuel s', ¬ Call.Carries acts x) →
      (r.run plan name op.forward fuel s).map Prod.fst =
        (r.run plan' name op.forward fuel s').map Prod.fst) ∧
    ∀ reverseBaseline fuel,
      (∀ x ∈ r.pairCallsMade plan reverseBaseline op fuel s, ¬ Call.Carries acts x) →
      (∀ x ∈ r.pairCallsMade plan' reverseBaseline op fuel s', ¬ Call.Carries acts x) →
      (r.runPair plan name reverseBaseline op fuel s).map Prod.fst =
        (r.runPair plan' name reverseBaseline op fuel s').map Prod.fst := by
  intro r plan' op
  have hr : r.Seen id (Stage.rig (Stage.observe o)) := Stage.rig_seen o
  constructor
  · intro fuel hx hy
    exact start.run hr steady name fuel hx hy
  · intro reverseBaseline fuel hx hy
    exact start.runPair hr steady name reverseBaseline fuel hx hy

/-! ## Scripts -/

/-- The actions of two scripts that are played over and over. An empty script does nothing and
succeeds. -/
def Script.acts (forward reverse : Script) : Half → Nat → Action
  | .forward, n => (cyclic? forward n).getD ⟨none, 0, 0, 0⟩
  | .reverse, n => (cyclic? reverse n).getD ⟨none, 0, 0, 0⟩

theorem Script.play_eq (script : Script) (position : Nat) (s : Stage) :
    Script.play script position s = ((cyclic? script position).getD ⟨none, 0, 0, 0⟩).play s := by
  unfold Script.play
  cases cyclic? script position with
  | some a => rfl
  | none => simp [Action.play]

/-- A pair of scripts is the pair of their actions. -/
theorem Script.pair_eq_playing (forward reverse : Script) :
    Script.pair forward reverse = Pair.playing (Script.acts forward reverse) := by
  have hforward : forward.operation = playing (Script.acts forward reverse) .forward := by
    funext s
    exact Script.play_eq forward s.first _
  have hreverse : reverse.second = playing (Script.acts forward reverse) .reverse := by
    funext s
    exact Script.play_eq reverse s.second _
  rw [Script.pair, Pair.playing, hforward, hreverse]

theorem Script.acts_steady {forward reverse : Script} (hforward : ∀ a ∈ forward, a.set = none)
    (hreverse : ∀ a ∈ reverse, a.set = none) (half : Half) (n : Nat) :
    (Script.acts forward reverse half n).set = none := by
  have hshown : ∀ script : Script, (∀ a ∈ script, a.set = none) →
      ((cyclic? script n).getD ⟨none, 0, 0, 0⟩).set = none := by
    intro script hscript
    cases h : cyclic? script n with
    | none => rfl
    | some a => exact hscript a (List.mem_of_getElem? h)
  cases half with
  | forward => exact hshown forward hforward
  | reverse => exact hshown reverse hreverse

/-- A warm-up, an interrupt, a failure, a long call and a good one. -/
def steadyScript : Script :=
  [⟨none, 5, 0, 0⟩, ⟨none, 10, 1, 0⟩, ⟨none, 10, 0, -1⟩, ⟨none, 200, 0, 0⟩, ⟨none, 12, 0, 0⟩]

/-- A stage close to the end of its clock and at the end of its ticks. -/
def Stage.late : Stage := { Stage.at 0xfffffffffffffc00 with panel := ⟨fun _ => 0xffffffff, []⟩ }

/-- From an early stage and from a late one, where a recovery carries the clock over its end and an
interrupt the tick, the steady script is reported on alike. -/
theorem Stage.run_reportsAlike_late :
    let r := Stage.rig (Stage.observe (.counter 0))
    let op := Script.pair steadyScript troubledReverse
    let plan' := troubledPlan.waiting 11 3000
    (Stage.at 20).InStep .late ∧
    (∃ report v v',
      r.run troubledPlan "steady" op.forward 8 (.at 20) = some (report, v) ∧
      r.run plan' "steady" op.forward 8 .late = some (report, v') ∧
      v.clock = 276 ∧ v'.clock = 2257 ∧ v'.tick = 0) ∧
    ∃ report v v',
      r.runPair troubledPlan "steady" 20 op 8 (.at 20) = some (report, v) ∧
      r.runPair plan' "steady" 20 op 8 .late = some (report, v') ∧
      v.clock = 499 ∧ v'.clock = 2488 := by
  intro r op plan'
  have start : (Stage.at 20).InStep .late := by
    funext half
    cases half <;> rfl
  have steady : ∀ half n, (Script.acts steadyScript troubledReverse half n).set = none :=
    Script.acts_steady (by decide) (by decide)
  obtain ⟨hruns, hpairs⟩ :=
    Stage.run_reportsAlike steady (.counter 0) troubledPlan 11 3000 "steady" start
  rw [← Script.pair_eq_playing] at hruns hpairs
  have hsame := hruns 8 (by decide +kernel) (by decide +kernel)
  have hboth := hpairs 20 8 (by decide +kernel) (by decide +kernel)
  have hearly : ((r.run troubledPlan "steady" op.forward 8 (.at 20)).map fun x => x.2.clock) =
      some 276 := by decide +kernel
  have hlate : ((r.run plan' "steady" op.forward 8 .late).map fun x => (x.2.clock, x.2.tick)) =
      some (2257, 0) := by decide +kernel
  have hpair : ((r.runPair troubledPlan "steady" 20 op 8 (.at 20)).map fun x => x.2.clock) =
      some 499 := by decide +kernel
  have hpair' : ((r.runPair plan' "steady" 20 op 8 .late).map fun x => x.2.clock) =
      some 2488 := by decide +kernel
  obtain ⟨⟨report, v⟩, hrun, hclock⟩ := Option.map_eq_some_iff.1 hearly
  obtain ⟨⟨report', v'⟩, hrun', hclock'⟩ := Option.map_eq_some_iff.1 hlate
  obtain ⟨⟨both, u⟩, hturns, hclocks⟩ := Option.map_eq_some_iff.1 hpair
  obtain ⟨⟨both', u'⟩, hturns', hclocks'⟩ := Option.map_eq_some_iff.1 hpair'
  rw [hrun, hrun'] at hsame
  rw [hturns, hturns'] at hboth
  cases hsame
  cases hboth
  obtain ⟨hend, htick⟩ := Prod.mk.inj hclock'
  exact ⟨start, ⟨report, v, v', hrun, hrun', hclock, hend, htick⟩, both, u, u', hturns, hturns',
    hclocks, hclocks'⟩

end LatencyGauge
