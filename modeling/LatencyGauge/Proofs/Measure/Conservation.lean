/-
Where the time of a run goes, and what it observes. On a clock that moves only when it is told to,
every cycle of a run belongs to a call of the operation, to the settling of an attempt or to the
recovery from a changed tick. The oracle is observed twice in an attempt and nowhere else: not in a
warm-up, not around a call that undoes another one, and not in a pass without filters.
-/
import LatencyGauge.Proofs.Measure.Ledger
import LatencyGauge.Proofs.Measure.Staged
import LatencyGauge.Proofs.Measure.Trial

namespace LatencyGauge

variable {W : Type}

/-! ## Ways -/

/-- From one world to another the clock went on by some cycles and an oracle was observed a number
of times; nothing else sent a line. Cycles wrap as the clock does. -/
structure Oracle.Passes (o : Oracle) (stage : W → Stage) (w : W) (cycles : Cycles) (times : Nat)
    (v : W) : Prop where
  clock : (stage v).clock = (stage w).clock + cycles
  sent : (stage v).panel.log.reverse =
    (stage w).panel.log.reverse ++ (List.replicate times o.markers).flatten

section Ways

variable {o : Oracle} {stage : W → Stage} {w v u : W} {c d : Cycles} {m n : Nat}

theorem Oracle.Passes.refl (o : Oracle) (stage : W → Stage) (w : W) : o.Passes stage w 0 0 w where
  clock := (UInt64.add_zero _).symm
  sent := by simp

/-- Along one way and then another, cycles and observations add up. -/
theorem Oracle.Passes.trans (h : o.Passes stage w c m v) (h' : o.Passes stage v d n u) :
    o.Passes stage w (c + d) (m + n) u where
  clock := by rw [h'.clock, h.clock, UInt64.add_assoc]
  sent := by
    rw [h'.sent, h.sent, ← List.replicate_append_replicate, List.flatten_append, List.append_assoc]

theorem Oracle.Passes.congr (h : o.Passes stage w c m v) (hcycles : c = d) (htimes : m = n) :
    o.Passes stage w d n v := by
  subst hcycles htimes
  exact h

/-- The lines that an oracle sends to a sink with every observation. -/
def Oracle.linesTo (o : Oracle) (sink : Nat) : List String :=
  o.markers.filterMap fun (s, line) => if s = sink then some line else none

/-- A sink has been sent the lines of all observations. -/
theorem Oracle.Passes.lines (h : o.Passes stage w c m v) (sink : Nat) :
    (stage v).panel.lines sink =
      (stage w).panel.lines sink ++ (List.replicate m (o.linesTo sink)).flatten := by
  unfold Panel.lines Oracle.linesTo
  rw [h.sent, List.filterMap_append, List.filterMap_flatten, List.map_replicate]

end Ways

/-- A flush point whose sink is sent nothing else sends it its marker. -/
theorem Oracle.linesTo_flushPoint (sink : Nat) (marker : String) {inner : Oracle}
    (alone : ∀ x ∈ inner.markers, x.1 ≠ sink) :
    (Oracle.flushPoint sink (some marker) inner).linesTo sink = [marker] := by
  have hinner : inner.linesTo sink = [] := by
    rw [Oracle.linesTo, List.filterMap_eq_nil_iff]
    intro x hx
    simp [alone x hx]
  unfold Oracle.linesTo at hinner ⊢
  simp [Oracle.markers, hinner]

/-! ## Calls -/

/-- An operation that does nothing to a clock but to move it, by a number of cycles that depends on
the world, and sends no lines. It may do anything to the counters. -/
structure Operation.Advances (op : Operation W) (stage : W → Stage) (cost : W → Cycles) :
    Prop where
  clock : ∀ w, (stage (op w).2).clock = (stage w).clock + cost w
  log : ∀ w, (stage (op w).2).panel.log = (stage w).panel.log

/-- A pair of such operations. -/
structure Pair.Advances (op : Pair W) (stage : W → Stage) (cost : Half → W → Cycles) : Prop where
  forward : Operation.Advances op.forward stage (cost .forward)
  reverse : Operation.Advances op.reverse stage (cost .reverse)

/-- The cycles of calls. -/
def cyclesOf (cost : Half → W → Cycles) (calls : List (Half × Call W)) : Cycles :=
  calls.foldr (fun x cycles => cost x.1 x.2.world + cycles) 0

section Costs

variable (cost : Half → W → Cycles)

@[simp] theorem cyclesOf_nil : cyclesOf cost [] = 0 := rfl

@[simp] theorem cyclesOf_cons (x : Half × Call W) (calls : List (Half × Call W)) :
    cyclesOf cost (x :: calls) = cost x.1 x.2.world + cyclesOf cost calls := rfl

@[simp] theorem cyclesOf_append (l m : List (Half × Call W)) :
    cyclesOf cost (l ++ m) = cyclesOf cost l + cyclesOf cost m := by
  induction l with
  | nil => exact (UInt64.zero_add _).symm
  | cons x l ih => rw [List.cons_append, cyclesOf_cons, ih, cyclesOf_cons, UInt64.add_assoc]

end Costs

theorem Operation.Advances.passes {op : Operation W} {stage : W → Stage} {cost : W → Cycles}
    (h : Operation.Advances op stage cost) (o : Oracle) (w : W) :
    o.Passes stage w (cost w) 0 (op w).2 where
  clock := h.clock w
  sent := by simp [h.log w]

/-! ## Delays -/

/-- The delay that a verdict asks for. -/
def LoopPlan.recovery (plan : LoopPlan) (v : Verdict) : Cycles :=
  if v = .reject .tickChanged then plan.quiescence else 0

/-- How many samples are thrown away for a changed tick. -/
def LoopPlan.disturbedIn (plan : LoopPlan) (samples : List Sample) : Nat :=
  (samples.map (Sample.verdict · plan)).count (.reject .tickChanged)

/-- The delays that go with samples: settling with each, and a recovery where the tick changed. -/
def LoopPlan.delays (plan : LoopPlan) (samples : List Sample) : Cycles :=
  plan.settle * UInt64.ofNat samples.length + plan.quiescence * UInt64.ofNat (plan.disturbedIn samples)

theorem LoopPlan.delays_nil (plan : LoopPlan) : plan.delays [] = 0 := by
  simp [LoopPlan.delays, LoopPlan.disturbedIn]

theorem LoopPlan.delays_append (plan : LoopPlan) (l m : List Sample) :
    plan.delays (l ++ m) = plan.delays l + plan.delays m := by
  unfold LoopPlan.delays LoopPlan.disturbedIn
  simp only [List.length_append, List.map_append, List.count_append, UInt64.ofNat_add,
    UInt64.mul_add]
  ac_rfl

theorem LoopPlan.delays_singleton (plan : LoopPlan) (s : Sample) :
    plan.delays [s] = plan.settle + plan.recovery (s.verdict plan) := by
  unfold LoopPlan.delays LoopPlan.disturbedIn LoopPlan.recovery
  by_cases h : s.verdict plan = .reject .tickChanged
  · simp [h]
  · simp [h]

/-- An accepted sample asks for settling only. -/
theorem LoopPlan.delays_accepted (plan : LoopPlan) {s : Sample} (h : s.Accepted plan) :
    plan.delays [s] = plan.settle := by
  rw [plan.delays_singleton, (Sample.verdict_eq_accept_iff plan s _).2 ⟨h, rfl⟩]
  exact UInt64.add_zero _

/-- A report tells the delays of the samples that it accounts for. -/
theorem LoopReport.Accounts.delays {report : LoopReport} {plan : LoopPlan} {baseline : Cycles}
    {samples : List Sample} (h : report.Accounts plan baseline samples) :
    plan.delays samples =
      plan.settle * report.attempts + plan.quiescence * report.rejected.tickChanged := by
  have hattempts : UInt64.ofNat samples.length = report.attempts := by
    rw [← h.attempts, UInt64.ofNat_toNat]
  have hdisturbed : UInt64.ofNat (plan.disturbedIn samples) = report.rejected.tickChanged := by
    have hcount := h.rejected .tickChanged
    rw [← count_reject_verdict] at hcount
    rw [LoopPlan.disturbedIn, ← hcount, UInt64.ofNat_toNat]
    rfl
  rw [LoopPlan.delays, hattempts, hdisturbed]

/-! ## Loops -/

section Loops

variable {r : Rig W} {stage : W → Stage} {o : Oracle} (hr : r.Seen stage (Stage.rig (Stage.observe o)))

include hr

theorem Rig.Seen.nowPasses (w : W) : o.Passes stage w 0 0 (r.now w).2 where
  clock := by rw [(hr.reading w).2, UInt64.add_zero]
  sent := by simp [(hr.reading w).2]

theorem Rig.Seen.pausePasses (c : Cycles) (w : W) : o.Passes stage w c 0 (r.pause c w) where
  clock := by rw [hr.pausing, Stage.clock_advance]
  sent := by simp [hr.pausing]

theorem Rig.Seen.recoverPasses (plan : LoopPlan) (verdict : Verdict) (w : W) :
    o.Passes stage w (plan.recovery verdict) 0 (r.recover plan verdict w) := by
  unfold Rig.recover
  split
  · exact hr.pausePasses plan.quiescence w
  · rename_i hother
    exact (Oracle.Passes.refl o stage w).congr (if_neg hother).symm rfl

/-- An attempt takes the cycles of its call and the settling, and observes twice. -/
theorem Rig.Seen.triedPasses {plan : LoopPlan} {op : Operation W} {cost : W → Cycles}
    (hop : Operation.Advances op stage cost) {w v : W} {f : Attempt W}
    (h : r.tried plan op w = (f, v)) :
    o.Passes stage w (cost f.call.world + plan.settle) 2 v := by
  have hf := hr.tried h
  constructor
  case clock =>
    rw [hf.left, Stage.clock_observe, Stage.clock_advance, hop.clock, hf.world,
      Stage.clock_observe, UInt64.add_assoc]
  case sent =>
    rw [hf.left, Stage.observe_eq]
    simp [hop.log, hf.world, Stage.observe_eq]

section Single

variable {plan : LoopPlan} {op : Operation W} (cost : Half → W → Cycles)
  (hop : Operation.Advances op stage (cost .forward))

include hop

/-- A warm-up takes the cycles of its calls. -/
theorem Rig.Seen.timesPasses {w v : W} {timings : List (TimedCall W)} (h : r.Times op w timings v) :
    o.Passes stage w (cyclesOf cost (timings.map fun x => (.forward, x.call))) 0 v := by
  induction h with
  | nil => exact .refl o stage _
  | @cons w v u x l first _ ih =>
    have hcall : o.Passes stage w (cost .forward x.call.world) 0 v := by
      cases first
      have hmade := (hr.nowPasses w).trans ((hop.passes o (r.now w).2).trans (hr.nowPasses _))
      exact hmade.congr (by rw [UInt64.add_zero, UInt64.zero_add]) rfl
    exact (hcall.trans ih).congr (cyclesOf_cons cost (.forward, x.call) _).symm rfl

/-- Attempts take the cycles of their calls and the delays of their samples. -/
theorem Rig.Seen.triesPasses {w v : W} {tries : List (Attempt W)} (h : r.Tries plan op w tries v) :
    o.Passes stage w
      (cyclesOf cost (tries.map fun f => (.forward, f.call)) + plan.delays (tries.map Attempt.sample))
      (2 * tries.length) v := by
  induction h with
  | nil => exact (Oracle.Passes.refl o stage w).congr (by simp [plan.delays_nil]) rfl
  | @snoc l f v u _ last ih =>
    have hlast := (hr.triedPasses hop last).trans (hr.recoverPasses plan (f.sample.verdict plan) u)
    refine (ih.trans hlast).congr ?_ (by simp; omega)
    simp only [List.map_append, List.map_singleton, cyclesOf_append, cyclesOf_cons, cyclesOf_nil,
      plan.delays_append, plan.delays_singleton, UInt64.add_zero]
    ac_rfl

omit hr in
/-- A number of calls in a row. -/
theorem Operation.Advances.repeatedPasses (o : Oracle) (n : Nat) (w : W) (record : List (Note W)) :
    ∃ calls : List (Half × Call W),
      Operation.repeated (Operation.recorded op .forward) n (w, record) =
        (Operation.repeated op n w, record ++ calls.map fun x => .called x.1 x.2) ∧
      o.Passes stage w (cyclesOf cost calls) 0 (Operation.repeated op n w) := by
  induction n generalizing w record with
  | zero => exact ⟨[], by simp [Operation.repeated], .refl o stage w⟩
  | succ n ih =>
    obtain ⟨calls, hrun, hpasses⟩ := ih (op w).2 (record ++ [.called .forward ⟨w, (op w).1⟩])
    refine ⟨(.forward, ⟨w, (op w).1⟩) :: calls, ?_, ?_⟩
    · show Operation.repeated (Operation.recorded op .forward) n
        ((op w).2, record ++ [.called .forward ⟨w, (op w).1⟩]) = _
      rw [hrun]
      simp [Operation.repeated]
    · exact ((hop.passes o w).trans hpasses).congr
        (cyclesOf_cons cost (.forward, ⟨w, (op w).1⟩) calls).symm rfl

end Single

section Paired

variable {plan : LoopPlan} {op : Pair W} {cost : Half → W → Cycles}
  (hop : op.Advances stage cost)

include hop

omit hr in
/-- A warm-up takes the cycles of its calls. -/
theorem Pair.Advances.rehearsesPasses (o : Oracle) {w v : W} {rounds : List (Rehearsal W)}
    (h : op.Rehearses w rounds v) :
    o.Passes stage w (cyclesOf cost (rounds.flatMap Rehearsal.calls)) 0 v := by
  induction h with
  | nil => exact .refl o stage _
  | @cons w v l _ ih =>
    have hround := (hop.forward.passes o w).trans (hop.reverse.passes o (op.forward w).2)
    refine (hround.trans ih).congr ?_ rfl
    simp only [List.flatMap_cons, Rehearsal.calls, cyclesOf_append, cyclesOf_cons, cyclesOf_nil,
      UInt64.add_zero]

/-- A turn takes the cycles of its calls and the delays of its samples. -/
theorem Rig.Seen.takesPasses {w v : W} {x : Turn W} (h : r.Takes plan op w x v) :
    o.Passes stage w
      (cyclesOf cost x.calls +
        (plan.delays [x.forward.sample] + plan.delays (x.reverse?.map Attempt.sample).toList))
      (2 * (1 + x.reverse?.toList.length)) v := by
  cases h with
  | @left f v tried _ _ =>
    have hforward := (hr.triedPasses hop.forward tried).trans
      (hr.recoverPasses plan (f.sample.verdict plan) v)
    refine hforward.congr ?_ rfl
    simp only [Turn.calls, Turn.back?, Turn.forward, Turn.reverse?, plan.delays_singleton,
      Option.map_none, Option.toList_none, cyclesOf_cons, cyclesOf_nil, plan.delays_nil,
      UInt64.add_zero]
    ac_rfl
  | @undone f v tried _ _ =>
    -- the call that undoes the other one is made before the recovery, and nothing is observed
    have hforward := ((hr.triedPasses hop.forward tried).trans (hop.reverse.passes o v)).trans
      (hr.recoverPasses plan (f.sample.verdict plan) (op.reverse v).2)
    refine hforward.congr ?_ rfl
    simp only [Turn.calls, Turn.back?, Turn.forward, Turn.reverse?, plan.delays_singleton,
      Option.map_none, Option.map_some, Option.toList_none, Option.toList_some, cyclesOf_cons,
      cyclesOf_nil, plan.delays_nil, UInt64.add_zero]
    ac_rfl
  | @followed f g v u tried fit back =>
    have hboth := ((hr.triedPasses hop.forward tried).trans
      (hr.triedPasses hop.reverse back)).trans (hr.recoverPasses plan (g.sample.verdict plan) u)
    refine hboth.congr ?_ rfl
    simp only [Turn.calls, Turn.back?, Turn.forward, Turn.reverse?, plan.delays_accepted fit,
      Option.map_some, Option.toList_some, cyclesOf_cons, cyclesOf_nil, plan.delays_singleton,
      UInt64.add_zero]
    ac_rfl

/-- Turns take the cycles of their calls and the delays of the samples of both halves. -/
theorem Rig.Seen.takesAllPasses {w v : W} {turns : List (Turn W)}
    (h : r.TakesAll plan op w turns v) :
    o.Passes stage w
      (cyclesOf cost (turns.flatMap Turn.calls) +
        (plan.delays (forwardSamples turns) + plan.delays (reverseSamples turns)))
      (2 * ((forwardSamples turns).length + (reverseSamples turns).length)) v := by
  induction h with
  | nil =>
    refine (Oracle.Passes.refl o stage w).congr ?_ rfl
    simp [forwardSamples, reverseSamples, plan.delays_nil]
  | @snoc l x v u _ last ih =>
    refine (ih.trans (hr.takesPasses hop last)).congr ?_ ?_
    · simp only [forwardSamples_append, reverseSamples_append, List.flatMap_append,
        List.flatMap_singleton, cyclesOf_append, plan.delays_append]
      ac_rfl
    · simp only [forwardSamples_append, reverseSamples_append, List.length_append,
        List.length_singleton, Option.length_toList, Option.isSome_map]
      omega

end Paired

end Loops

/-! ## Observations in a record -/

/-- Whether a note is about an observation. -/
def Note.isObserved : Note W → Bool
  | .observed _ => true
  | _ => false

/-- The number of observations in a record. -/
def observationsIn (record : List (Note W)) : Nat := record.countP Note.isObserved

theorem observationsIn_append (l m : List (Note W)) :
    observationsIn (l ++ m) = observationsIn l + observationsIn m :=
  List.countP_append

/-- Items that leave equally many observations each. -/
theorem observationsIn_flatMap {A : Type} {f : A → List (Note W)} {n : Nat}
    (h : ∀ a, observationsIn (f a) = n) (l : List A) :
    observationsIn (l.flatMap f) = n * l.length := by
  induction l with
  | nil => rfl
  | cons a l ih =>
    rw [List.flatMap_cons, observationsIn_append, h, ih, List.length_cons, Nat.mul_succ,
      Nat.add_comm]

theorem observationsIn_pauseNotes (c : Cycles) :
    observationsIn (pauseNotes c : List (Note W)) = 0 := by
  unfold pauseNotes
  split <;> rfl

theorem observationsIn_recoveryNotes (plan : LoopPlan) (v : Verdict) :
    observationsIn (plan.recoveryNotes v : List (Note W)) = 0 := by
  unfold LoopPlan.recoveryNotes
  split
  · exact observationsIn_pauseNotes _
  · rfl

/-- An attempt observes twice. -/
theorem Attempt.observationsIn_notes (plan : LoopPlan) (half : Half) (f : Attempt W) :
    observationsIn (f.notes plan half) = 2 := by
  unfold Attempt.notes
  rw [observationsIn_append, observationsIn_append, observationsIn_pauseNotes]
  rfl

theorem Attempt.observationsIn_trail (plan : LoopPlan) (f : Attempt W) :
    observationsIn (f.trail plan) = 2 := by
  rw [Attempt.trail, observationsIn_append, f.observationsIn_notes, observationsIn_recoveryNotes]

/-- A turn observes twice for each of its samples, and not for a call that undoes another one. -/
theorem Turn.observationsIn_notes (plan : LoopPlan) (x : Turn W) :
    observationsIn (x.notes plan) = 2 * (1 + x.reverse?.toList.length) := by
  unfold Turn.notes
  rw [observationsIn_append, observationsIn_recoveryNotes]
  cases x with
  | left f => exact f.observationsIn_notes plan .forward
  | undone f v =>
    show observationsIn (f.notes plan .forward ++ [.called .reverse v]) = _
    rw [observationsIn_append, f.observationsIn_notes]
    rfl
  | followed f g =>
    show observationsIn (f.notes plan .forward ++ g.notes plan .reverse) = _
    rw [observationsIn_append, f.observationsIn_notes, g.observationsIn_notes]
    rfl

theorem observationsIn_timings (timings : List (TimedCall W)) :
    observationsIn (timings.flatMap TimedCall.notes) = 0 := by
  rw [observationsIn_flatMap (n := 0) fun _ => rfl, Nat.zero_mul]

theorem observationsIn_rounds (rounds : List (Rehearsal W)) :
    observationsIn (rounds.flatMap Rehearsal.notes) = 0 := by
  rw [observationsIn_flatMap (n := 0) fun _ => rfl, Nat.zero_mul]

theorem observationsIn_called (calls : List (Half × Call W)) :
    observationsIn (calls.map fun x => (.called x.1 x.2 : Note W)) = 0 := by
  rw [List.map_eq_flatMap, observationsIn_flatMap (n := 0) fun _ => rfl, Nat.zero_mul]

theorem observationsIn_tries (plan : LoopPlan) (tries : List (Attempt W)) :
    observationsIn (tries.flatMap (Attempt.trail plan)) = 2 * tries.length :=
  observationsIn_flatMap (Attempt.observationsIn_trail plan) tries

theorem observationsIn_turns (plan : LoopPlan) (turns : List (Turn W)) :
    observationsIn (turns.flatMap (Turn.notes plan)) =
      2 * ((forwardSamples turns).length + (reverseSamples turns).length) := by
  induction turns with
  | nil => rfl
  | cons x turns ih =>
    rw [List.flatMap_cons, observationsIn_append, ih, x.observationsIn_notes]
    cases x <;> simp [forwardSamples, reverseSamples, Turn.reverse?] <;> omega

/-! ## Scripts -/

/-- The cycles of the action that a script shows at a position. -/
def Script.cycles (script : Script) (position : Nat) : Cycles :=
  ((cyclic? script position).map Action.cycles).getD 0

/-- A script that never sets the clock moves it by the cycles of its actions and sends no lines. -/
theorem Script.play_advances {script : Script} (steady : ∀ a ∈ script, a.set = none)
    (position : Nat) (s : Stage) :
    (Script.play script position s).2.clock = s.clock + script.cycles position ∧
      (Script.play script position s).2.panel.log = s.panel.log := by
  unfold Script.play Script.cycles
  cases h : cyclic? script position with
  | none => simp
  | some a =>
    have hset := steady a (List.mem_of_getElem? h)
    refine ⟨by simp [Action.play, hset], ?_⟩
    simp only [Action.play]
    split <;> rfl

/-- The cycles of the calls of a pair of scripts. -/
def Script.pairCycles (forward reverse : Script) : Half → Stage → Cycles
  | .forward, s => forward.cycles s.first
  | .reverse, s => reverse.cycles s.second

theorem Script.pair_advances {forward reverse : Script} (hforward : ∀ a ∈ forward, a.set = none)
    (hreverse : ∀ a ∈ reverse, a.set = none) :
    (Script.pair forward reverse).Advances id (Script.pairCycles forward reverse) where
  forward :=
    { clock := fun s => (Script.play_advances hforward s.first _).1
      log := fun s => (Script.play_advances hforward s.first _).2 }
  reverse :=
    { clock := fun s => (Script.play_advances hreverse s.second _).1
      log := fun s => (Script.play_advances hreverse s.second _).2 }

/-- A warm-up, an interrupt, a failure, a call over the end of the clock, a long call, a good one. -/
def eventfulScript : Script :=
  [⟨none, 5, 0, 0⟩, ⟨none, 10, 1, 0⟩, ⟨none, 10, 0, -1⟩, ⟨none, 0xffffffffffffff00, 0, 0⟩,
    ⟨none, 200, 0, 0⟩, ⟨none, 12, 0, 0⟩]

/-! ## Runs -/

/-- A run from one world to another, with a number of attempts some of which were disturbed, left
nothing out: the clock went on by the cycles of the calls in its record, by the settling of every
attempt and by the recovery from every disturbed one; the oracle was observed twice in every
attempt; and so many times every flush point sent its marker. -/
structure Oracle.Conserves (o : Oracle) (stage : W → Stage) (plan : LoopPlan)
    (cost : Half → W → Cycles) (w : W) (record : List (Note W)) (attempts disturbed : Nat) (v : W) :
    Prop where
  clock : (stage v).clock = (stage w).clock + cyclesOf cost (callsIn record) +
    plan.settle * UInt64.ofNat attempts + plan.quiescence * UInt64.ofNat disturbed
  observed : observationsIn record = 2 * attempts
  lines : ∀ sink, (stage v).panel.lines sink =
    (stage w).panel.lines sink ++ (List.replicate (2 * attempts) (o.linesTo sink)).flatten
  marked : ∀ sink marker inner, o = .flushPoint sink (some marker) inner →
    (∀ x ∈ inner.markers, x.1 ≠ sink) →
    (stage v).panel.lines sink =
      (stage w).panel.lines sink ++ List.replicate (2 * attempts) marker

theorem Oracle.Passes.conserves {o : Oracle} {stage : W → Stage} {plan : LoopPlan}
    {cost : Half → W → Cycles} {w v : W} {record : List (Note W)} {attempts disturbed : Nat}
    (h : o.Passes stage w (cyclesOf cost (callsIn record) +
      (plan.settle * UInt64.ofNat attempts + plan.quiescence * UInt64.ofNat disturbed))
      (2 * attempts) v)
    (hobserved : observationsIn record = 2 * attempts) :
    o.Conserves stage plan cost w record attempts disturbed v where
  clock := by
    rw [h.clock]
    ac_rfl
  observed := hobserved
  lines := h.lines
  marked := by
    rintro sink marker inner rfl alone
    rw [h.lines, Oracle.linesTo_flushPoint sink marker alone]
    simp

/-- Every run with an operation that words can count leaves nothing out, and its warm-up observes
nothing. -/
def Rig.ConservesRun (r : Rig W) (o : Oracle) (stage : W → Stage) (plan : LoopPlan) (name : String)
    (op : Operation W) (cost : W → Cycles) : Prop :=
  ∀ fuel < attemptBound, ∀ w report v, r.run plan name op fuel w = some (report, v) →
    ∃ (warm : List (Note W)) (tries : List (Attempt W)),
      let record := warm ++ tries.flatMap (Attempt.trail plan)
      r.recorded.run plan name (Operation.recorded op .forward) fuel (w, []) =
        some (report, (v, record)) ∧
      halvesIn warm = List.replicate plan.warmup.toNat .forward ∧ observationsIn warm = 0 ∧
      tries.length = report.attempts.toNat ∧
      (∀ f ∈ tries, observationsIn (f.trail plan) = 2) ∧
      o.Conserves stage plan (fun _ => cost) w record report.attempts.toNat
        report.rejected.tickChanged.toNat v

/-- Every run over a pair that words can count leaves nothing out, and neither its warm-up nor a
call that undoes another one is observed. -/
def Rig.ConservesPair (r : Rig W) (o : Oracle) (stage : W → Stage) (plan : LoopPlan) (name : String)
    (op : Pair W) (cost : Half → W → Cycles) : Prop :=
  ∀ reverseBaseline, ∀ fuel < attemptBound, ∀ w report v,
    r.runPair plan name reverseBaseline op fuel w = some (report, v) →
    ∃ (warm : List (Note W)) (turns : List (Turn W)),
      let record := warm ++ turns.flatMap (Turn.notes plan)
      r.recorded.runPair plan name reverseBaseline op.recorded fuel (w, []) =
        some (report, (v, record)) ∧
      halvesIn warm = backAndForth plan.warmup.toNat ∧ observationsIn warm = 0 ∧
      turns.length = report.forward.attempts.toNat ∧
      (∀ x ∈ turns, observationsIn (x.notes plan) = 2 * (1 + x.reverse?.toList.length)) ∧
      o.Conserves stage plan cost w record
        (report.forward.attempts.toNat + report.reverse.attempts.toNat)
        (report.forward.rejected.tickChanged.toNat + report.reverse.rejected.tickChanged.toNat) v

/-- A pass without filters takes the cycles of its calls and observes nothing. -/
def Rig.ConservesPass (r : Rig W) (o : Oracle) (stage : W → Stage) (plan : LoopPlan)
    (op : Operation W) (cost : W → Cycles) : Prop :=
  ∀ n w, ∃ record,
    r.recorded.unfiltered (Operation.recorded op .forward) n (w, []) =
      ((r.unfiltered op n w).1, ((r.unfiltered op n w).2, record)) ∧
    o.Conserves stage plan (fun _ => cost) w record 0 0 (r.unfiltered op n w).2

section Runs

variable {r : Rig W} {stage : W → Stage} {o : Oracle} (hr : r.Seen stage (Stage.rig (Stage.observe o)))
  (plan : LoopPlan) (name : String)

include hr

theorem Rig.Seen.conservesRun {op : Operation W} {cost : W → Cycles}
    (hop : Operation.Advances op stage cost) : r.ConservesRun o stage plan name op cost := by
  intro fuel hfuel w report v h
  obtain ⟨⟨t, v⟩, hloop, heq⟩ := Option.map_eq_some_iff.1 h
  cases heq
  obtain ⟨record, hrecorded⟩ := Rig.exists_record_of_loop hloop
  obtain ⟨timings, tries, rfl, hlength, hruns⟩ := Rig.loop_recorded hrecorded
  have haccounts := hruns.report_accounts (Nat.lt_of_le_of_lt hlength hfuel) name t.completed
  have hattempts : tries.length = (t.report name plan t.completed).attempts.toNat := by
    rw [haccounts.attempts, List.length_map]
  refine ⟨_, tries, Option.map_eq_some_iff.2 ⟨_, hrecorded, rfl⟩, ?_,
    observationsIn_timings timings, hattempts, ?_,
    Oracle.Passes.conserves ?_ ?_⟩
  · rw [halvesIn, callsIn_timings, ← hruns.length]
    simp [Function.comp_def, List.map_const']
  · intro f _
    exact f.observationsIn_trail plan
  · have hpasses := (hr.timesPasses (fun _ => cost) hop hruns.warmed).trans
      (hr.triesPasses (fun _ => cost) hop hruns.made)
    refine hpasses.congr ?_ (by omega)
    rw [callsIn_trial, cyclesOf_append, haccounts.delays, UInt64.ofNat_toNat, UInt64.ofNat_toNat,
      UInt64.add_assoc]
  · rw [observationsIn_append, observationsIn_timings, observationsIn_tries, hattempts,
      Nat.zero_add]

theorem Rig.Seen.conservesPair {op : Pair W} {cost : Half → W → Cycles}
    (hop : op.Advances stage cost) : r.ConservesPair o stage plan name op cost := by
  intro reverseBaseline fuel hfuel w report v h
  obtain ⟨record, hrun⟩ := Rig.exists_record_of_runPair h
  obtain ⟨rounds, turns, rfl, hlength, hruns, hreport⟩ := Rig.runPair_recorded hrun
  obtain ⟨hforward, hreverse⟩ := hreport ▸ PairTally.report_accounts plan reverseBaseline name
    (Nat.lt_of_le_of_lt hlength hfuel)
  have hattempts : (forwardSamples turns).length + (reverseSamples turns).length =
      report.forward.attempts.toNat + report.reverse.attempts.toNat := by
    rw [hforward.attempts, hreverse.attempts]
  refine ⟨_, turns, hrun, ?_, observationsIn_rounds rounds, ?_, ?_, Oracle.Passes.conserves ?_ ?_⟩
  · rw [halvesIn, callsIn_flatMap, ← hruns.length]
    exact halves_rounds rounds
  · rw [hforward.attempts, forwardSamples, List.length_map]
  · intro x _
    exact x.observationsIn_notes plan
  · have hpasses := (hop.rehearsesPasses o hruns.rehearsed).trans
      (hr.takesAllPasses hop hruns.taken)
    refine hpasses.congr ?_ (by omega)
    rw [callsIn_run, cyclesOf_append, hforward.delays, hreverse.delays]
    simp only [UInt64.ofNat_add, UInt64.ofNat_toNat, UInt64.mul_add]
    ac_rfl
  · rw [observationsIn_append, observationsIn_rounds, observationsIn_turns, hattempts,
      Nat.zero_add]

theorem Rig.Seen.conservesPass {op : Operation W} {cost : W → Cycles}
    (hop : Operation.Advances op stage cost) : r.ConservesPass o stage plan op cost := by
  intro n w
  by_cases hn : n = 0
  · refine ⟨[], by simp [Rig.unfiltered, hn], Oracle.Passes.conserves ?_ rfl⟩
    have hnone : (r.unfiltered op n w).2 = w := by simp [Rig.unfiltered, hn]
    rw [hnone]
    exact (Oracle.Passes.refl o stage w).congr (by simp [callsIn]) rfl
  · obtain ⟨calls, hcalls, hpasses⟩ := Operation.Advances.repeatedPasses (fun _ => cost)
      hop o n (r.now w).2 [.read (r.now w).1]
    have hleft : (r.unfiltered op n w).2 = (r.now (Operation.repeated op n (r.now w).2)).2 := by
      simp [Rig.unfiltered, hn]
    have hmade := (hr.nowPasses w).trans (hpasses.trans (hr.nowPasses _))
    refine ⟨[.read (r.now w).1] ++ calls.map (fun x => .called x.1 x.2) ++
      [.read (r.now (Operation.repeated op n (r.now w).2)).1], ?_, Oracle.Passes.conserves ?_ ?_⟩
    · have hstart : r.recorded.now (w, []) = ((r.now w).1, ((r.now w).2, [.read (r.now w).1])) := rfl
      simp only [Rig.unfiltered, hn, if_false, hstart, hcalls]
      rfl
    · rw [hleft]
      refine hmade.congr ?_ rfl
      rw [callsIn_append, callsIn_append, callsIn_called]
      have hread : ∀ c, callsIn [(.read c : Note W)] = [] := fun _ => rfl
      simp [hread]
    · rw [observationsIn_append, observationsIn_append, observationsIn_called]
      rfl

/-- Where the world shows a stage with an oracle over its counters, and nothing but the operations
and the loop itself moves the clock or sends lines, no run leaves anything out. After a run with an
operation or over a pair the clock has gone on by the cycles of all calls, of the warm-up, measured
or not, by a settling for every attempt and by a recovery for every changed tick; the oracle was
observed twice in every attempt, not in the warm-up and not for a call that undoes another one; and
a pass without filters neither waits nor observes. -/
theorem Rig.run_conserves :
    (∀ op cost, Operation.Advances op stage cost → r.ConservesRun o stage plan name op cost) ∧
    (∀ op cost, Pair.Advances op stage cost → r.ConservesPair o stage plan name op cost) ∧
    ∀ op cost, Operation.Advances op stage cost → r.ConservesPass o stage plan op cost := by
  refine ⟨?_, ?_, ?_⟩
  · intro op cost hop
    exact hr.conservesRun plan name hop
  · intro op cost hop
    exact hr.conservesPair plan name hop
  · intro op cost hop
    exact hr.conservesPass plan hop

end Runs

/-- An oracle that sends a line with every observation. -/
def markedOracle : Oracle := .flushPoint 0 (some "flush") (.counter 0)

/-- The eventful script takes five attempts of one run and eight of a run over a pair, and in either
the clock goes over its end. -/
theorem Rig.run_conserves_eventful :
    let r := Stage.rig (Stage.observe markedOracle)
    let op := Script.pair eventfulScript troubledReverse
    let cost := Script.pairCycles eventfulScript troubledReverse
    r.Seen id r ∧ op.Advances id cost ∧
    (∃ report v record,
      r.run troubledPlan "eventful" op.forward 8 (.at 20) = some (report, v) ∧
      markedOracle.Conserves id troubledPlan (fun _ => cost .forward) (.at 20) record 5 1 v ∧
      v.clock = 23 ∧ v.panel.lines 0 = List.replicate 10 "flush") ∧
    (∃ report v record,
      r.runPair troubledPlan "eventful" 20 op 8 (.at 20) = some (report, v) ∧
      markedOracle.Conserves id troubledPlan cost (.at 20) record 8 1 v ∧
      v.clock = 467 ∧ v.panel.lines 0 = List.replicate 16 "flush") ∧
    ∃ record, markedOracle.Conserves id troubledPlan (fun _ => cost .forward) (.at 20) record 0 0
      (r.unfiltered op.forward 3 (.at 20)).2 := by
  intro r op cost
  have hr : r.Seen id (Stage.rig (Stage.observe markedOracle)) := Stage.rig_seen markedOracle
  have hop : op.Advances id cost := Script.pair_advances (by decide) (by decide)
  obtain ⟨hruns, hpairs, hpasses⟩ := Rig.run_conserves hr troubledPlan "eventful"
  have hsingle : ((r.run troubledPlan "eventful" op.forward 8 (.at 20)).map fun x =>
      (x.1.attempts, x.1.rejected.tickChanged, x.2.clock)) = some (5, 1, 23) := by decide +kernel
  have hboth : ((r.runPair troubledPlan "eventful" 20 op 8 (.at 20)).map fun x =>
      (x.1.forward.attempts, x.1.reverse.attempts, x.1.forward.rejected.tickChanged,
        x.1.reverse.rejected.tickChanged, x.2.clock)) = some (6, 2, 1, 0, 467) := by decide +kernel
  obtain ⟨⟨report, v⟩, hrun, hcounts⟩ := Option.map_eq_some_iff.1 hsingle
  obtain ⟨⟨pair, u⟩, hturns, hboths⟩ := Option.map_eq_some_iff.1 hboth
  simp only [Prod.mk.injEq] at hcounts hboths
  obtain ⟨hattempts, hdisturbed, hclock⟩ := hcounts
  obtain ⟨hahead, hback, hahead', hback', hclock'⟩ := hboths
  obtain ⟨_, _, -, -, -, -, -, hconserves⟩ := 
    hruns _ _ hop.forward 8 (by decide) (.at 20) report v hrun
  obtain ⟨_, _, -, -, -, -, -, hconserves'⟩ := 
    hpairs op cost hop 20 8 (by decide) (.at 20) pair u hturns
  obtain ⟨record, -, hpass⟩ := hpasses _ _ hop.forward 3 (.at 20)
  rw [hattempts, hdisturbed] at hconserves
  rw [hahead, hback, hahead', hback'] at hconserves'
  refine ⟨hr, hop, ⟨report, v, _, hrun, hconserves, hclock, ?_⟩,
    ⟨pair, u, _, hturns, hconserves', hclock', ?_⟩, record, hpass⟩
  · exact hconserves.marked 0 "flush" (.counter 0) rfl (by simp [Oracle.markers])
  · exact hconserves'.marked 0 "flush" (.counter 0) rfl (by simp [Oracle.markers])

end LatencyGauge
