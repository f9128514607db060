/-
Turns of a loop over a pair. A turn is a measured forward call and what follows it: nothing, an
unmeasured reverse call, or a measured one. A recorded run consists of its warm-up and of turns;
what a turn is follows from its forward attempt alone.
-/
import LatencyGauge.Proofs.Measure.Accounts
import LatencyGauge.Proofs.Measure.Record

namespace LatencyGauge

variable {W : Type}

/-! ## Attempts at an operation -/

/-- A measured call with the readings and the ticks around it. -/
structure Attempt (W : Type) where
  before : Tick
  start : Cycles
  call : Call W
  stop : Cycles
  after : Tick

/-- What an attempt shows of its call. -/
def Attempt.sample (a : Attempt W) : Sample := ⟨⟨a.start, a.stop, a.call.code⟩, a.before, a.after⟩

/-- The notes of an attempt at a half of a pair. -/
def Attempt.notes (plan : LoopPlan) (half : Half) (a : Attempt W) : List (Note W) :=
  [.observed a.before, .read a.start, .called half a.call, .read a.stop] ++
    pauseNotes plan.settle ++ [.observed a.after]

/-- The attempt at an operation in a world, and the world after it. -/
def Rig.tried (r : Rig W) (plan : LoopPlan) (op : Operation W) (w : W) : Attempt W × W :=
  let (before, w) := r.observe w
  let (start, w) := r.now w
  let (code, v) := op w
  let (stop, v) := r.now v
  let (after, v) := r.observe (r.pause plan.settle v)
  (⟨before, start, ⟨w, code⟩, stop, after⟩, v)

theorem Rig.attempt_recorded (r : Rig W) (plan : LoopPlan) (op : Operation W) (half : Half) (w : W)
    (record : List (Note W)) :
    r.recorded.attempt plan (r.recorded.timed (Operation.recorded op half)) (w, record) =
      ((r.tried plan op w).1.sample,
        ((r.tried plan op w).2, record ++ (r.tried plan op w).1.notes plan half)) := by
  simp only [Rig.attempt, Rig.timed, r.pause_recorded]
  simp [Rig.recorded, Operation.recorded, Rig.tried, Attempt.sample, Attempt.notes]

/-! ## Turns -/

/-- A forward attempt and what follows it. -/
inductive Turn (W : Type) where
  | left (f : Attempt W)
  | undone (f : Attempt W) (v : Call W)
  | followed (f v : Attempt W)

/-- The forward attempt of a turn. -/
def Turn.forward : Turn W → Attempt W
  | .left f | .undone f _ | .followed f _ => f

/-- The measured reverse attempt of a turn. -/
def Turn.reverse? : Turn W → Option (Attempt W)
  | .left _ | .undone _ _ => none
  | .followed _ v => some v

/-- The attempt that a turn ends with. -/
def Turn.last : Turn W → Attempt W
  | .left f | .undone f _ => f
  | .followed _ v => v

/-- The notes of a turn and of what its last verdict asks for. -/
def Turn.notes (plan : LoopPlan) (x : Turn W) : List (Note W) :=
  (match x with
    | .left f => f.notes plan .forward
    | .undone f v => f.notes plan .forward ++ [.called .reverse v]
    | .followed f v => f.notes plan .forward ++ v.notes plan .reverse) ++
  plan.recoveryNotes (x.last.sample.verdict plan)

/-- Whether a turn completes an iteration. -/
def Turn.completes (plan : LoopPlan) (x : Turn W) : Bool :=
  (x.last.sample.verdict plan).completes

/-- The turns that a loop can take in a world, with the world after them: a forward attempt that
was not accepted is left if it failed and undone if not; one that was accepted is followed. -/
inductive Rig.Takes (r : Rig W) (plan : LoopPlan) (op : Pair W) (w : W) : Turn W → W → Prop where
  | left {f : Attempt W} {v : W} (tried : r.tried plan op.forward w = (f, v))
      (failed : f.call.code ≠ 0) (unfit : ¬ f.sample.Accepted plan) :
      r.Takes plan op w (.left f) (r.recover plan (f.sample.verdict plan) v)
  | undone {f : Attempt W} {v : W} (tried : r.tried plan op.forward w = (f, v))
      (done : f.call.code = 0) (unfit : ¬ f.sample.Accepted plan) :
      r.Takes plan op w (.undone f ⟨v, (op.reverse v).1⟩)
        (r.recover plan (f.sample.verdict plan) (op.reverse v).2)
  | followed {f g : Attempt W} {v u : W} (tried : r.tried plan op.forward w = (f, v))
      (fit : f.sample.Accepted plan) (back : r.tried plan op.reverse v = (g, u)) :
      r.Takes plan op w (.followed f g) (r.recover plan (g.sample.verdict plan) u)

/-- Turns in a row. -/
inductive Rig.TakesAll (r : Rig W) (plan : LoopPlan) (op : Pair W) (w : W) :
    List (Turn W) → W → Prop where
  | nil : r.TakesAll plan op w [] w
  | snoc {l : List (Turn W)} {x : Turn W} {v u : W} (before : r.TakesAll plan op w l v)
      (last : r.Takes plan op v x u) : r.TakesAll plan op w (l ++ [x]) u

/-! ## Tallies of turns -/

/-- The forward samples of turns. -/
def forwardSamples (turns : List (Turn W)) : List Sample := turns.map (·.forward.sample)

/-- The reverse samples of turns. -/
def reverseSamples (turns : List (Turn W)) : List Sample :=
  turns.filterMap (·.reverse?.map Attempt.sample)

theorem forwardSamples_append (turns : List (Turn W)) (x : Turn W) :
    forwardSamples (turns ++ [x]) = forwardSamples turns ++ [x.forward.sample] := by
  simp [forwardSamples]

theorem reverseSamples_append (turns : List (Turn W)) (x : Turn W) :
    reverseSamples (turns ++ [x]) =
      reverseSamples turns ++ (x.reverse?.map Attempt.sample).toList := by
  unfold reverseSamples
  rw [List.filterMap_append]
  cases x <;> rfl

/-- The tally of turns, counted at once. -/
def PairTally.of (plan : LoopPlan) (reverseBaseline : Cycles) (turns : List (Turn W)) :
    PairTally where
  forward := Tally.of plan.baseline ((forwardSamples turns).map (Sample.verdict · plan))
  reverse := Tally.of reverseBaseline ((reverseSamples turns).map (Sample.verdict · plan))
  iterations := turns.countP (Turn.completes plan)

/-- Takes up the verdicts of one turn. -/
def PairTally.take (t : PairTally) (plan : LoopPlan) (x : Turn W) : PairTally where
  forward := t.forward.take (x.forward.sample.verdict plan)
  reverse := match x.reverse? with
    | some g => t.reverse.take (g.sample.verdict plan)
    | none => t.reverse
  iterations := t.iterations + (if x.completes plan then 1 else 0)

theorem PairTally.of_nil (plan : LoopPlan) (reverseBaseline : Cycles) :
    PairTally.of plan reverseBaseline ([] : List (Turn W)) = .start plan.baseline reverseBaseline :=
  rfl

/-- Counting one more turn is taking it up. -/
theorem PairTally.of_append (plan : LoopPlan) (reverseBaseline : Cycles) (turns : List (Turn W))
    (x : Turn W) :
    PairTally.of plan reverseBaseline (turns ++ [x]) =
      (PairTally.of plan reverseBaseline turns).take plan x := by
  unfold PairTally.of PairTally.take
  rw [forwardSamples_append, reverseSamples_append, List.map_append, List.map_singleton,
    Tally.of_append, List.countP_append]
  cases x with
  | left f => simp [Turn.reverse?, List.countP_cons]
  | undone f v => simp [Turn.reverse?, List.countP_cons]
  | followed f g => simp [Turn.reverse?, List.countP_cons, Tally.of_append]

/-! ## Steps -/

theorem Sample.not_accepted_of_verdict {plan : LoopPlan} {s : Sample} {v : Verdict}
    (h : s.verdict plan = v) (hv : ∀ c, v ≠ .accept c) : ¬ s.Accepted plan := fun hfit =>
  hv _ (h ▸ (Sample.verdict_eq_accept_iff plan s _).2 ⟨hfit, rfl⟩)

/-- A step of a recorded loop takes a turn, counts it and leaves its notes. -/
theorem Rig.pairStep_recorded (r : Rig W) (plan : LoopPlan) (op : Pair W) (t : PairTally) (w : W)
    (record : List (Note W)) :
    ∃ (x : Turn W) (w' : W), r.Takes plan op w x w' ∧
      r.recorded.pairStep plan op.recorded (t, (w, record)) =
        (t.take plan x, (w', record ++ x.notes plan)) := by
  cases htried : r.tried plan op.forward w with | mk f v
  have hforward : r.recorded.attempt plan (r.recorded.timed op.recorded.forward) (w, record) =
      (f.sample, (v, record ++ f.notes plan .forward)) := by
    have h := r.attempt_recorded plan op.forward .forward w record
    rwa [htried] at h
  -- the verdict on the forward sample decides the turn, but for a thrown away one the code does
  cases hverdict : f.sample.verdict plan with
  | accept c =>
    have hfit := ((Sample.verdict_eq_accept_iff plan _ c).1 hverdict).1
    cases hback : r.tried plan op.reverse v with | mk g u
    have hreverse : r.recorded.attempt plan (r.recorded.timed op.recorded.reverse)
        (v, record ++ f.notes plan .forward) =
          (g.sample, (u, record ++ f.notes plan .forward ++ g.notes plan .reverse)) := by
      have h := r.attempt_recorded plan op.reverse .reverse v (record ++ f.notes plan .forward)
      rwa [hback] at h
    refine ⟨.followed f g, _, .followed htried hfit hback, ?_⟩
    simp only [Rig.pairStep, hforward, hverdict, hreverse, r.recover_recorded]
    simp only [PairTally.take, Turn.forward, Turn.reverse?, Turn.completes, Turn.last, Turn.notes,
      hverdict, List.append_assoc]
    rfl
  | failed =>
    have hcode := ((Sample.verdict_eq_failed_iff plan _).1 hverdict).2.1
    have hunfit := Sample.not_accepted_of_verdict hverdict (by simp)
    refine ⟨.left f, _, .left htried hcode hunfit, ?_⟩
    simp only [Rig.pairStep, hforward, hverdict]
    simp [PairTally.take, Turn.forward, Turn.reverse?, Turn.completes, Turn.last, Turn.notes,
      hverdict, Verdict.completes, Rig.recover, LoopPlan.recoveryNotes]
  | reject why =>
    have hunfit := Sample.not_accepted_of_verdict hverdict (by simp)
    by_cases hcode : f.call.code = 0
    · refine ⟨.undone f ⟨v, (op.reverse v).1⟩, _, .undone htried hcode hunfit, ?_⟩
      have hundo : op.recorded.undo f.sample.window.code (v, record ++ f.notes plan .forward) =
          ((op.reverse v).2,
            record ++ f.notes plan .forward ++ [.called .reverse ⟨v, (op.reverse v).1⟩]) := by
        simp [Pair.undo, Attempt.sample, hcode, Pair.recorded, Operation.recorded]
      simp only [Rig.pairStep, hforward, hverdict, hundo, r.recover_recorded]
      simp [PairTally.take, Turn.forward, Turn.reverse?, Turn.completes, Turn.last, Turn.notes,
        hverdict, Verdict.completes]
    · refine ⟨.left f, _, .left htried hcode hunfit, ?_⟩
      have hundo : op.recorded.undo f.sample.window.code (v, record ++ f.notes plan .forward) =
          (v, record ++ f.notes plan .forward) := by
        simp [Pair.undo, Attempt.sample, hcode]
      simp only [Rig.pairStep, hforward, hverdict, hundo, r.recover_recorded]
      simp [PairTally.take, Turn.forward, Turn.reverse?, Turn.completes, Turn.last, Turn.notes,
        hverdict, Verdict.completes]

/-! ## Warm-ups -/

/-- A round of the warm-up: both halves, called and not measured. -/
structure Rehearsal (W : Type) where
  forward : Call W
  reverse : Call W

/-- The notes of a round of the warm-up. -/
def Rehearsal.notes (x : Rehearsal W) : List (Note W) :=
  [.called .forward x.forward, .called .reverse x.reverse]

/-- Rounds of a warm-up in a row. -/
inductive Pair.Rehearses (op : Pair W) : W → List (Rehearsal W) → W → Prop where
  | nil {w : W} : op.Rehearses w [] w
  | cons {w v : W} {l : List (Rehearsal W)}
      (rest : op.Rehearses (op.reverse (op.forward w).2).2 l v) :
      op.Rehearses w
        (⟨⟨w, (op.forward w).1⟩, ⟨(op.forward w).2, (op.reverse (op.forward w).2).1⟩⟩ :: l) v

/-- A recorded warm-up leaves the notes of as many rounds. -/
theorem Pair.warmUp_recorded (op : Pair W) (n : Nat) (w : W) (record : List (Note W)) :
    ∃ rounds : List (Rehearsal W), rounds.length = n ∧ op.Rehearses w rounds (op.warmUp n w) ∧
      op.recorded.warmUp n (w, record) =
        (op.warmUp n w, record ++ rounds.flatMap Rehearsal.notes) := by
  induction n generalizing w record with
  | zero => exact ⟨[], rfl, .nil, by simp [Pair.warmUp]⟩
  | succ n ih =>
    obtain ⟨rounds, hlen, hruns, hrun⟩ := ih (op.reverse (op.forward w).2).2
      (record ++ [.called .forward ⟨w, (op.forward w).1⟩,
        .called .reverse ⟨(op.forward w).2, (op.reverse (op.forward w).2).1⟩])
    refine ⟨_, by simp [hlen], .cons hruns, ?_⟩
    simp only [Pair.warmUp, List.flatMap_cons, Rehearsal.notes, ← List.append_assoc, ← hrun]
    simp [Pair.recorded, Operation.recorded]

/-! ## Runs -/

/-- A recorded loop over a pair that has taken `turns`: they were taken one after the other, they
are counted and written down, and neither the iterations nor the forward attempts are more than
the plan has room for. -/
structure LoopPlan.Turned (plan : LoopPlan) (r : Rig W) (reverseBaseline : Cycles) (op : Pair W)
    (w : W) (before : List (Note W)) (s : PairTally × (W × List (Note W)))
    (turns : List (Turn W)) : Prop where
  tally : s.1 = PairTally.of plan reverseBaseline turns
  record : s.2.2 = before ++ turns.flatMap (Turn.notes plan)
  taken : r.TakesAll plan op w turns s.2.1
  wanted : s.1.iterations ≤ plan.samples.toNat
  allowed : ∀ most, plan.maxAttempts = some most → s.1.forward.attempts ≤ most.toNat

theorem LoopPlan.turned_nil (plan : LoopPlan) (r : Rig W) (reverseBaseline : Cycles) (op : Pair W)
    (w : W) (before : List (Note W)) :
    plan.Turned r reverseBaseline op w before (.start plan.baseline reverseBaseline, (w, before))
      [] where
  tally := (PairTally.of_nil plan reverseBaseline).symm
  record := by simp
  taken := .nil
  wanted := Nat.zero_le _
  allowed _ _ := Nat.zero_le _

/-- A step of a loop that goes on takes one more turn. -/
theorem LoopPlan.Turned.step {plan : LoopPlan} {r : Rig W} {reverseBaseline : Cycles} {op : Pair W}
    {w : W} {before : List (Note W)} {s : PairTally × (W × List (Note W))} {turns : List (Turn W)}
    (hgo : s.1.goesOn plan = true) (h : plan.Turned r reverseBaseline op w before s turns) :
    ∃ x, plan.Turned r reverseBaseline op w before (r.recorded.pairStep plan op.recorded s)
      (turns ++ [x]) := by
  obtain ⟨t, v, record⟩ := s
  obtain ⟨x, u, htakes, hstep⟩ := r.pairStep_recorded plan op t v record
  simp only [PairTally.goesOn, Bool.and_eq_true, decide_eq_true_eq, LoopPlan.allows_iff] at hgo
  obtain ⟨hwanted, hallowed⟩ := hgo
  refine ⟨x, ?_⟩
  rw [hstep]
  refine ⟨?_, ?_, .snoc h.taken htakes, ?_, fun most hmost => ?_⟩
  · have htally : t = _ := h.tally
    rw [PairTally.of_append, ← htally]
  · have hrecord : record = _ := h.record
    simp [hrecord]
  · simp only [PairTally.take]
    split <;> omega
  · have hlt := hallowed most hmost
    simp only [PairTally.take, Tally.take_attempts]
    omega

/-- A loop over a pair that ran from one world to another: the rounds of its warm-up, the turns it
took after them, and the room it had for these. It ended with the iterations complete or with the
forward attempts spent. -/
structure Rig.RunsPair (r : Rig W) (plan : LoopPlan) (op : Pair W) (w : W)
    (rounds : List (Rehearsal W)) (turns : List (Turn W)) (w' : W) : Prop where
  length : rounds.length = plan.warmup.toNat
  rehearsed : op.Rehearses w rounds (op.warmUp plan.warmup.toNat w)
  taken : r.TakesAll plan op (op.warmUp plan.warmup.toNat w) turns w'
  wanted : turns.countP (Turn.completes plan) ≤ plan.samples.toNat
  allowed : ∀ most, plan.maxAttempts = some most → turns.length ≤ most.toNat
  ended : turns.countP (Turn.completes plan) = plan.samples.toNat ∨
    ∃ most, plan.maxAttempts = some most ∧ turns.length = most.toNat

/-- A recorded run over a pair writes down its warm-up and its turns, and reports on the turns. -/
theorem Rig.runPair_recorded {r : Rig W} {plan : LoopPlan} {name : String}
    {reverseBaseline : Cycles} {op : Pair W} {fuel : Nat} {w w' : W} {report : PairReport}
    {record : List (Note W)}
    (h : r.recorded.runPair plan name reverseBaseline op.recorded fuel (w, []) =
      some (report, (w', record))) :
    ∃ (rounds : List (Rehearsal W)) (turns : List (Turn W)),
      record = rounds.flatMap Rehearsal.notes ++ turns.flatMap (Turn.notes plan) ∧
      turns.length ≤ fuel ∧ r.RunsPair plan op w rounds turns w' ∧
      report = (PairTally.of plan reverseBaseline turns).report name plan := by
  obtain ⟨rounds, hlen, hrounds, hwarm⟩ := op.warmUp_recorded plan.warmup.toNat w []
  simp only [Rig.runPair, hwarm, List.nil_append, Option.map_eq_some_iff] at h
  obtain ⟨⟨t, w'', record'⟩, hloop, heq⟩ := h
  cases heq
  -- the list left behind is the list of turns; the invariant says what the state knows of it
  obtain ⟨turns, hlength, hend, -⟩ := iterate_trail
    (fun s l hgo (hs : plan.Turned r reverseBaseline op (op.warmUp plan.warmup.toNat w)
      (rounds.flatMap Rehearsal.notes) s l) => hs.step (by simpa using hgo))
    (plan.turned_nil r reverseBaseline op _ _) hloop
  rw [List.nil_append] at hend
  have hstop : t.goesOn plan = false := by simpa using stop_of_iterate hloop
  have htally : t = PairTally.of plan reverseBaseline turns := hend.tally
  have hiterations : t.iterations = turns.countP (Turn.completes plan) := by
    rw [htally]; rfl
  have hattempts : t.forward.attempts = turns.length := by
    rw [htally]; simp [PairTally.of, Tally.of, forwardSamples]
  have hwanted : t.iterations ≤ plan.samples.toNat := hend.wanted
  have hallowed : ∀ most, plan.maxAttempts = some most → t.forward.attempts ≤ most.toNat :=
    hend.allowed
  refine ⟨rounds, turns, hend.record, hlength, ⟨hlen, hrounds, hend.taken, hiterations ▸ hwanted,
    hattempts ▸ hallowed, ?_⟩, by rw [htally]⟩
  rw [← hiterations, ← hattempts]
  exact plan.ended_of_stop hwanted hallowed hstop

end LatencyGauge
