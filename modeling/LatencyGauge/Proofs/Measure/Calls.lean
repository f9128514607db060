/-
Calls of a loop over a pair. A record tells which half was called when, and in which world: both
halves once in every round of the warm-up, and in every turn the forward half once and the reverse
half at most once after it. The calls come back and forth exactly if no turn is left behind.
-/
import LatencyGauge.Measure.Logged
import LatencyGauge.Proofs.Measure.Turn

namespace LatencyGauge

variable {W : Type}

/-! ## Calls in a record -/

/-- The call that a note is about. -/
def Note.call? : Note W → Option (Half × Call W)
  | .called half call => some (half, call)
  | _ => none

/-- The calls in a record, in their order. -/
def callsIn (record : List (Note W)) : List (Half × Call W) := record.filterMap Note.call?

theorem callsIn_append (l m : List (Note W)) : callsIn (l ++ m) = callsIn l ++ callsIn m :=
  List.filterMap_append ..

theorem callsIn_flatMap {A : Type} (f : A → List (Note W)) (l : List A) :
    callsIn (l.flatMap f) = l.flatMap fun a => callsIn (f a) :=
  List.filterMap_flatMap ..

theorem callsIn_pauseNotes (c : Cycles) : callsIn (pauseNotes c : List (Note W)) = [] := by
  unfold pauseNotes
  split <;> rfl

theorem callsIn_recoveryNotes (plan : LoopPlan) (v : Verdict) :
    callsIn (plan.recoveryNotes v : List (Note W)) = [] := by
  unfold LoopPlan.recoveryNotes
  split
  · exact callsIn_pauseNotes _
  · rfl

theorem Attempt.callsIn_notes (plan : LoopPlan) (half : Half) (a : Attempt W) :
    callsIn (a.notes plan half) = [(half, a.call)] := by
  unfold Attempt.notes
  rw [callsIn_append, callsIn_append, callsIn_pauseNotes]
  rfl

/-! ## Calls of rounds and of turns -/

/-- The calls of a round of the warm-up. -/
def Rehearsal.calls (x : Rehearsal W) : List (Half × Call W) :=
  [(.forward, x.forward), (.reverse, x.reverse)]

/-- The call by which a turn takes its forward call back, measured or not. -/
def Turn.back? : Turn W → Option (Call W)
  | .left _ => none
  | .undone _ v => some v
  | .followed _ g => some g.call

/-- The calls of a turn. -/
def Turn.calls (x : Turn W) : List (Half × Call W) :=
  (.forward, x.forward.call) :: (x.back?.map (Half.reverse, ·)).toList

theorem Turn.callsIn_notes (plan : LoopPlan) (x : Turn W) : callsIn (x.notes plan) = x.calls := by
  unfold Turn.notes
  rw [callsIn_append, callsIn_recoveryNotes, List.append_nil]
  cases x with
  | left f => exact f.callsIn_notes plan .forward
  | undone f v =>
    show callsIn (f.notes plan .forward ++ [.called .reverse v]) = _
    rw [callsIn_append, f.callsIn_notes]
    rfl
  | followed f g =>
    show callsIn (f.notes plan .forward ++ g.notes plan .reverse) = _
    rw [callsIn_append, f.callsIn_notes, g.callsIn_notes]
    rfl

/-- The calls of a run are those of its rounds and then those of its turns. -/
theorem callsIn_run (plan : LoopPlan) (rounds : List (Rehearsal W)) (turns : List (Turn W)) :
    callsIn (rounds.flatMap Rehearsal.notes ++ turns.flatMap (Turn.notes plan)) =
      rounds.flatMap Rehearsal.calls ++ turns.flatMap Turn.calls := by
  rw [callsIn_append, callsIn_flatMap, callsIn_flatMap]
  simp only [Turn.callsIn_notes]
  rfl

/-! ## Halves -/

/-- The halves called in a record, in their order. -/
def halvesIn (record : List (Note W)) : List Half := (callsIn record).map Prod.fst

theorem halvesIn_append (l m : List (Note W)) : halvesIn (l ++ m) = halvesIn l ++ halvesIn m := by
  unfold halvesIn
  rw [callsIn_append, List.map_append]

/-- A world with a record, seen as a world with a log: the halves called, the latest first. -/
def logView (s : W × List (Note W)) : W × List Half := (s.1, (halvesIn s.2).reverse)

theorem logView_note (w : W) (record : List (Note W)) (n : Note W) :
    logView (w, record ++ [n]) =
      (w, (n.call?.map Prod.fst).toList ++ (halvesIn record).reverse) := by
  unfold logView
  rw [halvesIn_append, List.reverse_append]
  cases n <;> rfl

theorem Rig.recorded_seen_beside (r : Rig W) : r.recorded.Seen logView r.beside := by
  constructor
  · intro s; simp only [Rig.recorded, logView_note]; rfl
  · intro c s; simp only [Rig.recorded, logView_note]; rfl
  · intro s; simp only [Rig.recorded, logView_note]; rfl

theorem Pair.recorded_seen_logged (op : Pair W) : op.recorded.Seen logView op.logged := by
  constructor
  · intro s; simp only [Pair.recorded, Operation.recorded, logView_note]; rfl
  · intro s; simp only [Pair.recorded, Operation.recorded, logView_note]; rfl

/-- The log of a logged run has the halves that a record of the run has. -/
theorem Rig.runPair_logged (r : Rig W) (plan : LoopPlan) (name : String) (reverseBaseline : Cycles)
    (op : Pair W) (fuel : Nat) (w : W) :
    (r.recorded.runPair plan name reverseBaseline op.recorded fuel (w, [])).map
      (fun x => (x.1, logView x.2)) =
        r.beside.runPair plan name reverseBaseline op.logged fuel (w, []) :=
  r.recorded_seen_beside.runPair plan op.recorded_seen_logged name reverseBaseline fuel (w, [])

theorem count_forward_turns (turns : List (Turn W)) :
    ((turns.flatMap Turn.calls).map Prod.fst).count .forward = turns.length := by
  induction turns with
  | nil => rfl
  | cons x turns ih => cases x <;> simp [Turn.calls, Turn.back?, ih]

/-- The halves of calls that go back and forth `n` times. -/
def backAndForth (n : Nat) : List Half := (List.replicate n [.forward, .reverse]).flatten

theorem count_backAndForth (half : Half) (n : Nat) : (backAndForth n).count half = n := by
  unfold backAndForth
  induction n with
  | zero => rfl
  | succ n ih =>
    rw [List.replicate_succ, List.flatten_cons, List.count_append, ih]
    cases half <;> exact Nat.add_comm ..

theorem backAndForth_add (n m : Nat) :
    backAndForth (n + m) = backAndForth n ++ backAndForth m := by
  unfold backAndForth
  rw [← List.replicate_append_replicate, List.flatten_append]

theorem halves_rounds (rounds : List (Rehearsal W)) :
    (rounds.flatMap Rehearsal.calls).map Prod.fst = backAndForth rounds.length := by
  unfold backAndForth
  induction rounds with
  | nil => rfl
  | cons x rounds ih =>
    rw [List.flatMap_cons, List.map_append, ih, List.length_cons, List.replicate_succ]
    rfl

theorem halves_turns {turns : List (Turn W)} (h : ∀ x ∈ turns, x.back?.isSome) :
    (turns.flatMap Turn.calls).map Prod.fst = backAndForth turns.length := by
  unfold backAndForth
  induction turns with
  | nil => rfl
  | cons x turns ih =>
    obtain ⟨v, hv⟩ := Option.isSome_iff_exists.1 (h x (by simp))
    rw [List.flatMap_cons, List.map_append, ih fun y hy => h y (by simp [hy]), List.length_cons,
      List.replicate_succ, Turn.calls, hv]
    rfl

theorem count_reverse_turns (turns : List (Turn W)) :
    ((turns.flatMap Turn.calls).map Prod.fst).count .reverse =
      turns.countP (·.back?.isSome) := by
  induction turns with
  | nil => rfl
  | cons x turns ih => cases x <;> simp [Turn.calls, Turn.back?, ih]

/-- The calls of a run go back and forth exactly if every turn takes its forward call back. -/
theorem halvesIn_run_iff (plan : LoopPlan) (rounds : List (Rehearsal W)) (turns : List (Turn W)) :
    (∃ n, halvesIn (rounds.flatMap Rehearsal.notes ++ turns.flatMap (Turn.notes plan)) =
      backAndForth n) ↔ ∀ x ∈ turns, x.back?.isSome := by
  unfold halvesIn
  rw [callsIn_run, List.map_append, halves_rounds]
  constructor
  · rintro ⟨n, hn⟩
    -- both halves are called equally often, so no turn lacks its reverse call
    have hforward := congrArg (List.count Half.forward) hn
    have hreverse := congrArg (List.count Half.reverse) hn
    rw [List.count_append, count_backAndForth, count_backAndForth, count_forward_turns] at hforward
    rw [List.count_append, count_backAndForth, count_backAndForth, count_reverse_turns] at hreverse
    exact List.countP_eq_length.1 (by omega)
  · intro h
    exact ⟨rounds.length + turns.length, by rw [halves_turns h, backAndForth_add]⟩

/-! ## Calls of runs that need not end -/

/-- The calls that a run with an operation makes with at most `fuel` attempts. -/
def Rig.callsMade (r : Rig W) (plan : LoopPlan) (op : Operation W) (fuel : Nat) (w : W) :
    List (Half × Call W) :=
  let p := r.recorded.timed (Operation.recorded op .forward)
  callsIn (iterateUpTo (fun s => !s.1.goesOn plan) (r.recorded.step plan p) fuel
    (.start plan.baseline, p.warmUp plan.warmup.toNat (w, []))).2.2

/-- The calls that a run over a pair makes with at most `fuel` forward attempts. -/
def Rig.pairCallsMade (r : Rig W) (plan : LoopPlan) (reverseBaseline : Cycles) (op : Pair W)
    (fuel : Nat) (w : W) : List (Half × Call W) :=
  callsIn (iterateUpTo (fun s => !s.1.goesOn plan) (r.recorded.pairStep plan op.recorded) fuel
    (.start plan.baseline reverseBaseline, op.recorded.warmUp plan.warmup.toNat (w, []))).2.2

end LatencyGauge
