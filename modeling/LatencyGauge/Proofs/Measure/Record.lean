/-
Runs that are written down. In a world with a record beside it every reading, wait, observation and
call leaves a note, the latest last; the run itself is the same as without the record. One attempt
leaves the notes of one sample, and nothing else leaves any.
-/
import LatencyGauge.Proofs.Measure.Verdict
import LatencyGauge.Proofs.Measure.View

namespace LatencyGauge

variable {W : Type}

/-! ## Notes -/

/-- A call of a half of a pair: the world it was made in and what it returned. -/
structure Call (W : Type) where
  world : W
  code : Code

/-- Something that a loop did. -/
inductive Note (W : Type) where
  | prepared
  | measured (w : Window)
  | read (c : Cycles)
  | waited (c : Cycles)
  | observed (t : Tick)
  | called (half : Half) (call : Call W)

/-- A rig that writes down what it is used for. -/
def Rig.recorded (r : Rig W) : Rig (W × List (Note W)) where
  now s := ((r.now s.1).1, ((r.now s.1).2, s.2 ++ [.read (r.now s.1).1]))
  wait c s := (r.wait c s.1, s.2 ++ [.waited c])
  observe s := ((r.observe s.1).1, ((r.observe s.1).2, s.2 ++ [.observed (r.observe s.1).1]))

/-- A probe that writes down its preparations and windows. -/
def Probe.recorded (p : Probe W) : Probe (W × List (Note W)) where
  prepare s := (p.prepare s.1, s.2 ++ [.prepared])
  measure s := ((p.measure s.1).1, ((p.measure s.1).2, s.2 ++ [.measured (p.measure s.1).1]))

/-- An operation that writes down its calls as those of a half. -/
def Operation.recorded (op : Operation W) (half : Half) : Operation (W × List (Note W)) :=
  fun s => ((op s.1).1, ((op s.1).2, s.2 ++ [.called half ⟨s.1, (op s.1).1⟩]))

/-- A pair that writes down its calls. -/
def Pair.recorded (op : Pair W) : Pair (W × List (Note W)) where
  forward := Operation.recorded op.forward .forward
  reverse := Operation.recorded op.reverse .reverse

/-! ## The record changes nothing -/

theorem Rig.recorded_seen (r : Rig W) : r.recorded.Seen Prod.fst r :=
  ⟨fun _ => rfl, fun _ _ => rfl, fun _ => rfl⟩

theorem Probe.recorded_seen (p : Probe W) : p.recorded.Seen Prod.fst p :=
  ⟨fun _ => rfl, fun _ => rfl⟩

theorem Pair.recorded_seen (op : Pair W) : op.recorded.Seen Prod.fst op :=
  ⟨fun _ => rfl, fun _ => rfl⟩

/-- A run with a probe can be written down. -/
theorem Rig.exists_record_of_runProbe {r : Rig W} {plan : LoopPlan} {name : String} {p : Probe W}
    {fuel : Nat} {w w' : W} {report : LoopReport}
    (h : r.runProbe plan name p fuel w = some (report, w')) :
    ∃ record, r.recorded.runProbe plan name p.recorded fuel (w, []) =
      some (report, (w', record)) := by
  have hview := r.recorded_seen.runProbe plan p.recorded_seen name fuel (w, [])
  rw [h, Option.map_eq_some_iff] at hview
  obtain ⟨⟨report', w'', record⟩, hrun, heq⟩ := hview
  cases heq
  exact ⟨record, hrun⟩

/-- A run over a pair can be written down. -/
theorem Rig.exists_record_of_runPair {r : Rig W} {plan : LoopPlan} {name : String}
    {reverseBaseline : Cycles} {op : Pair W} {fuel : Nat} {w w' : W} {report : PairReport}
    (h : r.runPair plan name reverseBaseline op fuel w = some (report, w')) :
    ∃ record, r.recorded.runPair plan name reverseBaseline op.recorded fuel (w, []) =
      some (report, (w', record)) := by
  have hview := r.recorded_seen.runPair plan op.recorded_seen name reverseBaseline fuel (w, [])
  rw [h, Option.map_eq_some_iff] at hview
  obtain ⟨⟨report', w'', record⟩, hrun, heq⟩ := hview
  cases heq
  exact ⟨record, hrun⟩

/-! ## Notes of waits -/

/-- The notes of a wait, which is none at all over no cycles. -/
def pauseNotes (c : Cycles) : List (Note W) := if c = 0 then [] else [.waited c]

/-- The notes of a recovery: only a changed tick is waited for. -/
def LoopPlan.recoveryNotes (plan : LoopPlan) : Verdict → List (Note W)
  | .reject .tickChanged => pauseNotes plan.quiescence
  | _ => []

theorem Rig.pause_recorded (r : Rig W) (c : Cycles) (s : W × List (Note W)) :
    r.recorded.pause c s = (r.pause c s.1, s.2 ++ pauseNotes c) := by
  unfold Rig.pause pauseNotes
  split
  · simp
  · rfl

theorem Rig.recover_recorded (r : Rig W) (plan : LoopPlan) (v : Verdict)
    (s : W × List (Note W)) :
    r.recorded.recover plan v s = (r.recover plan v s.1, s.2 ++ plan.recoveryNotes v) := by
  unfold Rig.recover LoopPlan.recoveryNotes
  split
  · exact r.pause_recorded _ s
  · simp

/-! ## Notes of attempts with a probe -/

/-- The notes of a window that is measured and forgotten. -/
def Window.notes (w : Window) : List (Note W) := [.prepared, .measured w]

/-- The notes of an attempt and of what its verdict asks for. -/
def Sample.notes (plan : LoopPlan) (s : Sample) : List (Note W) :=
  [.prepared, .observed s.before, .measured s.window] ++ pauseNotes plan.settle ++
    [.observed s.after] ++ plan.recoveryNotes (s.verdict plan)

/-- A step of a recorded loop makes one sample, counts its verdict and leaves its notes. -/
theorem Rig.step_recorded (r : Rig W) (plan : LoopPlan) (p : Probe W) (t : Tally) (w : W)
    (record : List (Note W)) :
    ∃ (s : Sample) (w' : W), r.recorded.step plan p.recorded (t, (w, record)) =
      (t.take (s.verdict plan), (w', record ++ s.notes plan)) := by
  refine ⟨(r.attempt plan p w).1, (r.step plan p (t, w)).2, ?_⟩
  simp only [Rig.step, Rig.attempt, r.pause_recorded, r.recover_recorded, Sample.notes]
  simp [Rig.recorded, Probe.recorded]

/-- A recorded warm-up leaves the notes of as many windows. -/
theorem Probe.warmUp_recorded (p : Probe W) (n : Nat) (w : W) (record : List (Note W)) :
    ∃ windows : List Window, windows.length = n ∧
      p.recorded.warmUp n (w, record) =
        (p.warmUp n w, record ++ windows.flatMap Window.notes) := by
  induction n generalizing w record with
  | zero => exact ⟨[], rfl, by simp [Probe.warmUp]⟩
  | succ n ih =>
    obtain ⟨windows, hlen, hrun⟩ := ih (p.measure (p.prepare w)).2
      (record ++ (p.measure (p.prepare w)).1.notes)
    refine ⟨(p.measure (p.prepare w)).1 :: windows, by simp [hlen], ?_⟩
    simp only [Probe.warmUp, List.flatMap_cons, ← List.append_assoc, ← hrun]
    simp [Probe.recorded, Window.notes]

end LatencyGauge
