/-
Runs through views of the world. Where a rig and what it measures look through a view like another
rig and another thing to measure, a run looks like the run of these: it has the same report, and the
view of the world after it is the world after the other run.
-/
import LatencyGauge.Measure.Loop
import LatencyGauge.Proofs.Iteration

namespace LatencyGauge

variable {V W : Type}

/-! ## What looks alike -/

/-- A rig looks through a view like another rig. -/
structure Rig.Seen (r : Rig V) (view : V → W) (r' : Rig W) : Prop where
  now : ∀ v, r'.now (view v) = ((r.now v).1, view (r.now v).2)
  wait : ∀ c v, r'.wait c (view v) = view (r.wait c v)
  observe : ∀ v, r'.observe (view v) = ((r.observe v).1, view (r.observe v).2)

/-- A probe looks through a view like another probe. -/
structure Probe.Seen (p : Probe V) (view : V → W) (p' : Probe W) : Prop where
  prepare : ∀ v, p'.prepare (view v) = view (p.prepare v)
  measure : ∀ v, p'.measure (view v) = ((p.measure v).1, view (p.measure v).2)

/-- An operation looks through a view like another operation. -/
def Operation.Seen (op : Operation V) (view : V → W) (op' : Operation W) : Prop :=
  ∀ v, op' (view v) = ((op v).1, view (op v).2)

/-- A pair looks through a view like another pair. -/
structure Pair.Seen (op : Pair V) (view : V → W) (op' : Pair W) : Prop where
  forward : Operation.Seen op.forward view op'.forward
  reverse : Operation.Seen op.reverse view op'.reverse

section Runs

variable {r : Rig V} {r' : Rig W} {view : V → W} (hr : r.Seen view r') (plan : LoopPlan)

include hr

/-! ## Attempts -/

theorem Rig.Seen.pause (c : Cycles) (v : V) : r'.pause c (view v) = view (r.pause c v) := by
  unfold Rig.pause
  split
  · rfl
  · exact hr.wait c v

theorem Rig.Seen.recover (verdict : Verdict) (v : V) :
    r'.recover plan verdict (view v) = view (r.recover plan verdict v) := by
  unfold Rig.recover
  split
  · exact hr.pause _ v
  · rfl

theorem Rig.Seen.timed {op : Operation V} {op' : Operation W} (ho : Operation.Seen op view op') :
    (r.timed op).Seen view (r'.timed op') where
  prepare _ := rfl
  measure v := by simp only [Rig.timed, hr.now, ho _]

theorem Rig.Seen.attempt {p : Probe V} {p' : Probe W} (hp : p.Seen view p') (v : V) :
    r'.attempt plan p' (view v) = ((r.attempt plan p v).1, view (r.attempt plan p v).2) := by
  simp only [Rig.attempt, hp.prepare, hp.measure, hr.observe, hr.pause]

/-! ## Single loops -/

theorem Rig.Seen.step {p : Probe V} {p' : Probe W} (hp : p.Seen view p') (t : Tally) (v : V) :
    r'.step plan p' (t, view v) =
      ((r.step plan p (t, v)).1, view (r.step plan p (t, v)).2) := by
  simp only [Rig.step, hr.attempt plan hp, hr.recover]

omit hr in
theorem Probe.Seen.warmUp {p : Probe V} {p' : Probe W} (hp : p.Seen view p') (n : Nat) (v : V) :
    p'.warmUp n (view v) = view (p.warmUp n v) := by
  induction n generalizing v with
  | zero => rfl
  | succ n ih => simp only [Probe.warmUp, hp.prepare, hp.measure, ih]

theorem Rig.Seen.loop {p : Probe V} {p' : Probe W} (hp : p.Seen view p') (fuel : Nat) (v : V) :
    (r.loop plan p fuel v).map (fun s => (s.1, view s.2)) = r'.loop plan p' fuel (view v) :=
  iterate_view (fun s : Tally × V => (s.1, view s.2)) (fun s => !s.1.goesOn plan)
    (fun s => (hr.step plan hp s.1 s.2).symm) fuel (.start plan.baseline, v)

/-- A run with a probe looks like the run with the probe that its probe looks like. -/
theorem Rig.Seen.runProbe {p : Probe V} {p' : Probe W} (hp : p.Seen view p') (name : String)
    (fuel : Nat) (v : V) :
    (r.runProbe plan name p fuel v).map (fun x => (x.1, view x.2)) =
      r'.runProbe plan name p' fuel (view v) := by
  unfold Rig.runProbe
  rw [hp.warmUp, ← hr.loop plan hp, Option.map_map, Option.map_map]
  rfl

/-! ## Paired loops -/

omit hr in
theorem Pair.Seen.warmUp {op : Pair V} {op' : Pair W} (ho : op.Seen view op') (n : Nat) (v : V) :
    op'.warmUp n (view v) = view (op.warmUp n v) := by
  induction n generalizing v with
  | zero => rfl
  | succ n ih => simp only [Pair.warmUp, ho.forward _, ho.reverse _, ih]

omit hr in
theorem Pair.Seen.undo {op : Pair V} {op' : Pair W} (ho : op.Seen view op') (code : Code) (v : V) :
    op'.undo code (view v) = view (op.undo code v) := by
  unfold Pair.undo
  split
  · rw [ho.reverse]
  · rfl

theorem Rig.Seen.pairStep {op : Pair V} {op' : Pair W} (ho : op.Seen view op') (t : PairTally)
    (v : V) :
    r'.pairStep plan op' (t, view v) =
      ((r.pairStep plan op (t, v)).1, view (r.pairStep plan op (t, v)).2) := by
  have hf := hr.attempt plan (hr.timed ho.forward) v
  simp only [Rig.pairStep, hf]
  cases ((r.attempt plan (r.timed op.forward) v).1).verdict plan with
  | accept c => simp only [hr.attempt plan (hr.timed ho.reverse), hr.recover]
  | failed => rfl
  | reject why => simp only [ho.undo, hr.recover]

/-- A run over a pair looks like the run over the pair that its pair looks like. -/
theorem Rig.Seen.runPair {op : Pair V} {op' : Pair W} (ho : op.Seen view op') (name : String)
    (reverseBaseline : Cycles) (fuel : Nat) (v : V) :
    (r.runPair plan name reverseBaseline op fuel v).map (fun x => (x.1, view x.2)) =
      r'.runPair plan name reverseBaseline op' fuel (view v) := by
  have hloop := iterate_view (fun s : PairTally × V => (s.1, view s.2))
    (fun s => !s.1.goesOn plan) (fun s => (hr.pairStep plan ho s.1 s.2).symm) fuel
    (.start plan.baseline reverseBaseline, op.warmUp plan.warmup.toNat v)
  unfold Rig.runPair Rig.pairLoop
  rw [ho.warmUp, ← hloop, Option.map_map, Option.map_map]
  rfl

end Runs

end LatencyGauge
