/-
Measuring loops over an arbitrary world. A rig reads a clock, waits and observes ticks; an
operation, a probe or a pair acts on the same world. A loop makes attempts until enough samples
are completed or the attempts are spent; it reports what the samples of its attempts amount to. A
loop over a pair measures the operation and then its inverse, and undoes an operation whose sample
was thrown away.
-/
import LatencyGauge.Iterate
import LatencyGauge.Measure.Tally

namespace LatencyGauge

variable {W : Type}

/-! ## What a loop works with -/

/-- A clock to read and to wait on, and ticks to observe. -/
structure Rig (W : Type) where
  now : W → Cycles × W
  wait : Cycles → W → W
  observe : W → Tick × W

/-- A unit of work. -/
abbrev Operation (W : Type) := W → Code × W

/-- A way of measuring one window, with preparations that are not measured. -/
structure Probe (W : Type) where
  prepare : W → W
  measure : W → Window × W

/-- An operation and its inverse. -/
structure Pair (W : Type) where
  forward : Operation W
  reverse : Operation W

/-- The halves of a pair. -/
inductive Half where
  | forward
  | reverse
deriving DecidableEq, Repr

/-- An operation between two readings of the clock. -/
def Rig.timed (r : Rig W) (op : Operation W) : Probe W where
  prepare w := w
  measure w :=
    let (start, w) := r.now w
    let (code, w) := op w
    let (stop, w) := r.now w
    (⟨start, stop, code⟩, w)

/-! ## Attempts -/

/-- Waits, unless there is nothing to wait for. -/
def Rig.pause (r : Rig W) (cycles : Cycles) (w : W) : W :=
  if cycles = 0 then w else r.wait cycles w

/-- One attempt: tick, window, settling, tick. -/
def Rig.attempt (r : Rig W) (plan : LoopPlan) (p : Probe W) (w : W) : Sample × W :=
  let w := p.prepare w
  let (before, w) := r.observe w
  let (window, w) := p.measure w
  let w := r.pause plan.settle w
  let (after, w) := r.observe w
  (⟨window, before, after⟩, w)

/-- Lets the tail of an interrupt pass that spoiled a sample. -/
def Rig.recover (r : Rig W) (plan : LoopPlan) (v : Verdict) (w : W) : W :=
  match v with
  | .reject .tickChanged => r.pause plan.quiescence w
  | _ => w

/-! ## Single loops -/

/-- Windows that are measured and forgotten before the loop starts. -/
def Probe.warmUp (p : Probe W) : Nat → W → W
  | 0, w => w
  | n + 1, w => p.warmUp n (p.measure (p.prepare w)).2

/-- One attempt of a loop. -/
def Rig.step (r : Rig W) (plan : LoopPlan) (p : Probe W) (s : Tally × W) : Tally × W :=
  let (sample, w) := r.attempt plan p s.2
  let v := sample.verdict plan
  (s.1.take v, r.recover plan v w)

/-- The attempts of a loop, for at most `fuel` of them. -/
def Rig.loop (r : Rig W) (plan : LoopPlan) (p : Probe W) (fuel : Nat) (w : W) :
    Option (Tally × W) :=
  iterate (fun s => !s.1.goesOn plan) (r.step plan p) fuel (.start plan.baseline, w)

/-- Runs a loop with a probe: its report and the world after it, or nothing if the fuel does not
suffice. -/
def Rig.runProbe (r : Rig W) (plan : LoopPlan) (name : String) (p : Probe W) (fuel : Nat) (w : W) :
    Option (LoopReport × W) :=
  (r.loop plan p fuel (p.warmUp plan.warmup.toNat w)).map fun (t, w) =>
    (t.report name plan t.completed, w)

/-- Runs a loop with an operation. -/
def Rig.run (r : Rig W) (plan : LoopPlan) (name : String) (op : Operation W) (fuel : Nat) (w : W) :
    Option (LoopReport × W) :=
  r.runProbe plan name (r.timed op) fuel w

/-! ## Paired loops -/

/-- The progress of a loop over a pair. -/
structure PairTally where
  forward : Tally
  reverse : Tally
  iterations : Nat
deriving DecidableEq, Repr

/-- Nothing attempted yet. -/
def PairTally.start (baseline reverseBaseline : Cycles) : PairTally :=
  ⟨.start baseline, .start reverseBaseline, 0⟩

/-- Whether a loop over a pair goes on; only forward attempts are bounded. -/
def PairTally.goesOn (t : PairTally) (plan : LoopPlan) : Bool :=
  t.iterations < plan.samples.toNat && plan.allows t.forward.attempts

/-- Both halves, measured by nobody, before the loop starts. -/
def Pair.warmUp (op : Pair W) : Nat → W → W
  | 0, w => w
  | n + 1, w => op.warmUp n (op.reverse (op.forward w).2).2

/-- Undoes a forward operation that took place. -/
def Pair.undo (op : Pair W) (code : Code) (w : W) : W :=
  if code = 0 then (op.reverse w).2 else w

/-- One iteration over a pair, or the part of it up to a rejection. -/
def Rig.pairStep (r : Rig W) (plan : LoopPlan) (op : Pair W) (s : PairTally × W) : PairTally × W :=
  let (t, w) := s
  let (sample, w) := r.attempt plan (r.timed op.forward) w
  let v := sample.verdict plan
  let t := { t with forward := t.forward.take v }
  match v with
  | .reject _ => (t, r.recover plan v (op.undo sample.window.code w))
  | .failed => ({ t with iterations := t.iterations + 1 }, w)
  | .accept _ =>
    let (sample, w) := r.attempt plan (r.timed op.reverse) w
    let v := sample.verdict plan
    ({ t with
      reverse := t.reverse.take v
      iterations := t.iterations + (if v.completes then 1 else 0) }, r.recover plan v w)

/-- The attempts of a loop over a pair, for at most `fuel` forward ones. -/
def Rig.pairLoop (r : Rig W) (plan : LoopPlan) (reverseBaseline : Cycles) (op : Pair W) (fuel : Nat)
    (w : W) : Option (PairTally × W) :=
  iterate (fun s => !s.1.goesOn plan) (r.pairStep plan op) fuel
    (.start plan.baseline reverseBaseline, w)

/-- The reports of both halves; they share the number of iterations. -/
def PairTally.report (t : PairTally) (name : String) (plan : LoopPlan) : PairReport where
  forward := t.forward.report (name ++ " forward") plan t.iterations
  reverse := t.reverse.report (name ++ " reverse") plan t.iterations

/-- Runs a loop over a pair: its reports and the world after it, or nothing if the fuel does not
suffice. -/
def Rig.runPair (r : Rig W) (plan : LoopPlan) (name : String) (reverseBaseline : Cycles)
    (op : Pair W) (fuel : Nat) (w : W) : Option (PairReport × W) :=
  (r.pairLoop plan reverseBaseline op fuel (op.warmUp plan.warmup.toNat w)).map fun (t, w) =>
    (t.report name plan, w)

/-! ## Unfiltered passes -/

/-- An operation a number of times over. -/
def Operation.repeated (op : Operation W) : Nat → W → W
  | 0, w => w
  | n + 1, w => Operation.repeated op n (op w).2

/-- The average length of a number of windows between two readings; a clock that went backwards
shows no length. -/
def average (start stop : Cycles) (n : Nat) : Float :=
  Number.ofNat (stop.toNat - start.toNat) / Number.ofNat n

/-- The average cost of an operation over `n` calls in a row, with no sample thrown away; there is
none over no calls. -/
def Rig.unfiltered (r : Rig W) (op : Operation W) (n : Nat) (w : W) : Option Float × W :=
  if n = 0 then (none, w)
  else
    let (start, w) := r.now w
    let w := Operation.repeated op n w
    let (stop, w) := r.now w
    (some (average start stop n), w)

end LatencyGauge
