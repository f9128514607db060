/-
Background load in rounds. Between two rounds an interferer waits for the tick to change and then
for the quiescence period; the completion flag is looked at before each round and while waiting
for the tick. A round that fails is counted and does not end the loop. The rounds, the tick, the
flag and the clock belong to an arbitrary world, and a round may take several steps.
-/
import LatencyGauge.Measure.Loop
import LatencyGauge.Tick.Edge

namespace LatencyGauge

variable {W : Type}

/-! ## Interferers -/

/-- What an interferer works with. A step of its round either ends the round with a code or does
not end it. -/
structure Interferer (W : Type) where
  observe : W → Tick × W
  done : W → Bool × W
  wait : Cycles → W → W
  round : W → Option Code × W
  quiescence : Cycles

/-- What an interferer does next. -/
inductive Interfering where
  | asking
  | working
  | edge (e : EdgeWait)
  | pausing
  | ended
deriving DecidableEq, Repr

/-- The rounds that an interferer finished, how many of them failed, and what it does next. -/
structure Load where
  next : Interfering
  rounds : Nat
  failures : Nat
deriving DecidableEq, Repr

/-- No round begun. -/
def Load.fresh : Load := ⟨.asking, 0, 0⟩

/-- Counts a round that ended with a code. -/
def Load.count (l : Load) (code : Code) : Load :=
  ⟨.edge .starting, l.rounds + 1, l.failures + (if code = 0 then 0 else 1)⟩

/-- What follows a wait for an edge. -/
def Interferer.afterEdge (i : Interferer W) : EdgeWait → Interfering
  | .ended none => .ended
  | .ended (some _) => if i.quiescence = 0 then .asking else .pausing
  | e => .edge e

/-- One step of an interferer. -/
def Interferer.step (i : Interferer W) (s : Load × W) : Load × W :=
  let (l, w) := s
  match l.next with
  | .asking =>
    let (done, w) := i.done w
    ({ l with next := if done then .ended else .working }, w)
  | .working =>
    match i.round w with
    | (none, w) => (l, w)
    | (some code, w) => (l.count code, w)
  | .edge e =>
    let (e, w) := EdgeWait.step i.observe i.done (e, w)
    ({ l with next := i.afterEdge e }, w)
  | .pausing => ({ l with next := .asking }, i.wait i.quiescence w)
  | .ended => (l, w)

/-- Runs an interferer to its end, for at most `fuel` steps. -/
def Interferer.run (i : Interferer W) (fuel : Nat) (w : W) : Option (Load × W) :=
  iterate (fun s => s.1.next == .ended) i.step fuel (.fresh, w)

end LatencyGauge
