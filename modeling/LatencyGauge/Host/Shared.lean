/-
What the cores of a run share: the start barrier, the mailboxes, the completion flag, the flush
handshake, the timer's ticks, the number of primaries that still measure, and the lines sent to the
sink. Every operation here is one that a core carries out in a single step.
-/
import LatencyGauge.Measure.Sample
import LatencyGauge.Plan.Run
import LatencyGauge.Sync.Barrier
import LatencyGauge.Sync.Completion
import LatencyGauge.Sync.Handshake
import LatencyGauge.Sync.Mailboxes

namespace LatencyGauge

/-! ## Readings -/

/-- What a core can learn of time in one step: the cycle counter, and how often its thread was
switched. -/
structure Reading where
  cycles : Cycles
  switches : Tick
deriving DecidableEq, Repr

/-! ## Shared state -/

/-- What the cores of a run share; the lines have the latest first. -/
structure Shared where
  barrier : Barrier
  boxes : Mailboxes
  done : Completion
  handshake : Handshake
  ticks : Tick
  primariesLeft : Nat
  lines : List String
deriving DecidableEq, Repr

/-- The shared state before the cores start. -/
def Shared.start (p : RunPlan) : Shared :=
  ⟨.fresh, .create p.cores.toNat p.cores.toNat, .clear, .fresh, 0, p.primaries.toNat, []⟩

/-- Sends a line to the sink. -/
def Shared.emit (s : Shared) (line : String) : Shared := { s with lines := line :: s.lines }

/-- A primary's flush point: the marker is sent, then the timer and the thread are looked at. -/
def Shared.observe (s : Shared) (marker : Option String) (r : Reading) : Tick × Shared :=
  (r.switches + s.ticks, match marker with
    | some m => s.emit m
    | none => s)

/-- A primary has measured; whether it was the last. -/
def Shared.leave (s : Shared) : Bool × Shared :=
  (s.primariesLeft == 1, { s with primariesLeft := s.primariesLeft - 1 })

/-- Ends the run. -/
def Shared.complete (s : Shared) : Shared := { s with done := s.done.set.2 }

/-! ## The timer -/

/-- What the timer does next. -/
inductive Timing where
  | asking
  | sleeping
  | ended
deriving DecidableEq, Repr

/-- The timer, and how often it has ticked. -/
structure Timer where
  next : Timing
  fired : Nat
deriving DecidableEq, Repr

/-- The timer of a plan; a period of zero means that there is none. -/
def Timer.start (p : RunPlan) : Timer := ⟨if p.tickPeriod = 0 then .ended else .asking, 0⟩

/-- One step of the timer: a look at the flag, or a period that ends with a tick. -/
def Timer.step (t : Timer) (s : Shared) : Timer × Shared :=
  match t.next with
  | .asking => ({ t with next := if s.done.isSet then .ended else .sleeping }, s)
  | .sleeping => (⟨.asking, t.fired + 1⟩, { s with ticks := s.ticks + 1 })
  | .ended => (t, s)

end LatencyGauge
