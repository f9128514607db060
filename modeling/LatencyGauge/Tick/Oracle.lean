/-
Tick oracles: trees of shared counters, pairs and flush points. A pair's tick is the wrapping sum
of its parts, so it changes when either part does; a flush point first sends its marker to a sink
and then observes what it guards. Counters are read and lines are sent in any world that has
instruments for it; a panel is one. Ticks have 32 bits.
-/

namespace LatencyGauge

/-! ## Ticks -/

/-- The number of an interrupt epoch. -/
abbrev Tick := UInt32

/-- The counters that oracles read, and the lines that their flush points have sent, each with the
number of its sink, the latest first. -/
structure Panel where
  counters : Nat → Tick
  log : List (Nat × String)

/-- All counters at zero and nothing sent. -/
def Panel.fresh : Panel := ⟨fun _ => 0, []⟩

/-- A panel with one counter replaced. -/
def Panel.put (p : Panel) (i : Nat) (t : Tick) : Panel :=
  { p with counters := fun j => if j = i then t else p.counters j }

/-- Advances a counter by one, as an interrupt does. -/
def Panel.advance (p : Panel) (i : Nat) : Panel := p.put i (p.counters i + 1)

/-- Sends a line to a sink. -/
def Panel.emit (p : Panel) (sink : Nat) (line : String) : Panel :=
  { p with log := (sink, line) :: p.log }

/-- The lines that a sink was sent, in order. -/
def Panel.lines (p : Panel) (sink : Nat) : List String :=
  p.log.reverse.filterMap fun (s, line) => if s = sink then some line else none

/-! ## Oracles -/

/-- A source of ticks. -/
inductive Oracle where
  | counter (index : Nat)
  | pair (a b : Oracle)
  | flushPoint (sink : Nat) (marker : Option String) (inner : Oracle)
deriving DecidableEq, Repr

/-- What oracles are observed with: counters to read and sinks to send lines to. -/
structure Instruments (W : Type) where
  read : Nat → W → Tick × W
  send : Nat → String → W → W

/-- Observes an oracle with instruments: the tick, and the world after all that was read and sent. -/
def Oracle.observeWith {W : Type} (s : Instruments W) : Oracle → W → Tick × W
  | .counter i, w => s.read i w
  | .pair a b, w =>
    let (x, w) := a.observeWith s w
    let (y, w) := b.observeWith s w
    (x + y, w)
  | .flushPoint sink marker inner, w =>
    inner.observeWith s (match marker with
      | some m => s.send sink m w
      | none => w)

/-- The instruments of a panel. -/
def Panel.instruments : Instruments Panel where
  read i p := (p.counters i, p)
  send sink line p := p.emit sink line

/-- Observes an oracle: the tick, and the panel with all markers sent. -/
def Oracle.observe (o : Oracle) (p : Panel) : Tick × Panel := o.observeWith Panel.instruments p

theorem Oracle.observe_pair (a b : Oracle) (p : Panel) :
    (Oracle.pair a b).observe p =
      ((a.observe p).1 + (b.observe (a.observe p).2).1, (b.observe (a.observe p).2).2) := rfl

theorem Oracle.observe_flushPoint (sink : Nat) (marker : Option String) (inner : Oracle)
    (p : Panel) : (Oracle.flushPoint sink marker inner).observe p =
      inner.observe (marker.elim p (p.emit sink)) := by
  cases marker <;> rfl

end LatencyGauge
