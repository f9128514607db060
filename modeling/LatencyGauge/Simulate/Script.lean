/-
A simulated world for measuring loops: a clock that moves only when told to, tick counters with
their sinks, and oracles that list their observations. Operations are scripts of actions played
over and over, one action a call.
-/
import LatencyGauge.Clock.Playback
import LatencyGauge.Measure.Loop

namespace LatencyGauge

/-! ## The world -/

/-- A clock, tick counters, the number of observations of a listed oracle, and how often each of
two scripts was played. -/
structure Stage where
  clock : Cycles
  panel : Panel
  observed : Nat
  first : Nat
  second : Nat

/-- A stage at a clock reading, with nothing played. -/
def Stage.at (clock : Cycles) : Stage := ⟨clock, .fresh, 0, 0, 0⟩

/-- Forgets how often scripts were played. -/
def Stage.rewind (s : Stage) : Stage := { s with first := 0, second := 0 }

/-- The counter that scripts advance. -/
def Stage.tick (s : Stage) : Tick := s.panel.counters 0

/-! ## Rigs -/

/-- Moves the clock, wrapping. -/
def Stage.advance (s : Stage) (cycles : Cycles) : Stage := { s with clock := s.clock + cycles }

/-- The rig of a stage: reading takes no time and waiting moves the clock. -/
def Stage.rig (observe : Stage → Tick × Stage) : Rig Stage where
  now s := (s.clock, s)
  wait c s := s.advance c
  observe := observe

/-- Observes an oracle over the counters of a stage. -/
def Stage.observe (o : Oracle) (s : Stage) : Tick × Stage :=
  let (t, p) := o.observe s.panel
  (t, { s with panel := p })

/-- The observation of a listed oracle at a position: past the end it counts up by one from the
last, from zero if there is none. -/
def listedTick (ticks : List Tick) (position : Nat) : Tick :=
  match ticks[position]? with
  | some t => t
  | none => ticks.getLastD 0 + UInt32.ofNat (position + 1 - ticks.length)

/-- Observes a listed oracle. -/
def Stage.observeListed (ticks : List Tick) (s : Stage) : Tick × Stage :=
  (listedTick ticks s.observed, { s with observed := s.observed + 1 })

/-- Observes the shared counter together with a listed oracle. -/
def Stage.observeWith (ticks : List Tick) (s : Stage) : Tick × Stage :=
  let (x, s) := s.observe (.counter 0)
  let (y, s) := s.observeListed ticks
  (x + y, s)

/-! ## Scripts -/

/-- What one call does: it may set the clock, advances it, advances the tick, and returns a code. -/
structure Action where
  set : Option Cycles
  cycles : Cycles
  ticks : Nat
  code : Code
deriving DecidableEq, Repr

/-- Actions that are played over and over. -/
abbrev Script := List Action

/-- Carries out an action. -/
def Action.play (a : Action) (s : Stage) : Code × Stage :=
  (a.code, { s with
    clock := a.set.getD s.clock + a.cycles
    panel := if a.ticks = 0 then s.panel
      else s.panel.put 0 (s.panel.counters 0 + UInt32.ofNat a.ticks) })

/-- Plays the action of a script at a position; an empty script does nothing and succeeds. -/
def Script.play (script : Script) (position : Nat) (s : Stage) : Code × Stage :=
  match cyclic? script position with
  | some a => a.play s
  | none => (0, s)

/-- The operation that plays the first script. -/
def Script.operation (script : Script) : Operation Stage := fun s =>
  Script.play script s.first { s with first := s.first + 1 }

/-- The operation that plays the second script. -/
def Script.second (script : Script) : Operation Stage := fun s =>
  Script.play script s.second { s with second := s.second + 1 }

/-- The pair that plays one script forward and another in reverse. -/
def Script.pair (forward reverse : Script) : Pair Stage := ⟨forward.operation, reverse.second⟩

/-- A probe that replays windows and plays a script to prepare each. -/
def replay (windows : List Window) (preparation : Script) : Probe Stage where
  prepare s := (preparation.second s).2
  measure s := ((cyclic? windows s.first).getD ⟨0, 0, 0⟩, { s with first := s.first + 1 })

/-! ## Adapters -/

/-- An operation whose result is only whether it succeeded. -/
def checked {W : Type} (op : Operation W) : Operation W := fun w =>
  let (code, w) := op w
  (if code = 0 then 0 else -1, w)

/-- An operation without a result. -/
def infallible {W : Type} (op : Operation W) : Operation W := fun w => (0, (op w).2)

/-- An operation that fails at once. -/
def alwaysFailing {W : Type} : Operation W := fun w => (-1, w)

end LatencyGauge
