/-
A synthetic operation: it costs a fixed number of cycles, returns a fixed code, and advances the
tick with a given probability before it spends its cycles, as an interrupt inside the window would.
-/
import LatencyGauge.Simulate.Random
import LatencyGauge.Simulate.Script

namespace LatencyGauge

/-! ## The operation -/

/-- A synthetic operation, its source of draws, and what it has done so far. -/
structure Synthetic (R : Type) where
  cost : Cycles
  code : Code
  draw : R → Bool × R
  source : R
  flips : Nat

/-- An operation that never disturbs the tick and always succeeds. -/
def Synthetic.quiet (cost : Cycles) : Synthetic Random :=
  ⟨cost, 0, Random.draw 0.0, .seeded 0, 0⟩

/-- What is said of a probability that is none. -/
def improbable : String := "flip_probability must be within 0..=1"

/-- An operation with a probability of disturbing the tick, if it is one. -/
def Synthetic.withProbability (s : Synthetic Random) (p : Float) :
    Except String (Synthetic Random) :=
  if 0.0 <= p && p <= 1.0 then .ok { s with draw := Random.draw p } else .error improbable

/-- One call. -/
def Synthetic.invoke {R : Type} : Operation (Synthetic R × Stage) := fun (s, w) =>
  let (flip, source) := s.draw s.source
  let s := { s with source := source, flips := s.flips + (if flip then 1 else 0) }
  let w := if flip then { w with panel := w.panel.advance 0 } else w
  (s.code, (s, w.advance s.cost))

/-- A rig for a world with a synthetic operation before the stage. -/
def Synthetic.rig {R : Type} (r : Rig Stage) : Rig (Synthetic R × Stage) where
  now w := let (c, s) := r.now w.2; (c, (w.1, s))
  wait c w := (w.1, r.wait c w.2)
  observe w := let (t, s) := r.observe w.2; (t, (w.1, s))

end LatencyGauge
