/-
Loops whose calls are written down. A world is extended by a log of the calls of a pair's halves;
the rig does not see the log.
-/
import LatencyGauge.Measure.Loop

namespace LatencyGauge

variable {W L : Type}

/-! ## Logs -/

/-- A rig in a world with something beside it. -/
def Rig.beside (r : Rig W) : Rig (W × L) where
  now s := let (c, w) := r.now s.1; (c, (w, s.2))
  wait c s := (r.wait c s.1, s.2)
  observe s := let (t, w) := r.observe s.1; (t, (w, s.2))

/-- An operation that writes down its calls, the latest first. -/
def Operation.logged (op : Operation W) (label : L) : Operation (W × List L) :=
  fun s => let (code, w) := op s.1; (code, (w, label :: s.2))

/-- A pair that writes down its calls, the latest first. -/
def Pair.logged (op : Pair W) : Pair (W × List Half) where
  forward := Operation.logged op.forward .forward
  reverse := Operation.logged op.reverse .reverse

end LatencyGauge
