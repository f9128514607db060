/-
Tick edges: an oracle is observed until the tick differs from the first observation. Where a run
may be completed meanwhile, the flag is asked only after an observation that showed no edge, so an
edge is preferred.
-/
import LatencyGauge.Iterate
import LatencyGauge.Tick.Oracle

namespace LatencyGauge

variable {W : Type}

/-! ## Plain edges -/

/-- Observes until the tick changes, at most `fuel` times after the first two observations. The
new tick and the world after it. -/
def awaitEdge (observe : W → Tick × W) (fuel : Nat) (w : W) : Option (Tick × W) :=
  let (first, w) := observe w
  iterate (fun s => s.1 != first) (fun s => observe s.2) fuel (observe w)

/-! ## Edges or completion -/

/-- Where a wait for an edge or for completion stands. -/
inductive EdgeWait where
  | starting
  | observing (first : Tick)
  | asking (first : Tick)
  | ended (edge : Option Tick)
deriving DecidableEq, Repr

/-- Whether a wait is over. -/
def EdgeWait.over : EdgeWait → Bool
  | .ended _ => true
  | _ => false

/-- One step of a wait: an observation, or a look at the flag. -/
def EdgeWait.step (observe : W → Tick × W) (done : W → Bool × W) (s : EdgeWait × W) :
    EdgeWait × W :=
  match s with
  | (.starting, w) => let (t, w) := observe w; (.observing t, w)
  | (.observing first, w) =>
    let (t, w) := observe w
    (if t = first then .asking first else .ended (some t), w)
  | (.asking first, w) =>
    let (d, w) := done w
    (if d then .ended none else .observing first, w)
  | (.ended e, w) => (.ended e, w)

/-- The edge that a wait ended with. -/
def EdgeWait.edge : EdgeWait → Option Tick
  | .ended e => e
  | _ => none

/-- Waits for an edge or for completion, for at most `fuel` steps. -/
def awaitEdgeOr (observe : W → Tick × W) (done : W → Bool × W) (fuel : Nat) (w : W) :
    Option (Option Tick × W) :=
  (iterate (fun s => s.1.over) (EdgeWait.step observe done) fuel (.starting, w)).map
    fun (e, w) => (e.edge, w)

end LatencyGauge
