/-
Waiting on a clock that can only be read: it is read once, and then until more than the given
number of cycles has passed since. Differences of readings wrap, so the counter may wrap while
waiting.
-/
import LatencyGauge.Iterate
import LatencyGauge.Statistics.Totals

namespace LatencyGauge

variable {W : Type}

/-! ## Waiting -/

/-- Whether more than `cycles` cycles passed between two readings. -/
def overdue (start cycles reading : Cycles) : Bool := cycles < reading - start

/-- Reads a clock until more than `cycles` cycles have passed since the first reading, at most
`fuel` times after that. The last reading and the world after it. -/
def waitFor (now : W → Cycles × W) (cycles : Cycles) (fuel : Nat) (w : W) : Option (Cycles × W) :=
  let (start, w) := now w
  iterate (fun s => overdue start cycles s.1) (fun s => now s.2) fuel (now w)

end LatencyGauge
