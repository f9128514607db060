/-
Clocks that play back given readings. One returns a list of readings over and over; the other
returns its value and then moves on by the next of a list of strides.
-/
import LatencyGauge.Statistics.Totals

namespace LatencyGauge

/-! ## Cyclic lists -/

/-- The item that a list shows at a position when it is repeated for ever. -/
def cyclic? {α : Type} (items : List α) (position : Nat) : Option α :=
  items[position % items.length]?

/-! ## Playback -/

/-- Readings, and how many of them were taken. -/
structure Playback where
  readings : List Cycles
  taken : Nat
deriving DecidableEq, Repr

/-- The next reading; without any it is zero. -/
def Playback.now (p : Playback) : Cycles × Playback :=
  ((cyclic? p.readings p.taken).getD 0, { p with taken := p.taken + 1 })

/-! ## Striding -/

/-- The next reading, the strides between readings, and how many were taken. -/
structure Striding where
  value : Cycles
  strides : List Cycles
  taken : Nat
deriving DecidableEq, Repr

/-- The next reading; the one after it is a stride later, wrapping. -/
def Striding.now (s : Striding) : Cycles × Striding :=
  (s.value, { s with
    value := s.value + (cyclic? s.strides s.taken).getD 0
    taken := s.taken + 1 })

end LatencyGauge
