/-
A listed oracle with a completion flag. Observations follow a list; once it is used up they either
go on counting, or repeat its last tick and set the flag.
-/
import LatencyGauge.Simulate.Script

namespace LatencyGauge

/-! ## Feeds -/

/-- A list of ticks, how many observations were made, and the flag. -/
structure Feed where
  ticks : List Tick
  observed : Nat
  done : Bool
deriving DecidableEq, Repr

/-- An observation that goes on counting past the end of the list. -/
def Feed.count (f : Feed) : Tick × Feed :=
  (listedTick f.ticks f.observed, { f with observed := f.observed + 1 })

/-- An observation that repeats the last tick past the end of the list and sets the flag. -/
def Feed.drain (f : Feed) : Tick × Feed :=
  match f.ticks[f.observed]? with
  | some t => (t, { f with observed := f.observed + 1 })
  | none => (f.ticks.getLastD 0, { f with observed := f.observed + 1, done := true })

/-- Sets the flag if a condition holds. -/
def Feed.finishIf (f : Feed) (condition : Bool) : Feed := { f with done := f.done || condition }

end LatencyGauge
