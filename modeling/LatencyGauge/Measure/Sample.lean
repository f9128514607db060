/-
One attempt at measuring: the window between two clock readings and the ticks observed around it.
A sample is accepted, counted as a failure, or rejected for the first of four reasons that
applies: the tick changed, the operation failed and is to be retried, the clock went backwards, or
the window is longer than the ceiling.
-/
import LatencyGauge.Plan.Loop
import LatencyGauge.Tick.Oracle

namespace LatencyGauge

/-! ## Samples -/

/-- The result of an operation; zero is success. -/
abbrev Code := Int32

/-- The clock readings before and after the measured work, and its result. -/
structure Window where
  start : Cycles
  stop : Cycles
  code : Code
deriving DecidableEq, Repr

/-- A window and the ticks observed before and after it. -/
structure Sample where
  window : Window
  before : Tick
  after : Tick
deriving DecidableEq, Repr

/-- The length of a window, if the clock did not go backwards. -/
def Window.elapsed? (w : Window) : Option Cycles :=
  if w.start ≤ w.stop then some (w.stop - w.start) else none

/-! ## Verdicts -/

/-- Why a sample is thrown away. -/
inductive Rejection where
  | tickChanged
  | failed
  | clockAnomaly
  | outlier
deriving DecidableEq, Repr

/-- What becomes of a sample. -/
inductive Verdict where
  | accept (cycles : Cycles)
  | failed
  | reject (why : Rejection)
deriving DecidableEq, Repr

/-- The verdict on a window whose ticks agree and whose code does not matter. -/
def Window.verdict (w : Window) (ceiling : Cycles) : Verdict :=
  match w.elapsed? with
  | none => .reject .clockAnomaly
  | some cycles => if ceiling < cycles then .reject .outlier else .accept cycles

/-- The verdict on a sample. -/
def Sample.verdict (s : Sample) (plan : LoopPlan) : Verdict :=
  if s.before ≠ s.after then .reject .tickChanged
  else if s.window.code = 0 then s.window.verdict plan.ceiling
  else
    match plan.onFailure with
    | .ignore => s.window.verdict plan.ceiling
    | .retry => .reject .failed
    | .countSeparately => .failed

/-! ## Rejections by reason -/

/-- How many samples were thrown away for each reason. -/
structure Rejections where
  tickChanged : UInt64
  failed : UInt64
  clockAnomaly : UInt64
  outlier : UInt64
deriving DecidableEq, Repr

/-- All rejections together. -/
def Rejections.total (r : Rejections) : UInt64 :=
  r.tickChanged + r.failed + r.clockAnomaly + r.outlier

end LatencyGauge
