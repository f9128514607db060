/-
What a run on several cores reports: one entry a core with its role and what it produced, the
primaries' entries holding their measurements.
-/
import LatencyGauge.Host.Role
import LatencyGauge.Measure.Report

namespace LatencyGauge

/-! ## Measurements -/

/-- What a primary measured: one loop, with the average of an unfiltered pass if one was asked for,
or a pair of loops. -/
inductive Measurement where
  | single (report : LoopReport) (unfiltered : Option Float)
  | paired (report : PairReport)
deriving BEq, Repr

/-- The loops of a measurement, the forward one first. -/
def Measurement.loops : Measurement → List LoopReport
  | .single report _ => [report]
  | .paired report => [report.forward, report.reverse]

/-- The unfiltered average of a measurement, if there is one. -/
def Measurement.unfiltered? : Measurement → Option Float
  | .single _ unfiltered => unfiltered
  | .paired _ => none

/-! ## Core reports -/

/-- The rounds of an interferer, and how many of them failed. -/
structure Rounds where
  finished : UInt64
  failures : UInt64
deriving DecidableEq, Repr

/-- What a core produced. -/
inductive Outcome where
  | measured (m : Measurement)
  | served (requests : UInt64)
  | flushed (flushes : UInt64)
  | interfered (rounds : Rounds)
  | idle
deriving BEq, Repr

/-- The entry of one core. -/
structure CoreReport where
  core : UInt64
  role : Role
  pinned : Bool
  outcome : Outcome
deriving BEq, Repr

/-- The measurement of a core, if it made one. -/
def CoreReport.measurement? (c : CoreReport) : Option (UInt64 × Measurement) :=
  match c.outcome with
  | .measured m => some (c.core, m)
  | _ => none

/-! ## Run reports -/

/-- What a whole run produced. -/
structure RunReport where
  plan : RunPlan
  clock : String
  cyclesPerNs : Float
  ticksFired : UInt64
  cores : List CoreReport
deriving BEq, Repr

/-- The measurements of a run, in the order of the cores. -/
def RunReport.measurements (r : RunReport) : List (UInt64 × Measurement) :=
  r.cores.filterMap CoreReport.measurement?

end LatencyGauge
