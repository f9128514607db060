/-
Reports as JSON. Records are written in the order of their fields and tagged choices with the tag
first; every field has to be there when a report is read, except those that may be null.
-/
import LatencyGauge.Host.Report
import LatencyGauge.Plan.Json

namespace LatencyGauge

open Json

/-! ## Roles -/

/-- The kinds of role. -/
inductive RoleKind where
  | primary
  | receiver
  | flusher
  | interferer
  | idle
deriving DecidableEq, Repr

/-- The written names of the kinds, in order. -/
def RoleKind.table : List (String × RoleKind) :=
  [("primary", .primary), ("receiver", .receiver), ("flusher", .flusher),
    ("interferer", .interferer), ("idle", .idle)]

/-- Reads the rest of a role of a kind. -/
def RoleKind.ofJson : RoleKind → Reader Role
  | .primary => bare .primary
  | .receiver => sole "sender" word .receiver
  | .flusher => bare .flusher
  | .interferer => bare .interferer
  | .idle => bare .idle

/-- Reads a role. -/
def Role.ofJson : Reader Role := tagged "role" RoleKind.table RoleKind.ofJson

/-- A role as a value. -/
def Role.toJson : Role → Value
  | .primary => .record [("role", .ofString "primary")]
  | .receiver sender => .record [("role", .ofString "receiver"), ("sender", .ofWord sender)]
  | .flusher => .record [("role", .ofString "flusher")]
  | .interferer => .record [("role", .ofString "interferer")]
  | .idle => .record [("role", .ofString "idle")]

/-! ## Rejections -/

/-- The written names of the reasons. -/
def Rejection.table : List (String × Rejection) :=
  [("tick_changed", .tickChanged), ("failed", .failed), ("clock_anomaly", .clockAnomaly),
    ("outlier", .outlier)]

/-- The written name of a reason. -/
def Rejection.name : Rejection → String
  | .tickChanged => "tick_changed"
  | .failed => "failed"
  | .clockAnomaly => "clock_anomaly"
  | .outlier => "outlier"

/-- Reads a reason. -/
def Rejection.ofJson : Reader Rejection := choice Rejection.table

/-- Rejection counters as a value. -/
def Rejections.toJson (r : Rejections) : Value :=
  .record [
    ("tick_changed", .ofWord r.tickChanged),
    ("failed", .ofWord r.failed),
    ("clock_anomaly", .ofWord r.clockAnomaly),
    ("outlier", .ofWord r.outlier)]

/-- Reads rejection counters. -/
def Rejections.ofJson : Reader Rejections := fun p v => do
  match ← slotsOf ["tick_changed", "failed", "clock_anomaly", "outlier"] false v with
  | [tickChanged, failed, clockAnomaly, outlier] =>
    return {
      tickChanged := ← required word p tickChanged
      failed := ← required word p failed
      clockAnomaly := ← required word p clockAnomaly
      outlier := ← required word p outlier }
  | _ => none

/-! ## Statistics -/

/-- A summary as a value. -/
def Summary.toJson (s : Summary) : Value :=
  .record [
    ("count", .ofWord s.count),
    ("mean", .ofFloat s.mean),
    ("max", .ofWord s.max),
    ("variance", .ofFloat s.variance),
    ("baseline", .ofWord s.baseline)]

/-- Reads a summary. -/
def Summary.ofJson : Reader Summary := fun p v => do
  match ← slotsOf ["count", "mean", "max", "variance", "baseline"] false v with
  | [count, mean, max, variance, baseline] =>
    return {
      count := ← required word p count
      mean := ← required float p mean
      max := ← required word p max
      variance := ← required float p variance
      baseline := ← required word p baseline }
  | _ => none

/-- The members of a drift. -/
def Drift.members (d : Drift) : List (String × Value) :=
  [("baseline", .ofWord d.baseline), ("measured", .ofFloat d.measured),
    ("relative", .ofFloat d.relative)]

/-- A drift as a value. -/
def Drift.toJson (d : Drift) : Value := .record d.members

/-- Reads a drift. -/
def Drift.ofJson : Reader Drift := fun p v => do
  match ← slotsOf ["baseline", "measured", "relative"] false v with
  | [baseline, measured, relative] =>
    return {
      baseline := ← required word p baseline
      measured := ← required float p measured
      relative := ← required float p relative }
  | _ => none

/-! ## Cautions -/

/-- The kinds of caution. -/
inductive CautionKind where
  | nothingAccepted
  | budgetSpent
  | drift
deriving DecidableEq, Repr

/-- The written names of the kinds, in order. -/
def CautionKind.table : List (String × CautionKind) :=
  [("no_accepted_samples", .nothingAccepted), ("attempt_budget_exhausted", .budgetSpent),
    ("baseline_drift", .drift)]

/-- The written name of a kind. -/
def CautionKind.name : CautionKind → String
  | .nothingAccepted => "no_accepted_samples"
  | .budgetSpent => "attempt_budget_exhausted"
  | .drift => "baseline_drift"

/-- The kind of a caution. -/
def Caution.kind : Caution → CautionKind
  | .nothingAccepted => .nothingAccepted
  | .budgetSpent _ _ => .budgetSpent
  | .drift _ => .drift

/-- Reads the rest of a caution of a kind. -/
def CautionKind.ofJson : CautionKind → Reader Caution
  | .nothingAccepted => bare .nothingAccepted
  | .budgetSpent => fun p v => do
    match ← slotsOf ["completed", "target"] false v with
    | [completed, target] =>
      return .budgetSpent (← required word p completed) (← required word p target)
    | _ => none
  | .drift => fun p v => (Drift.ofJson p v).map .drift

/-- Reads a caution. -/
def Caution.ofJson : Reader Caution := tagged "kind" CautionKind.table CautionKind.ofJson

/-- The members of a caution besides its kind. -/
def Caution.members : Caution → List (String × Value)
  | .nothingAccepted => []
  | .budgetSpent completed target => [("completed", .ofWord completed), ("target", .ofWord target)]
  | .drift d => d.members

/-- A caution as a value. -/
def Caution.toJson (c : Caution) : Value :=
  .record (("kind", .ofString c.kind.name) :: c.members)

/-! ## Loop reports -/

/-- A loop report as a value. -/
def LoopReport.toJson (r : LoopReport) : Value :=
  .record [
    ("name", .ofString r.name),
    ("attempts", .ofWord r.attempts),
    ("completed", .ofWord r.completed),
    ("accepted", .ofWord r.accepted),
    ("failed", .ofWord r.failed),
    ("rejected", r.rejected.toJson),
    ("summary", match r.summary with | some s => s.toJson | none => .null),
    ("warnings", .array (r.cautions.map Caution.toJson))]

/-- Reads a loop report. -/
def LoopReport.ofJson : Reader LoopReport := fun p v => do
  match ← slotsOf ["name", "attempts", "completed", "accepted", "failed", "rejected", "summary",
      "warnings"] false v with
  | [name, attempts, completed, accepted, failed, rejected, summary, cautions] =>
    return {
      name := ← required string p name
      attempts := ← required word p attempts
      completed := ← required word p completed
      accepted := ← required word p accepted
      failed := ← required word p failed
      rejected := ← required Rejections.ofJson p rejected
      summary := ← optional Summary.ofJson p summary
      cautions := ← required (listOf Caution.ofJson) p cautions }
  | _ => none

/-- A pair report as a value. -/
def PairReport.toJson (r : PairReport) : Value :=
  .record [("forward", r.forward.toJson), ("reverse", r.reverse.toJson)]

/-- Reads a pair report. -/
def PairReport.ofJson : Reader PairReport := fun p v => do
  match ← slotsOf ["forward", "reverse"] false v with
  | [forward, reverse] =>
    return {
      forward := ← required LoopReport.ofJson p forward
      reverse := ← required LoopReport.ofJson p reverse }
  | _ => none

/-! ## Measurements -/

/-- The shapes of a measurement. -/
inductive Shape where
  | single
  | paired
deriving DecidableEq, Repr

/-- The written names of the shapes, in order. -/
def Shape.table : List (String × Shape) := [("single", .single), ("paired", .paired)]

/-- An optional number as a value. -/
def floatOrNull : Option Float → Value
  | some x => .ofFloat x
  | none => .null

/-- A measurement as a value. -/
def Measurement.toJson : Measurement → Value
  | .single report unfiltered =>
    .record [("shape", .ofString "single"), ("report", report.toJson),
      ("unfiltered", floatOrNull unfiltered)]
  | .paired report => .record [("shape", .ofString "paired"), ("report", report.toJson)]

/-- Reads the rest of a measurement of a shape. -/
def Shape.ofJson : Shape → Reader Measurement
  | .single => fun p v => do
    match ← slotsOf ["report", "unfiltered"] false v with
    | [report, unfiltered] =>
      return .single (← required LoopReport.ofJson p report) (← optional float p unfiltered)
    | _ => none
  | .paired => sole "report" PairReport.ofJson .paired

/-- Reads a measurement. -/
def Measurement.ofJson : Reader Measurement := tagged "shape" Shape.table Shape.ofJson

/-! ## Outcomes -/

/-- The kinds of outcome. -/
inductive OutcomeKind where
  | measured
  | served
  | flushed
  | interfered
  | idle
deriving DecidableEq, Repr

/-- The written names of the kinds, in order. -/
def OutcomeKind.table : List (String × OutcomeKind) :=
  [("measured", .measured), ("served", .served), ("flushed", .flushed),
    ("interfered", .interfered), ("idle", .idle)]

/-- Round counters as a value. -/
def Rounds.toJson (r : Rounds) : Value :=
  .record [("rounds", .ofWord r.finished), ("failures", .ofWord r.failures)]

/-- Reads round counters. -/
def Rounds.ofJson : Reader Rounds := fun p v => do
  match ← slotsOf ["rounds", "failures"] false v with
  | [finished, failures] =>
    return { finished := ← required word p finished, failures := ← required word p failures }
  | _ => none

/-- An outcome as a value. -/
def Outcome.toJson : Outcome → Value
  | .measured m => .record [("outcome", .ofString "measured"), ("measurement", m.toJson)]
  | .served requests =>
    .record [("outcome", .ofString "served"), ("requests", .ofWord requests)]
  | .flushed flushes => .record [("outcome", .ofString "flushed"), ("flushes", .ofWord flushes)]
  | .interfered rounds => .record [("outcome", .ofString "interfered"), ("stats", rounds.toJson)]
  | .idle => .record [("outcome", .ofString "idle")]

/-- Reads the rest of an outcome of a kind. -/
def OutcomeKind.ofJson : OutcomeKind → Reader Outcome
  | .measured => sole "measurement" Measurement.ofJson .measured
  | .served => sole "requests" word .served
  | .flushed => sole "flushes" word .flushed
  | .interfered => sole "stats" Rounds.ofJson .interfered
  | .idle => bare .idle

/-- Reads an outcome. -/
def Outcome.ofJson : Reader Outcome := tagged "outcome" OutcomeKind.table OutcomeKind.ofJson

/-! ## Run reports -/

/-- A core's report as a value. -/
def CoreReport.toJson (c : CoreReport) : Value :=
  .record [
    ("core", .ofWord c.core),
    ("role", c.role.toJson),
    ("pinned", .bool c.pinned),
    ("outcome", c.outcome.toJson)]

/-- Reads a core's report. -/
def CoreReport.ofJson : Reader CoreReport := fun p v => do
  match ← slotsOf ["core", "role", "pinned", "outcome"] false v with
  | [core, role, pinned, outcome] =>
    return {
      core := ← required word p core
      role := ← required Role.ofJson p role
      pinned := ← required boolean p pinned
      outcome := ← required Outcome.ofJson p outcome }
  | _ => none

/-- A run's report as a value. -/
def RunReport.toJson (r : RunReport) : Value :=
  .record [
    ("config", r.plan.toJson),
    ("clock", .ofString r.clock),
    ("cycles_per_ns", .ofFloat r.cyclesPerNs),
    ("ticks_fired", .ofWord r.ticksFired),
    ("cores", .array (r.cores.map CoreReport.toJson))]

/-- Reads a run's report. -/
def RunReport.ofJson : Reader RunReport := fun p v => do
  match ← slotsOf ["config", "clock", "cycles_per_ns", "ticks_fired", "cores"] false v with
  | [plan, clock, cyclesPerNs, ticksFired, cores] =>
    return {
      plan := ← required RunPlan.ofJson p plan
      clock := ← required string p clock
      cyclesPerNs := ← required float p cyclesPerNs
      ticksFired := ← required word p ticksFired
      cores := ← required (listOf CoreReport.ofJson) p cores }
  | _ => none

/-- The text of a run's report. -/
def RunReport.text (r : RunReport) : String := r.toJson.pretty

end LatencyGauge
