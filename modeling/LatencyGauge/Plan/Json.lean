/-
Plans as JSON. Fields are written in the order of declaration; a field that is left out has the
value of the standard plan. A plan that is read as a whole text is checked as well.
-/
import LatencyGauge.Fault
import LatencyGauge.Json.Codec
import LatencyGauge.Json.Writer
import LatencyGauge.Plan.Run

namespace LatencyGauge

open Json

/-! ## Plain choices -/

/-- The written names of the failure policies. -/
def FailurePolicy.table : List (String × FailurePolicy) :=
  [("ignore", .ignore), ("retry", .retry), ("count_separately", .countSeparately)]

/-- The written name of a failure policy. -/
def FailurePolicy.name : FailurePolicy → String
  | .ignore => "ignore"
  | .retry => "retry"
  | .countSeparately => "count_separately"

/-- The written names of the backgrounds. -/
def Background.table : List (String × Background) := [("idle", .idle), ("interfere", .interfere)]

/-- The written name of a background. -/
def Background.name : Background → String
  | .idle => "idle"
  | .interfere => "interfere"

/-- The written names of the payloads. -/
def Payload.table : List (String × Payload) := [("timestamp", .timestamp), ("sentinel", .sentinel)]

/-- The written name of a payload. -/
def Payload.name : Payload → String
  | .timestamp => "timestamp"
  | .sentinel => "sentinel"

/-- Reads a failure policy. -/
def FailurePolicy.ofJson : Reader FailurePolicy := choice FailurePolicy.table

/-- Reads a background. -/
def Background.ofJson : Reader Background := choice Background.table

/-- Reads a payload. -/
def Payload.ofJson : Reader Payload := choice Payload.table

/-! ## Workloads -/

/-- The kinds of workload. -/
inductive WorkloadKind where
  | null
  | spin
  | roundTrip
  | response
  | allocFree
deriving DecidableEq, Repr

/-- The written names of the kinds, in order. -/
def WorkloadKind.table : List (String × WorkloadKind) :=
  [("null", .null), ("spin", .spin), ("round_trip", .roundTrip), ("response", .response),
    ("alloc_free", .allocFree)]

/-- Reads the rest of a workload of a kind. -/
def WorkloadKind.ofJson : WorkloadKind → Reader Workload
  | .null => bare .null
  | .spin => sole "iterations" word32 .spin
  | .roundTrip => bare .roundTrip
  | .response => bare .response
  | .allocFree => bare .allocFree

/-- Reads a workload. -/
def Workload.ofJson : Reader Workload := tagged "kind" WorkloadKind.table WorkloadKind.ofJson

/-- A workload as a value. -/
def Workload.toJson : Workload → Value
  | .null => .record [("kind", .ofString "null")]
  | .spin iterations =>
    .record [("kind", .ofString "spin"), ("iterations", .ofNat iterations.toNat)]
  | .roundTrip => .record [("kind", .ofString "round_trip")]
  | .response => .record [("kind", .ofString "response")]
  | .allocFree => .record [("kind", .ofString "alloc_free")]

/-! ## Loop plans -/

/-- An optional count as a value. -/
def wordOrNull : Option UInt64 → Value
  | some n => .ofWord n
  | none => .null

/-- The field names of a loop plan. -/
def LoopPlan.fields : List String :=
  ["samples", "max_attempts", "warmup", "baseline", "outlier_ceiling", "quiescence_cycles",
    "settle_cycles", "failure_policy", "drift_tolerance"]

/-- A loop plan as a value. -/
def LoopPlan.toJson (p : LoopPlan) : Value :=
  .record [
    ("samples", .ofWord p.samples),
    ("max_attempts", wordOrNull p.maxAttempts),
    ("warmup", .ofWord p.warmup),
    ("baseline", .ofWord p.baseline),
    ("outlier_ceiling", .ofWord p.ceiling),
    ("quiescence_cycles", .ofWord p.quiescence),
    ("settle_cycles", .ofWord p.settle),
    ("failure_policy", .ofString p.onFailure.name),
    ("drift_tolerance", .ofFloat p.tolerance)]

/-- Reads a loop plan; what is left out is standard. -/
def LoopPlan.ofJson : Reader LoopPlan := fun p v => do
  match ← slotsOf LoopPlan.fields true v with
  | [samples, maxAttempts, warmup, baseline, ceiling, quiescence, settle, onFailure, tolerance] =>
    let d := LoopPlan.standard
    return {
      samples := ← defaulted d.samples word p samples
      maxAttempts := ← defaulted d.maxAttempts (nullable word) p maxAttempts
      warmup := ← defaulted d.warmup word p warmup
      baseline := ← defaulted d.baseline word p baseline
      ceiling := ← defaulted d.ceiling word p ceiling
      quiescence := ← defaulted d.quiescence word p quiescence
      settle := ← defaulted d.settle word p settle
      onFailure := ← defaulted d.onFailure FailurePolicy.ofJson p onFailure
      tolerance := ← defaulted d.tolerance float p tolerance }
  | _ => none

/-! ## Run plans -/

/-- An optional text as a value. -/
def stringOrNull : Option String → Value
  | some s => .ofString s
  | none => .null

/-- The field names of a run plan. -/
def RunPlan.fields : List String :=
  ["cores", "primaries", "signal_offset", "workload", "background", "payload", "sampler",
    "reverse_baseline", "tick_period_us", "flush_marker", "pin_cores", "unfiltered"]

/-- A run plan as a value. -/
def RunPlan.toJson (p : RunPlan) : Value :=
  .record [
    ("cores", .ofWord p.cores),
    ("primaries", .ofWord p.primaries),
    ("signal_offset", .ofWord p.signalOffset),
    ("workload", p.workload.toJson),
    ("background", .ofString p.background.name),
    ("payload", .ofString p.payload.name),
    ("sampler", p.loop.toJson),
    ("reverse_baseline", .ofWord p.reverseBaseline),
    ("tick_period_us", .ofWord p.tickPeriod),
    ("flush_marker", stringOrNull p.marker),
    ("pin_cores", .bool p.pinned),
    ("unfiltered", .bool p.unfiltered)]

/-- Reads a run plan; what is left out is standard. -/
def RunPlan.ofJson : Reader RunPlan := fun p v => do
  match ← slotsOf RunPlan.fields true v with
  | [cores, primaries, signalOffset, workload, background, payload, loop, reverseBaseline,
      tickPeriod, marker, pinned, unfiltered] =>
    let d := RunPlan.standard
    return {
      cores := ← defaulted d.cores word p cores
      primaries := ← defaulted d.primaries word p primaries
      signalOffset := ← defaulted d.signalOffset word p signalOffset
      workload := ← defaulted d.workload Workload.ofJson p workload
      background := ← defaulted d.background Background.ofJson p background
      payload := ← defaulted d.payload Payload.ofJson p payload
      loop := ← defaulted d.loop LoopPlan.ofJson p loop
      reverseBaseline := ← defaulted d.reverseBaseline word p reverseBaseline
      tickPeriod := ← defaulted d.tickPeriod word p tickPeriod
      marker := ← defaulted d.marker (nullable string) p marker
      pinned := ← defaulted d.pinned boolean p pinned
      unfiltered := ← defaulted d.unfiltered boolean p unfiltered }
  | _ => none

/-! ## Texts -/

/-- The text of a run plan. -/
def RunPlan.text (p : RunPlan) : String := p.toJson.pretty

/-- The run plan that a text spells, if it breaks no rule. -/
def RunPlan.parse (text : String) : Except Fault RunPlan :=
  match Json.decode RunPlan.ofJson text with
  | none => .error .json
  | some p =>
    match p.check with
    | .ok () => .ok p
    | .error v => .error (.invalidPlan v)

/-- The run plan in the content of a file. -/
def RunPlan.ofFile (content : Except FileFault ByteArray) : Except Fault RunPlan :=
  match content with
  | .error f => .error (.file f)
  | .ok bytes =>
    match String.fromUTF8? bytes with
    | none => .error (.file .notText)
    | some text => RunPlan.parse text

end LatencyGauge
