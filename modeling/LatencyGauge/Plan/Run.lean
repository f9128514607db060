/-
The plan of a run on several cores: what the primary cores measure, who answers them, what the
other cores do, and the plan of the measuring loop. The check of a plan covers what only shows in
several fields together.
-/
import LatencyGauge.Plan.Loop

namespace LatencyGauge

/-! ## Run plans -/

/-- What the primary cores measure. -/
inductive Workload where
  | null
  | spin (iterations : UInt32)
  | roundTrip
  | response
  | allocFree
deriving DecidableEq, Repr

/-- What cores do that take no part in the measurement. -/
inductive Background where
  | idle
  | interfere
deriving DecidableEq, Repr

/-- What a receiver's answer means: its clock reading, or nothing. -/
inductive Payload where
  | timestamp
  | sentinel
deriving DecidableEq, Repr

/-- The parameters of one run. The receiver of primary `c` is core `c + signalOffset`. -/
structure RunPlan where
  cores : UInt64
  primaries : UInt64
  signalOffset : UInt64
  workload : Workload
  background : Background
  payload : Payload
  loop : LoopPlan
  reverseBaseline : Cycles
  tickPeriod : UInt64
  marker : Option String
  pinned : Bool
  unfiltered : Bool
deriving BEq, Repr

/-- Two cores, the first one measuring nothing at all. -/
def RunPlan.standard : RunPlan where
  cores := 2
  primaries := 1
  signalOffset := 1
  workload := .null
  background := .idle
  payload := .timestamp
  loop := .standard
  reverseBaseline := 0
  tickPeriod := 1000
  marker := none
  pinned := true
  unfiltered := false

/-- Whether the workload sends signals that other cores answer. -/
def Workload.signals : Workload → Bool
  | .roundTrip | .response => true
  | _ => false

/-- Whether every primary needs a receiver. -/
def RunPlan.needsReceivers (p : RunPlan) : Bool := p.workload.signals

/-! ## Checking -/

/-- Receivers are not primaries, and the last of them is among the cores. The sum is one of words,
so an offset near the end of the range can wrap it around. -/
def RunPlan.checkReceivers (p : RunPlan) : Except Violation Unit := do
  Violation.unless (p.primaries <= p.signalOffset) .offsetBelowPrimaries
  Violation.unless (p.primaries - 1 + p.signalOffset < p.cores) .receiverMissing

/-- The response workload has one primary, a core to flush, and ticks. -/
def RunPlan.checkResponse (p : RunPlan) : Except Violation Unit := do
  Violation.unless (p.primaries == 1) .responsePrimaries
  Violation.unless (3 <= p.cores) .flusherMissing
  Violation.unless (p.tickPeriod != 0) .responseTickless

/-- The first rule that a run plan breaks, if any. -/
def RunPlan.check (p : RunPlan) : Except Violation Unit := do
  p.loop.check
  Violation.unless (p.cores != 0) .noCores
  Violation.unless (p.primaries != 0 && p.primaries <= p.cores) .primariesOutOfRange
  Violation.unless (p.signalOffset != 0) .noOffset
  if p.needsReceivers then p.checkReceivers else pure ()
  if p.workload = .response then p.checkResponse else pure ()
  Violation.unless (p.background != .interfere || p.tickPeriod != 0) .interferenceTickless

/-- A run plan that breaks no rule. -/
def RunPlan.Valid (p : RunPlan) : Prop := p.check = .ok ()

instance (p : RunPlan) : Decidable p.Valid :=
  match h : p.check with
  | .ok () => .isTrue h
  | .error _ => .isFalse (by unfold RunPlan.Valid; simp [h])

/-! ## Settings -/

/-- One field of a run plan and the value to give it. -/
inductive RunSetting where
  | cores (n : UInt64)
  | primaries (n : UInt64)
  | signalOffset (n : UInt64)
  | workload (w : Workload)
  | background (b : Background)
  | payload (p : Payload)
  | loop (p : LoopPlan)
  | reverseBaseline (c : Cycles)
  | tickPeriod (us : UInt64)
  | marker (m : String)
  | pinned (on : Bool)
  | unfiltered (on : Bool)
deriving Repr

/-- A plan with one field changed, whatever the value. -/
def RunPlan.store (p : RunPlan) : RunSetting → RunPlan
  | .cores n => { p with cores := n }
  | .primaries n => { p with primaries := n }
  | .signalOffset n => { p with signalOffset := n }
  | .workload w => { p with workload := w }
  | .background b => { p with background := b }
  | .payload k => { p with payload := k }
  | .loop l => { p with loop := l }
  | .reverseBaseline c => { p with reverseBaseline := c }
  | .tickPeriod us => { p with tickPeriod := us }
  | .marker m => { p with marker := some m }
  | .pinned on => { p with pinned := on }
  | .unfiltered on => { p with unfiltered := on }

/-- Refuses a value that is out of its field's range. -/
def RunSetting.check : RunSetting → Except Violation Unit
  | .cores n => Violation.unless (0 < n) .noCores
  | .primaries n => Violation.unless (0 < n) .noPrimaries
  | .signalOffset n => Violation.unless (0 < n) .noOffset
  | _ => .ok ()

/-- A plan with one field changed, if the value is in range. -/
def RunPlan.set (p : RunPlan) (s : RunSetting) : Except Violation RunPlan := do
  s.check
  pure (p.store s)

/-- A plan with fields changed one after the other, up to the first value out of range. -/
def RunPlan.setAll (p : RunPlan) (settings : List RunSetting) : Except Violation RunPlan :=
  settings.foldlM RunPlan.set p

end LatencyGauge
