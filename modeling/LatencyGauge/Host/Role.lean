/-
The roles of cores. A core's role follows from its number and the plan alone: the first cores
measure, the cores at the signal offset answer them, the first core left over flushes for the
response workload, and the rest makes the background.
-/
import LatencyGauge.Plan.Run

namespace LatencyGauge

/-! ## Roles -/

/-- What a core does during a run. -/
inductive Role where
  | primary
  | receiver (sender : UInt64)
  | flusher
  | interferer
  | idle
deriving DecidableEq, Repr

/-- The primary that a core answers, if it is the receiver of one. -/
def RunPlan.sender? (p : RunPlan) (core : Nat) : Option Nat :=
  if p.needsReceivers && p.signalOffset.toNat <= core &&
      core - p.signalOffset.toNat < p.primaries.toNat then
    some (core - p.signalOffset.toNat)
  else none

/-- The first core that answers no primary, among `left` cores from `core` on. -/
def RunPlan.firstFreeFrom (p : RunPlan) (core : Nat) : Nat → Option Nat
  | 0 => none
  | left + 1 => if (p.sender? core).isNone then some core else p.firstFreeFrom (core + 1) left

/-- The first core that neither measures nor answers. -/
def RunPlan.firstFree? (p : RunPlan) : Option Nat :=
  p.firstFreeFrom p.primaries.toNat (p.cores.toNat - p.primaries.toNat)

/-- The role of a core that takes no part in the measurement. -/
def Background.role : Background → Role
  | .interfere => .interferer
  | .idle => .idle

/-- The role of a core. -/
def Role.assign (p : RunPlan) (core : Nat) : Role :=
  if core < p.primaries.toNat then .primary
  else
    match p.sender? core with
    | some sender => .receiver (UInt64.ofNat sender)
    | none =>
      if p.workload = .response && p.firstFree? = some core then .flusher else p.background.role

end LatencyGauge
