/-
What can be wrong with a plan, and how it is said. Building a plan and checking one name the same
violations.
-/

namespace LatencyGauge

/-! ## Violations -/

/-- A rule that a plan breaks. -/
inductive Violation where
  | noSamples
  | noAttempts
  | noCeiling
  | badTolerance
  | noCores
  | noPrimaries
  | primariesOutOfRange
  | noOffset
  | offsetBelowPrimaries
  | receiverMissing
  | responsePrimaries
  | flusherMissing
  | responseTickless
  | interferenceTickless
deriving DecidableEq, Repr

/-- A violation in words. -/
def Violation.message : Violation → String
  | .noSamples => "samples must be > 0"
  | .noAttempts => "max_attempts must be > 0"
  | .noCeiling => "outlier_ceiling must be > 0"
  | .badTolerance => "drift_tolerance must be finite and >= 0"
  | .noCores => "cores must be > 0"
  | .noPrimaries => "primaries must be > 0"
  | .primariesOutOfRange => "primaries must be in 1..=cores"
  | .noOffset => "signal_offset must be > 0"
  | .offsetBelowPrimaries => "signal_offset must be >= primaries"
  | .receiverMissing => "every primary needs a receiver core"
  | .responsePrimaries => "the response workload drives exactly one primary"
  | .flusherMissing => "the response workload needs a flusher core"
  | .responseTickless => "the response workload needs a tick source"
  | .interferenceTickless => "interference rounds need a tick source"

/-- Requires a condition. -/
def Violation.unless (ok : Bool) (v : Violation) : Except Violation Unit :=
  if ok then .ok () else .error v

@[simp] theorem Violation.unless_eq_ok (ok : Bool) (v : Violation) :
    Violation.unless ok v = .ok () ↔ ok = true := by
  unfold Violation.unless; split <;> simp_all

end LatencyGauge
