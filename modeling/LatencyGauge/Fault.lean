/-
What keeps a result from being produced, and how it is said. Samples that are thrown away are no
faults: they are counted in the report.
-/
import LatencyGauge.Plan.Violation

namespace LatencyGauge

/-! ## Files -/

/-- What keeps a file from being read or written. -/
inductive FileFault where
  | missing
  | denied
  | notDirectory
  | directory
  | nameTooLong
  | full
  | noDevice
  | notText
  | other (text : String)
deriving DecidableEq, Repr

/-- A file fault in words. -/
def FileFault.message : FileFault → String
  | .missing => "No such file or directory (os error 2)"
  | .denied => "Permission denied (os error 13)"
  | .notDirectory => "Not a directory (os error 20)"
  | .directory => "Is a directory (os error 21)"
  | .nameTooLong => "File name too long (os error 36)"
  | .full => "No space left on device (os error 28)"
  | .noDevice => "No such device or address (os error 6)"
  | .notText => "stream did not contain valid UTF-8"
  | .other text => text

/-! ## Faults -/

/-- A condition that keeps a result from being produced. -/
inductive Fault where
  | noAcceptedSamples
  | invalidPlan (v : Violation)
  | zeroPayload
  | slotOutOfRange (index length : Nat)
  | coreLost (core : Nat)
  | file (f : FileFault)
  | json
deriving DecidableEq, Repr

/-- A fault in words. -/
def Fault.message : Fault → String
  | .noAcceptedSamples => "no accepted samples (every attempt was rejected or failed)"
  | .invalidPlan v => "invalid configuration: " ++ v.message
  | .zeroPayload => "signal payload must be non-zero"
  | .slotOutOfRange index length => s!"slot {index} out of range (channel has {length} slots)"
  | .coreLost core => s!"thread for core {core} panicked"
  | .file f => "i/o error: " ++ f.message
  | .json => "json error: the text does not fit"

end LatencyGauge
