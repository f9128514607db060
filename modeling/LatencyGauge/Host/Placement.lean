/-
Where the threads of a run go. Cores map onto the allowed processors in their order and start over
when there are more cores than processors. Pinning replaces a thread's mask by a single processor
and remembers the mask it had.
-/

namespace LatencyGauge

/-! ## Processors for cores -/

/-- The processor of a core; without a list of allowed ones it has the core's number. -/
def cpuFor (cpus : List Nat) (core : Nat) : Nat :=
  match cpus[core % cpus.length]? with
  | some cpu => cpu
  | none => core

/-! ## Pinning -/

/-- Masks have room for this many processors. -/
def maskSize : Nat := 1024

/-- Why a thread cannot be pinned. -/
inductive PinFault where
  | beyondMask (cpu : Nat)
  | refused (cpu : Nat)
deriving DecidableEq, Repr

/-- A pinning fault in words. -/
def PinFault.message : PinFault → String
  | .beyondMask cpu => s!"CPU {cpu} exceeds CPU_SETSIZE"
  | .refused cpu => s!"sched_setaffinity to CPU {cpu} failed: Invalid argument (os error 22)"

/-- A thread that is pinned, and the mask it had before. -/
structure Pin where
  cpu : Nat
  previous : List Nat
deriving DecidableEq, Repr

/-- Pins a thread to a processor, if the machine lets it: the pin, and the thread's new mask. -/
def pinTo (available mask : List Nat) (cpu : Nat) : Except PinFault (Pin × List Nat) :=
  if maskSize ≤ cpu then .error (.beyondMask cpu)
  else if available.contains cpu then .ok (⟨cpu, mask⟩, [cpu])
  else .error (.refused cpu)

/-- The mask of a thread whose pin is given up. -/
def Pin.release (p : Pin) : List Nat := p.previous

end LatencyGauge
