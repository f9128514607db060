/-
The lock-step of a primary core with the core that flushes. The primary numbers its requests and
waits until its number is acknowledged; the flusher flushes once for every number it has not
acknowledged; others may follow the acknowledged numbers. Every machine reads or writes one word a
step.
-/
import LatencyGauge.Iterate

namespace LatencyGauge

/-! ## Counters -/

/-- The number of the last request and the last number acknowledged. -/
structure Handshake where
  requested : UInt64
  completed : UInt64
deriving DecidableEq, Repr

/-- Nothing requested. -/
def Handshake.fresh : Handshake := ⟨0, 0⟩

/-! ## The primary -/

/-- Where a request stands. -/
inductive Request where
  | starting
  | announcing (number : UInt64)
  | waiting (number : UInt64)
  | ended (number : UInt64)
deriving DecidableEq, Repr

/-- One step of a request. -/
def Request.step (h : Handshake) : Request → Request × Handshake
  | .starting => (.announcing (h.requested + 1), h)
  | .announcing number => (.waiting number, { h with requested := number })
  | .waiting number => (if h.completed < number then .waiting number else .ended number, h)
  | .ended number => (.ended number, h)

/-- The number of a request that was acknowledged. -/
def Request.number? : Request → Option UInt64
  | .ended number => some number
  | _ => none

/-! ## The flusher -/

/-- What a flusher does next. -/
inductive Flushing where
  | looking
  | comparing (pending : UInt64)
  | flushing (pending : UInt64)
  | acknowledging (pending : UInt64)
  | asking
  | ended
deriving DecidableEq, Repr

/-- A flusher and the number of its flushes. -/
structure Flusher where
  next : Flushing
  served : Nat
deriving DecidableEq, Repr

/-- A flusher that has flushed nothing. -/
def Flusher.fresh : Flusher := ⟨.looking, 0⟩

/-- Whether the next step is a flush. -/
def Flusher.flushes (f : Flusher) : Bool :=
  match f.next with
  | .flushing _ => true
  | _ => false

/-- One step of a flusher; the completion flag is asked only when nothing is pending. -/
def Flusher.step (done : Bool) (h : Handshake) (f : Flusher) : Flusher × Handshake :=
  match f.next with
  | .looking => ({ f with next := .comparing h.requested }, h)
  | .comparing pending =>
    ({ f with next := if h.completed < pending then .flushing pending else .asking }, h)
  | .flushing pending => ({ f with next := .acknowledging pending }, h)
  | .acknowledging pending => (⟨.looking, f.served + 1⟩, { h with completed := pending })
  | .asking => ({ f with next := if done then .ended else .looking }, h)
  | .ended => (f, h)

/-! ## Followers -/

/-- Where somebody stands who waits for a number greater than one already seen. -/
inductive Follower where
  | looking (seen : UInt64)
  | asking (seen : UInt64)
  | ended (number : Option UInt64)
deriving DecidableEq, Repr

/-- One step of a follower. -/
def Follower.step (done : Bool) (h : Handshake) : Follower → Follower
  | .looking seen => if seen < h.completed then .ended (some h.completed) else .asking seen
  | .asking seen => if done then .ended none else .looking seen
  | .ended number => .ended number

/-- Whether a follower waits no longer. -/
def Follower.over : Follower → Bool
  | .ended _ => true
  | _ => false

/-! ## A primary and a flusher in turn -/

/-- A handshake with its flusher and the numbers acknowledged at the start of each flush, the
latest first. -/
structure LockStep where
  handshake : Handshake
  flusher : Flusher
  seenAtFlush : List UInt64
deriving DecidableEq, Repr

/-- Nothing requested and nothing flushed. -/
def LockStep.fresh : LockStep := ⟨.fresh, .fresh, []⟩

/-- One step of the flusher. -/
def LockStep.flush (done : Bool) (s : LockStep) : LockStep :=
  let (flusher, handshake) := s.flusher.step done s.handshake
  { handshake := handshake
    flusher := flusher
    seenAtFlush := if s.flusher.flushes then s.handshake.completed :: s.seenAtFlush
      else s.seenAtFlush }

/-- A request takes fewer steps than this when the flusher steps in turn with it. -/
def lockSteps : Nat := 64

/-- One step of a request, and one of the flusher, while the run goes on. -/
def LockStep.both (s : Request × LockStep) : Request × LockStep :=
  let (request, handshake) := s.1.step s.2.handshake
  (request, LockStep.flush false { s.2 with handshake := handshake })

/-- Makes a request and lets the flusher step in turn with it. -/
def LockStep.request (s : LockStep) : Option (UInt64 × LockStep) :=
  match iterate (fun r => r.1.number?.isSome) LockStep.both lockSteps (.starting, s) with
  | some (.ended number, s) => some (number, s)
  | _ => none

/-- Lets the flusher serve until it ends, with the run complete. -/
def LockStep.finish (s : LockStep) : Option LockStep :=
  iterate (fun s => s.flusher.next == .ended) (LockStep.flush true) lockSteps s

/-- Lets a flusher start over. -/
def LockStep.restart (s : LockStep) : LockStep := { s with flusher := .fresh }

/-- Follows from a number already seen; nothing if the wait has no end. -/
def LockStep.follow (done : Bool) (seen : UInt64) (s : LockStep) : Option (Option UInt64) :=
  match iterate Follower.over (Follower.step done s.handshake) lockSteps (.looking seen) with
  | some (.ended number) => some number
  | _ => none

end LatencyGauge
