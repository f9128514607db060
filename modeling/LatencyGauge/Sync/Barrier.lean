/-
A start barrier over one counter that is never reset. Every arrival takes the next number and is
released when the counter reaches the end of its round, the least multiple of the number of
participants that is not below it; so one barrier serves any number of rounds.
-/

namespace LatencyGauge

/-! ## Barriers -/

/-- The number of arrivals so far. -/
structure Barrier where
  arrivals : UInt64
deriving DecidableEq, Repr

/-- Nobody has arrived. -/
def Barrier.fresh : Barrier := ⟨0⟩

/-- What is said when nobody is to take part. -/
def noParticipants : String := "participants must be > 0"

/-- The count that ends the round of an arrival after `before` others. -/
def releaseCount (before participants : UInt64) : UInt64 :=
  (before / participants + 1) * participants

/-- Arrives: the count to wait for, and the barrier with one arrival more. -/
def Barrier.arrive (b : Barrier) (participants : UInt64) : UInt64 × Barrier :=
  (releaseCount b.arrivals participants, ⟨b.arrivals + 1⟩)

/-- Arrives several times in a row: the counts to wait for, in order. -/
def Barrier.arriveAll (b : Barrier) : List UInt64 → List UInt64 × Barrier
  | [] => ([], b)
  | participants :: rest =>
    let (release, b) := b.arrive participants
    let (releases, b) := b.arriveAll rest
    (release :: releases, b)

/-- Whether the count that somebody waits for is reached. -/
def Barrier.reached (b : Barrier) (release : UInt64) : Bool := release <= b.arrivals

/-- The rounds that are over; with no participants every arrival is a round. -/
def Barrier.rounds (b : Barrier) (participants : UInt64) : UInt64 :=
  b.arrivals / (if participants = 0 then 1 else participants)

/-! ## Passing a barrier -/

/-- Where a core stands with respect to a barrier. -/
inductive Gate where
  | outside
  | waiting (release : UInt64)
  | inside
deriving DecidableEq, Repr

/-- One step through a barrier: the arrival, or a look at the counter. -/
def Gate.step (participants : UInt64) (b : Barrier) : Gate → Gate × Barrier
  | .outside => let (release, b) := b.arrive participants; (.waiting release, b)
  | .waiting release => (if b.reached release then .inside else .waiting release, b)
  | .inside => (.inside, b)

end LatencyGauge
