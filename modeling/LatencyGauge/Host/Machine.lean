/-
A run on several cores as one machine. Every core is at a position in its role's work; an event
lets one core or the timer make a step, or loses a core that has passed the start barrier. Any
order of events is a possible run, so what holds after every list of events holds however the
cores interleave.
-/
import LatencyGauge.Host.Primary
import LatencyGauge.Sync.Interference

namespace LatencyGauge

/-! ## Rounds of background load -/

/-- A round of background load under way: its units that are done, the last number that was
followed, and the wait for the next. -/
structure Round where
  units : Nat
  seen : UInt64
  follower : Follower
deriving DecidableEq, Repr

/-- A round has this many units. -/
def unitsPerRound : Nat := 1024

/-- A round that begins, after a number that was followed. -/
def Round.start (seen : UInt64) : Round := ⟨0, seen, .looking seen⟩

/-- One step of a round in lock-step: every unit waits for the next flush. A round that completion
cuts short ends well too. -/
def Round.step (done : Bool) (h : Handshake) (x : Round) : Option Code × Round :=
  match x.follower.step done h with
  | .ended (some number) =>
    if unitsPerRound ≤ x.units + 1 then (some 0, .start number)
    else (none, ⟨x.units + 1, number, .looking number⟩)
  | .ended none => (some 0, .start x.seen)
  | follower => (none, { x with follower := follower })

/-- The background load of a plan: its ticks are the timer's, and waits are single steps. Only the
response workload sets its pace. -/
def RunPlan.interferer (p : RunPlan) : Interferer (Round × Shared) where
  observe w := (w.2.ticks, w)
  done w := (w.2.done.isSet, w)
  wait _ w := w
  round w :=
    if p.workload = .response then
      let (code, x) := w.1.step w.2.done.isSet w.2.handshake
      (code, (x, w.2))
    else (some 0, w)
  quiescence := if p.loop.quiescence = 0 then quietCycles else p.loop.quiescence

/-! ## Positions -/

/-- Where a core is in its work. -/
inductive Position where
  | binding (sender : Nat)
  | marking (l : Link)
  | entering (g : Gate)
  | measuring (x : Primary)
  | answering (l : Link) (r : Receiver)
  | flushing (f : Flusher)
  | noting
  | interfering (l : Load) (x : Round)
  | idling
  | exited (result : Except Fault Outcome)
  | lost

/-- Where a role begins; a receiver binds before the start barrier. -/
def Role.opening : Role → Position
  | .receiver sender => .binding sender.toNat
  | _ => .entering .outside

/-- Where a role goes on behind the start barrier. -/
def Role.work (p : RunPlan) : Role → Position
  | .primary => .measuring (.start p)
  | .receiver sender => .answering (p.link sender.toNat) .fresh
  | .flusher => .flushing .fresh
  | .interferer => .noting
  | .idle => .idling

/-- What a flusher sends to the sink. -/
def RunPlan.flushLine (p : RunPlan) : String := p.marker.getD "FLUSH!!"

/-- One step of a core. -/
def Position.step (p : RunPlan) (core : Nat) (r : Reading) (s : Shared) :
    Position → Position × Shared
  | .binding sender =>
    match s.boxes.claim sender p.signalOffset p.payload with
    | .error f => (.exited (.error f), s)
    | .ok (l, boxes) => (.marking l, { s with boxes := boxes })
  | .marking l =>
    match s.boxes.markReady l.receiver with
    | .error f => (.exited (.error f), s)
    | .ok boxes => (.entering .outside, { s with boxes := boxes })
  | .entering .inside => ((Role.assign p core).work p, s)
  | .entering g =>
    let (g, barrier) := g.step p.cores s.barrier
    (.entering g, { s with barrier := barrier })
  | .measuring x =>
    if x.duty = .ended then (.exited (x.result p core), s)
    else
      let (x, s) := x.step p core r s
      (.measuring x, s)
  | .answering l x =>
    if x.next = .ended then (.exited (.ok (.served (UInt64.ofNat x.served))), s)
    else
      let (x, boxes) := x.step l s.done.isSet r.cycles s.boxes
      (.answering l x, { s with boxes := boxes })
  | .flushing f =>
    if f.next = .ended then (.exited (.ok (.flushed (UInt64.ofNat f.served))), s)
    else
      let s := if f.flushes then s.emit p.flushLine else s
      let (f, h) := f.step s.done.isSet s.handshake
      (.flushing f, { s with handshake := h })
  | .noting => (.interfering .fresh (.start s.handshake.completed), s)
  | .interfering l x =>
    if l.next = .ended then
      (.exited (.ok (.interfered ⟨UInt64.ofNat l.rounds, UInt64.ofNat l.failures⟩)), s)
    else
      let (l, x, s) := p.interferer.step (l, x, s)
      (.interfering l x, s)
  | .idling => (if s.done.isSet then .exited (.ok .idle) else .idling, s)
  | .exited result => (.exited result, s)
  | .lost => (.lost, s)

/-- How long the next step of a core waits. -/
def Position.delay (p : RunPlan) : Position → Cycles
  | .measuring x => x.delay p
  | .interfering l _ => if l.next = .pausing then p.interferer.quiescence else 0
  | _ => 0

/-- Whether a core is past the start barrier and has not come to its end. -/
def Position.atWork : Position → Bool
  | .measuring _ | .answering _ _ | .flushing _ | .noting | .interfering _ _ | .idling => true
  | _ => false

/-- Whether a core has come to its end, in one way or another. -/
def Position.over : Position → Bool
  | .exited _ | .lost => true
  | _ => false

/-- What a core produced, once it has come to its end. -/
def Position.result? (core : Nat) : Position → Option (Except Fault Outcome)
  | .exited result => some result
  | .lost => some (.error (.coreLost core))
  | _ => none

/-! ## The machine -/

/-- A run under way. -/
structure Machine where
  plan : RunPlan
  shared : Shared
  timer : Timer
  cores : Array Position

/-- A run before its first step. -/
def Machine.start (p : RunPlan) : Machine :=
  ⟨p, .start p, .start p, Array.ofFn fun i : Fin p.cores.toNat => (Role.assign p i).opening⟩

/-- Something that happens in a run: a step of a core or of the timer, or the loss of a core. -/
inductive Event where
  | core (i : Nat) (r : Reading)
  | timer
  | loss (i : Nat)
deriving DecidableEq, Repr

/-- A step of a core. -/
def Machine.stepCore (i : Nat) (r : Reading) (m : Machine) : Machine :=
  match m.cores[i]? with
  | none => m
  | some x =>
    let (x, s) := x.step m.plan i r m.shared
    { m with shared := s, cores := m.cores.setIfInBounds i x }

/-- A step of the timer. -/
def Machine.stepTimer (m : Machine) : Machine :=
  let (t, s) := m.timer.step m.shared
  { m with timer := t, shared := s }

/-- Loses a core that is at work. -/
def Machine.lose (i : Nat) (m : Machine) : Machine :=
  match m.cores[i]? with
  | none => m
  | some x => if x.atWork then { m with cores := m.cores.setIfInBounds i .lost } else m

/-- What an event makes of a run. -/
def Machine.step (m : Machine) : Event → Machine
  | .core i r => m.stepCore i r
  | .timer => m.stepTimer
  | .loss i => m.lose i

/-- What events in a row make of a run. -/
def Machine.run (m : Machine) (events : List Event) : Machine := events.foldl Machine.step m

/-- Whether all cores have come to their ends. -/
def Machine.over (m : Machine) : Bool := m.cores.all Position.over

/-- The results of the cores in their order, or the fault of the first core that has one. -/
def Machine.outcomes (m : Machine) : Except Fault (List Outcome) :=
  (m.cores.toList.zipIdx.filterMap fun (x, i) => x.result? i).mapM id

end LatencyGauge
