/-
Round trips between a sender and its receiver. The sender posts to the receiver's mailbox and
waits on its own; the receiver takes the request and answers with its clock reading or with a
sentinel. Both are machines that touch one mailbox, one flag or one clock a step. A window whose
answer is a clock reading ends at the earlier of that reading and the sender's own.
-/
import LatencyGauge.Clock.Playback
import LatencyGauge.Measure.Loop
import LatencyGauge.Plan.Run
import LatencyGauge.Sync.Mailboxes

namespace LatencyGauge

/-! ## Links -/

/-- The mailboxes of a sender and its receiver, and what answers mean. -/
structure Link where
  sender : Nat
  receiver : Nat
  payload : Payload
deriving DecidableEq, Repr

/-- A word that can be posted: zero becomes one. -/
def postable (v : UInt64) : UInt64 := if v = 0 then 1 else v

/-- The link of a sender, if both mailboxes and the receiver's flag exist. The flag is looked for
before the sender's own mailbox. -/
def Mailboxes.link (m : Mailboxes) (sender : Nat) (offset : UInt64) (payload : Payload) :
    Except Fault Link := do
  let receiver ← m.slotFor (.ofNat sender) offset
  let receiver ← m.core receiver
  let sender ← m.slot sender
  pure ⟨sender, receiver, payload⟩

/-- The first step of binding a receiver: its mailbox is emptied, if both mailboxes exist. -/
def Mailboxes.claim (m : Mailboxes) (sender : Nat) (offset : UInt64) (payload : Payload) :
    Except Fault (Link × Mailboxes) := do
  let receiver ← m.slotFor (.ofNat sender) offset
  let sender ← m.slot sender
  pure (⟨sender, receiver, payload⟩, m.write receiver 0)

/-- Binds a receiver: its mailbox is emptied and its flag set. Without a flag to set the mailbox is
empty all the same. -/
def Mailboxes.bind (m : Mailboxes) (sender : Nat) (offset : UInt64) (payload : Payload) :
    Except Fault Link × Mailboxes :=
  match m.claim sender offset payload with
  | .error f => (.error f, m)
  | .ok (l, m) =>
    match m.markReady l.receiver with
    | .error f => (.error f, m)
    | .ok m => (.ok l, m)

/-! ## The sender -/

/-- Where a sender's measurement stands. -/
inductive Sender where
  | starting
  | posting (start : Cycles)
  | polling (start : Cycles)
  | ending (start : Cycles) (answer : UInt64)
  | ended (w : Window)
deriving DecidableEq, Repr

/-- Whether the next step reads the sender's clock. -/
def Sender.reads : Sender → Bool
  | .starting | .ending _ _ => true
  | _ => false

/-- The end of a window with a given answer. -/
def Payload.stop (k : Payload) (answer : UInt64) (reading : Cycles) : Cycles :=
  match k with
  | .timestamp => min answer reading
  | .sentinel => reading

/-- One step of a sender's measurement. -/
def Sender.step (l : Link) (reading : Cycles) (m : Mailboxes) : Sender → Sender × Mailboxes
  | .starting => (.posting reading, m)
  | .posting start => (.polling start, m.write l.receiver (postable start))
  | .polling start =>
    let answer := m.peek l.sender
    (if answer = 0 then .polling start else .ending start answer, m)
  | .ending start answer => (.ended ⟨start, l.payload.stop answer reading, 0⟩, m)
  | .ended w => (.ended w, m)

/-- The window of a measurement that is over. -/
def Sender.window? : Sender → Option Window
  | .ended w => some w
  | _ => none

/-! ## The receiver -/

/-- What a receiver does next. -/
inductive Receiving where
  | taking
  | answering
  | posting (answer : UInt64)
  | asking
  | ended
deriving DecidableEq, Repr

/-- A receiver and the number of requests it has answered. -/
structure Receiver where
  next : Receiving
  served : Nat
deriving DecidableEq, Repr

/-- A receiver that has answered nothing. -/
def Receiver.fresh : Receiver := ⟨.taking, 0⟩

/-- Whether the next step reads the receiver's clock. -/
def Receiver.reads (k : Payload) (r : Receiver) : Bool :=
  r.next == .answering && k == .timestamp

/-- The answer at a clock reading. -/
def Payload.answer (k : Payload) (reading : Cycles) : UInt64 :=
  match k with
  | .timestamp => postable reading
  | .sentinel => 1

/-- One step of a receiver; the completion flag is asked only between requests. -/
def Receiver.step (l : Link) (done : Bool) (reading : Cycles) (m : Mailboxes) (r : Receiver) :
    Receiver × Mailboxes :=
  match r.next with
  | .taking =>
    if m.peek l.receiver = 0 then ({ r with next := .asking }, m)
    else ({ r with next := .answering }, m.write l.receiver 0)
  | .answering => ({ r with next := .posting (l.payload.answer reading) }, m)
  | .posting answer => (⟨.taking, r.served + 1⟩, m.write l.sender answer)
  | .asking => ({ r with next := if done then .ended else .taking }, m)
  | .ended => (r, m)

/-! ## Both on playback clocks -/

/-- A sender's and a receiver's mailboxes and clocks, and the receiver. -/
structure Exchange where
  boxes : Mailboxes
  senderClock : Playback
  receiverClock : Playback
  receiver : Receiver
deriving DecidableEq, Repr

/-- One step of the sender's measurement, on its clock. -/
def Exchange.send (l : Link) (s : Sender) (x : Exchange) : Sender × Exchange :=
  let (reading, clock) := if s.reads then x.senderClock.now else (0, x.senderClock)
  let (s, boxes) := s.step l reading x.boxes
  (s, { x with boxes := boxes, senderClock := clock })

/-- One step of the receiver, on its clock. -/
def Exchange.receive (l : Link) (done : Bool) (x : Exchange) : Exchange :=
  let (reading, clock) :=
    if x.receiver.reads l.payload then x.receiverClock.now else (0, x.receiverClock)
  let (receiver, boxes) := x.receiver.step l done reading x.boxes
  { x with boxes := boxes, receiverClock := clock, receiver := receiver }

/-- One step of each. -/
def Exchange.both (l : Link) (s : Sender × Exchange) : Sender × Exchange :=
  let (sender, x) := Exchange.send l s.1 s.2
  (sender, x.receive l false)

/-- A round trip takes fewer steps than this when both step in turn. -/
def roundTripSteps : Nat := 64

/-- The probe of a sender whose receiver steps in turn with it. -/
def Exchange.probe (l : Link) : Probe Exchange where
  prepare x := { x with boxes := x.boxes.write l.sender 0 }
  measure x :=
    match iterate (fun s => s.1.window?.isSome) (Exchange.both l) roundTripSteps (.starting, x) with
    | some (.ended w, x) => (w, x)
    | _ => (⟨0, 0, 0⟩, x)

/-- The rig of an exchange: the sender's clock, on which waiting is void, and a tick that never
moves. -/
def Exchange.rig : Rig Exchange where
  now x := let (c, clock) := x.senderClock.now; (c, { x with senderClock := clock })
  wait _ x := x
  observe x := (0, x)

/-- Measures without a receiver, for at most a few steps; nothing if the answer does not come. -/
def Exchange.measureAlone (l : Link) (x : Exchange) : Option (Window × Exchange) :=
  match iterate (fun s => s.1.window?.isSome) (fun s => Exchange.send l s.1 s.2) roundTripSteps
      (.starting, x) with
  | some (.ended w, x) => some (w, x)
  | _ => none

/-- Lets the receiver answer what there is to answer, with the run complete. -/
def Exchange.drain (l : Link) (x : Exchange) : Option Exchange :=
  iterate (fun x => x.receiver.next == .ended) (Exchange.receive l true) roundTripSteps x

end LatencyGauge
