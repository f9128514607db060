/-
Pairs of a sender and a receiver on one set of mailboxes, in any interleaving of their steps. The
sender of a pair connects and then measures round trips over and over; its receiver binds and then
serves; and the completion flag is set after all senders have finished. What each does to the
request, to its answer and to the window is noted in the order in which it is done.
-/
import Mathlib.Algebra.Group.Nat.Defs
import Mathlib.Logic.Function.Basic
import LatencyGauge.Sync.Completion
import LatencyGauge.Sync.Exchange

namespace LatencyGauge

/-! ## Entries of a log -/

/-- What is noted of a pair: the sender empties its mailbox, opens its window, posts a request,
receives an answer and closes its window; the receiver takes a request, composes its answer and
posts it. Where a clock may be read, the reading is noted. -/
inductive Entry where
  | prepared
  | opened (reading : Cycles)
  | requested (word : UInt64)
  | taken (word : UInt64)
  | composed (reading : Cycles)
  | answered (word : UInt64)
  | received (word : UInt64)
  | closed (w : Window) (reading : Cycles)
deriving DecidableEq, Repr

def Entry.reading? : Entry → Option Cycles
  | .opened reading | .composed reading | .closed _ reading => some reading
  | _ => none

def Entry.opens : Entry → Bool
  | .opened _ => true
  | _ => false

def Entry.requests : Entry → Bool
  | .requested _ => true
  | _ => false

def Entry.answers : Entry → Bool
  | .answered _ => true
  | _ => false

/-- What is noted of a step of a measurement. -/
def Sender.entry? (reading : Cycles) : Sender → Sender → Option Entry
  | .starting, _ => some (.opened reading)
  | .posting start, _ => some (.requested (postable start))
  | .polling _, .ending _ answer => some (.received answer)
  | .ending _ _, .ended w => some (.closed w reading)
  | _, _ => none

/-- What is noted of a step of a receiver that finds a word in its mailbox. -/
def Receiving.entry? (word : UInt64) (reading : Cycles) (before after : Receiving) :
    Option Entry :=
  match before with
  | .taking => if after = .answering then some (.taken word) else none
  | .answering => some (.composed reading)
  | .posting answer => some (.answered answer)
  | .asking | .ended => none

/-! ## Pairs -/

/-- Where a core stands that connects to its receiver and then measures over and over. -/
inductive Asker where
  | outside
  | connecting (l : Link)
  | resting (l : Link)
  | measuring (l : Link) (s : Sender)
  | finished
  | refused (f : Fault)
deriving DecidableEq, Repr

/-- Where a core stands that binds itself to its sender and then serves. -/
inductive Answerer where
  | outside
  | marking (l : Link)
  | serving (l : Link) (r : Receiver)
  | refused (f : Fault)
deriving DecidableEq, Repr

/-- One step of a sender: where it stands then, the mailboxes, and what is noted. -/
def Asker.step (core : Nat) (offset : UInt64) (payload : Payload) (reading : Cycles)
    (m : Mailboxes) : Asker → Asker × Mailboxes × List Entry
  | .outside =>
    match m.link core offset payload with
    | .ok l => (.connecting l, m, [])
    | .error f => (.refused f, m, [])
  | .connecting l => (if m.flag l.receiver then .resting l else .connecting l, m, [])
  | .resting l => (.measuring l .starting, m.write l.sender 0, [.prepared])
  | .measuring l s =>
    let (s', m) := s.step l reading m
    (if s'.window?.isSome then .resting l else .measuring l s', m, (s.entry? reading s').toList)
  | .finished => (.finished, m, [])
  | .refused f => (.refused f, m, [])

/-- A sender finishes between two measurements. -/
def Asker.finish : Asker → Asker
  | .resting _ => .finished
  | a => a

/-- One step of a receiver: where it stands then, the mailboxes, and what is noted. -/
def Answerer.step (core : Nat) (offset : UInt64) (payload : Payload) (done : Bool)
    (reading : Cycles) (m : Mailboxes) : Answerer → Answerer × Mailboxes × List Entry
  | .outside =>
    match m.claim core offset payload with
    | .ok (l, m) => (.marking l, m, [])
    | .error f => (.refused f, m, [])
  | .marking l =>
    match m.markReady l.receiver with
    | .ok m => (.serving l .fresh, m, [])
    | .error f => (.refused f, m, [])
  | .serving l r =>
    let (r', m') := r.step l done reading m
    (.serving l r', m', (r.next.entry? (m.peek l.receiver) reading r'.next).toList)
  | .refused f => (.refused f, m, [])

/-- A sender, its receiver, and what is noted of them, in order. -/
structure Couple where
  asker : Asker
  answerer : Answerer
  log : List Entry
deriving DecidableEq, Repr

def Couple.fresh : Couple := ⟨.outside, .outside, []⟩

/-- The measurements begun. -/
def Couple.measures (p : Couple) : Nat := p.log.countP Entry.opens

def Couple.requests (p : Couple) : Nat := p.log.countP Entry.requests

def Couple.answers (p : Couple) : Nat := p.log.countP Entry.answers

/-! ## Traffic -/

/-- The mailboxes, the completion flag and the pairs. -/
structure Traffic (pairs : Nat) where
  boxes : Mailboxes
  done : Completion
  couple : Fin pairs → Couple

variable {pairs : Nat}

/-- Nothing begun yet, on so many mailboxes and flags. -/
def Traffic.fresh (pairs : Nat) (slots cores : UInt64) : Traffic pairs :=
  ⟨.create slots.toNat cores.toNat, .clear, fun _ => .fresh⟩

/-- A step of somebody, at a clock reading where the clock may be read. -/
inductive Traffic.Act (pairs : Nat) where
  | sender (c : Fin pairs) (reading : Cycles)
  | receiver (c : Fin pairs) (reading : Cycles)
  | finish (c : Fin pairs)
  | complete
deriving DecidableEq, Repr

def Traffic.Act.reading? : Act pairs → Option Cycles
  | .sender _ reading | .receiver _ reading => some reading
  | _ => none

/-- Whether a step is one of a given receiver. -/
def Traffic.Act.serves (c : Fin pairs) : Act pairs → Bool
  | .receiver c' _ => c' = c
  | _ => false

/-- Traffic with other mailboxes and another pair in the place of one. -/
def Traffic.put (s : Traffic pairs) (boxes : Mailboxes) (c : Fin pairs) (p : Couple) :
    Traffic pairs :=
  { s with boxes := boxes, couple := Function.update s.couple c p }

/-- The link of a pair. The receiver of pair `c` is core `c + offset`. -/
def coupleLink (offset : UInt64) (payload : Fin pairs → Payload) (c : Fin pairs) : Link :=
  ⟨c, c + offset.toNat, payload c⟩

/-- One step of somebody. The flag is set after all senders have finished. -/
def Traffic.step (offset : UInt64) (payload : Fin pairs → Payload) (s : Traffic pairs) :
    Act pairs → Traffic pairs
  | .sender c reading =>
    let (asker, boxes, entries) := (s.couple c).asker.step c offset (payload c) reading s.boxes
    s.put boxes c ⟨asker, (s.couple c).answerer, (s.couple c).log ++ entries⟩
  | .receiver c reading =>
    let (answerer, boxes, entries) :=
      (s.couple c).answerer.step c offset (payload c) s.done.isSet reading s.boxes
    s.put boxes c ⟨(s.couple c).asker, answerer, (s.couple c).log ++ entries⟩
  | .finish c => s.put s.boxes c { s.couple c with asker := (s.couple c).asker.finish }
  | .complete =>
    if ∀ c, (s.couple c).asker = .finished then { s with done := s.done.set.2 } else s

/-- Steps in any order. -/
def Traffic.run (offset : UInt64) (payload : Fin pairs → Payload) (s : Traffic pairs)
    (acts : List (Act pairs)) : Traffic pairs :=
  acts.foldl (Traffic.step offset payload) s

/-! ## The mailboxes of a pair -/

/-- What a pair finds in its mailboxes, and the flag of its receiver. -/
structure Desk where
  reply : UInt64
  request : UInt64
  ready : Bool
deriving DecidableEq, Repr

def Mailboxes.desk (m : Mailboxes) (l : Link) : Desk :=
  ⟨m.peek l.sender, m.peek l.receiver, m.flag l.receiver⟩

theorem Mailboxes.peek_create (slots cores i : Nat) :
    (Mailboxes.create slots cores).peek i = 0 := by
  simp only [Mailboxes.peek, Mailboxes.create, Array.getD_eq_getD_getElem?,
    Array.getElem?_replicate]
  split <;> rfl

theorem Mailboxes.flag_create (slots cores i : Nat) :
    (Mailboxes.create slots cores).flag i = false := by
  simp only [Mailboxes.flag, Mailboxes.create, Array.getD_eq_getD_getElem?,
    Array.getElem?_replicate]
  split <;> rfl

theorem Mailboxes.peek_write_self (m : Mailboxes) {i : Nat} (v : UInt64) (h : i < m.slots.size) :
    (m.write i v).peek i = v := by
  simp [Mailboxes.peek, Mailboxes.write, h]

theorem Mailboxes.peek_write_of_ne (m : Mailboxes) {i j : Nat} (v : UInt64) (h : i ≠ j) :
    (m.write i v).peek j = m.peek j := by
  simp [Mailboxes.peek, Mailboxes.write, h]

theorem Mailboxes.flag_raise_self (m : Mailboxes) {i : Nat} (h : i < m.ready.size) :
    (m.raise i).flag i = true := by
  simp [Mailboxes.flag, Mailboxes.raise, h]

theorem Mailboxes.flag_raise_of_ne (m : Mailboxes) {i j : Nat} (h : i ≠ j) :
    (m.raise i).flag j = m.flag j := by
  simp [Mailboxes.flag, Mailboxes.raise, h]

/-- The mailboxes and the flag of a link exist, and the mailboxes are two. -/
structure Mailboxes.Hosts (m : Mailboxes) (l : Link) : Prop where
  sender : l.sender < m.slots.size
  receiver : l.receiver < m.slots.size
  core : l.receiver < m.ready.size
  apart : l.sender ≠ l.receiver

/-- What a step of a pair may do to the mailboxes: nothing, put a word into one of its two, or set
the flag of its receiver. -/
inductive Mailboxes.Touched (l : Link) (m : Mailboxes) : Mailboxes → Prop
  | nothing : Touched l m m
  | reply (v : UInt64) : Touched l m (m.write l.sender v)
  | request (v : UInt64) : Touched l m (m.write l.receiver v)
  | ready : Touched l m (m.raise l.receiver)

section Desk

variable {m m' : Mailboxes} {l l' : Link}

theorem Mailboxes.Touched.size (h : Touched l m m') :
    m'.slots.size = m.slots.size ∧ m'.ready.size = m.ready.size := by
  cases h <;> simp [Mailboxes.write, Mailboxes.raise]

/-- Another pair finds its desk as it was. -/
theorem Mailboxes.Touched.desk_other (h : Touched l m m') (hss : l.sender ≠ l'.sender)
    (hsr : l.sender ≠ l'.receiver) (hrs : l.receiver ≠ l'.sender)
    (hrr : l.receiver ≠ l'.receiver) : m'.desk l' = m.desk l' := by
  cases h with
  | nothing => rfl
  | reply v =>
    simp only [Mailboxes.desk, m.peek_write_of_ne v hss, m.peek_write_of_ne v hsr]
    rfl
  | request v =>
    simp only [Mailboxes.desk, m.peek_write_of_ne v hrs, m.peek_write_of_ne v hrr]
    rfl
  | ready =>
    simp only [Mailboxes.desk, m.flag_raise_of_ne hrr]
    rfl

variable {reply request : UInt64} {ready : Bool}

theorem Mailboxes.Hosts.desk_reply (h : m.Hosts l) (hdesk : m.desk l = ⟨reply, request, ready⟩)
    (v : UInt64) : (m.write l.sender v).desk l = ⟨v, request, ready⟩ := by
  cases hdesk
  simp only [Mailboxes.desk, m.peek_write_self v h.sender, m.peek_write_of_ne v h.apart]
  rfl

theorem Mailboxes.Hosts.desk_request (h : m.Hosts l) (hdesk : m.desk l = ⟨reply, request, ready⟩)
    (v : UInt64) : (m.write l.receiver v).desk l = ⟨reply, v, ready⟩ := by
  cases hdesk
  simp only [Mailboxes.desk, m.peek_write_self v h.receiver, m.peek_write_of_ne v h.apart.symm]
  rfl

theorem Mailboxes.Hosts.desk_ready (h : m.Hosts l) (hdesk : m.desk l = ⟨reply, request, ready⟩) :
    (m.raise l.receiver).desk l = ⟨reply, request, true⟩ := by
  cases hdesk
  simp only [Mailboxes.desk, m.flag_raise_self h.core]
  rfl

/-! ## Connecting and binding -/

/-- A sum of words that does not wrap around. -/
theorem toNat_ofNat_add {n : Nat} {w : UInt64} (h : n + w.toNat < 2 ^ 64) :
    (UInt64.ofNat n + w).toNat = n + w.toNat := by
  rw [UInt64.toNat_add, UInt64.toNat_ofNat_of_lt' (show n < 2 ^ 64 by omega), Nat.mod_eq_of_lt h]

theorem Mailboxes.slot_eq {i : Nat} (h : i < m.slots.size) : m.slot i = .ok i := if_pos h

theorem Mailboxes.core_eq {core : Nat} (h : core < m.ready.size) : m.core core = .ok core :=
  if_pos h

theorem Mailboxes.Hosts.link_eq (h : m.Hosts l) {offset : UInt64}
    (hl : (UInt64.ofNat l.sender + offset).toNat = l.receiver) :
    m.link l.sender offset l.payload = .ok l := by
  rw [Mailboxes.link, Mailboxes.slotFor, hl, Mailboxes.slot_eq h.receiver]
  change (m.core l.receiver >>= _) = _
  rw [Mailboxes.core_eq h.core]
  change (m.slot l.sender >>= _) = _
  rw [Mailboxes.slot_eq h.sender]
  rfl

theorem Mailboxes.Hosts.claim_eq (h : m.Hosts l) {offset : UInt64}
    (hl : (UInt64.ofNat l.sender + offset).toNat = l.receiver) :
    m.claim l.sender offset l.payload = .ok (l, m.write l.receiver 0) := by
  rw [Mailboxes.claim, Mailboxes.slotFor, hl, Mailboxes.slot_eq h.receiver]
  change (m.slot l.sender >>= _) = _
  rw [Mailboxes.slot_eq h.sender]
  rfl

theorem Mailboxes.Hosts.markReady_eq (h : m.Hosts l) :
    m.markReady l.receiver = .ok (m.raise l.receiver) := by
  rw [Mailboxes.markReady, Mailboxes.core_eq h.core]
  rfl

end Desk

end LatencyGauge
