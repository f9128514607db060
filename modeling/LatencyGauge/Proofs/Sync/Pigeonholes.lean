/-
What mailboxes and ready flags stand for: pigeonholes, each empty or with a letter in it, and a set
of cores that are ready. Calls in any number and order are answered as the pigeonholes answer them;
so a mailbox shows the last letter that was posted since it was emptied, a letter is taken once, and
a core that was announced stays ready. A call that fails changes nothing, and names the index that
is out of range with the length of what it does not fit into.
-/
import Mathlib.Data.Finset.Insert
import LatencyGauge.Proofs.Sync.Traffic

namespace LatencyGauge

variable {slots cores : Nat}

/-! ## Calls -/

/-- A word that can be posted. -/
abbrev Letter := { v : UInt64 // v ≠ 0 }

/-- A call on mailboxes and ready flags, whose indices are words. A word is posted after a look at
whether it is zero, a letter without. -/
inductive BoxCall where
  | slot (i : UInt64)
  | slotFor (core offset : UInt64)
  | markReady (core : UInt64)
  | isReady (core : UInt64)
  | reset (i : UInt64)
  | post (i : UInt64) (letter : Letter)
  | postWord (i : UInt64) (v : UInt64)
  | poll (i : UInt64)
  | take (i : UInt64)
deriving DecidableEq, Repr

/-- What a call that succeeds gives back. -/
inductive BoxReply where
  | done
  | index (i : Nat)
  | ready (r : Bool)
  | word (v : Option UInt64)
deriving DecidableEq, Repr

/-- What a call gives back, and the state after it. -/
abbrev Replied (S : Type) := Except Fault BoxReply × S

/-- The mailboxes after a change, which are the same ones if it fails. -/
def Mailboxes.changed (m : Mailboxes) : Except Fault Mailboxes → Replied Mailboxes
  | .ok m' => (.ok .done, m')
  | .error f => (.error f, m)

def Mailboxes.call (m : Mailboxes) : BoxCall → Replied Mailboxes
  | .slot i => ((m.slot i.toNat).map .index, m)
  | .slotFor core offset => ((m.slotFor core offset).map .index, m)
  | .markReady core => m.changed (m.markReady core.toNat)
  | .isReady core => ((m.isReady core.toNat).map .ready, m)
  | .reset i => m.changed (m.reset i.toNat)
  | .post i letter => m.changed (m.post i.toNat letter)
  | .postWord i v => m.changed (m.post i.toNat v)
  | .poll i => ((m.poll i.toNat).map .word, m)
  | .take i =>
    match m.take i.toNat with
    | .ok (v, m') => (.ok (.word v), m')
    | .error f => (.error f, m)

/-- Calls in a row: what they give back, and the state after them. -/
def callAll {S : Type} (call : S → BoxCall → Replied S) (s : S) :
    List BoxCall → List (Except Fault BoxReply) × S
  | [] => ([], s)
  | x :: calls =>
    let (reply, s) := call s x
    let (replies, s) := callAll call s calls
    (reply :: replies, s)

/-! ## Pigeonholes -/

/-- Pigeonholes with at most one letter each, and the cores that are ready. -/
structure Pigeonholes (slots cores : Nat) where
  held : Fin slots → Option Letter
  ready : Finset (Fin cores)

def Pigeonholes.empty (slots cores : Nat) : Pigeonholes slots cores := ⟨fun _ => none, ∅⟩

/-- Puts a letter into a pigeonhole, or empties it. -/
def Pigeonholes.put (a : Pigeonholes slots cores) (i : Fin slots) (letter : Option Letter) :
    Pigeonholes slots cores :=
  { a with held := Function.update a.held i letter }

/-- What is done at a number, if there are that many; if not, the number is named. -/
def ifWithin {S : Type} (n i : Nat) (s : S) (act : Fin n → Replied S) : Replied S :=
  if h : i < n then act ⟨i, h⟩ else (.error (.slotOutOfRange i n), s)

def Pigeonholes.call (a : Pigeonholes slots cores) : BoxCall → Replied (Pigeonholes slots cores)
  | .slot i => ifWithin slots i.toNat a fun i => (.ok (.index i), a)
  | .slotFor core offset => ifWithin slots (core + offset).toNat a fun i => (.ok (.index i), a)
  | .markReady core =>
    ifWithin cores core.toNat a fun core => (.ok .done, { a with ready := insert core a.ready })
  | .isReady core => ifWithin cores core.toNat a fun core => (.ok (.ready (core ∈ a.ready)), a)
  | .reset i => ifWithin slots i.toNat a fun i => (.ok .done, a.put i none)
  | .post i letter => ifWithin slots i.toNat a fun i => (.ok .done, a.put i (some letter))
  | .postWord i v => ifWithin slots i.toNat a fun i =>
      if h : v = 0 then (.error .zeroPayload, a) else (.ok .done, a.put i (some ⟨v, h⟩))
  | .poll i => ifWithin slots i.toNat a fun i => (.ok (.word ((a.held i).map Subtype.val)), a)
  | .take i => ifWithin slots i.toNat a fun i =>
      (.ok (.word ((a.held i).map Subtype.val)), a.put i none)

/-! ## Mailboxes stand for pigeonholes -/

/-- The mailboxes have the letters of pigeonholes in them, and the flags of the ready cores are
set. -/
structure Mailboxes.StandFor (m : Mailboxes) (a : Pigeonholes slots cores) : Prop where
  size : m.slots.size = slots
  flags : m.ready.size = cores
  held : ∀ i : Fin slots, word? (m.peek i) = (a.held i).map Subtype.val
  ready : ∀ core : Fin cores, m.flag core = decide (core ∈ a.ready)

theorem word?_zero : word? 0 = none := if_pos rfl

theorem word?_of_ne {v : UInt64} (h : v ≠ 0) : word? v = some v := if_neg h

theorem Mailboxes.standFor_create (slots cores : Nat) :
    (Mailboxes.create slots cores).StandFor (Pigeonholes.empty slots cores) where
  size := by simp [Mailboxes.create]
  flags := by simp [Mailboxes.create]
  held i := by
    rw [Mailboxes.peek_create]
    exact word?_zero
  ready core := by
    rw [Mailboxes.flag_create]
    rfl

section Step

variable {m : Mailboxes} {a : Pigeonholes slots cores}

/-- What is written into a mailbox is put into the pigeonhole. -/
theorem Mailboxes.StandFor.write (h : m.StandFor a) (i : Fin slots) {letter : Option Letter}
    {v : UInt64} (hv : word? v = letter.map Subtype.val) :
    (m.write i v).StandFor (a.put i letter) where
  size := by simpa [Mailboxes.write] using h.size
  flags := h.flags
  held j := by
    by_cases hj : j = i
    · subst hj
      rw [m.peek_write_self v (by rw [h.size]; exact j.isLt), hv]
      simp [Pigeonholes.put]
    · rw [m.peek_write_of_ne v (fun heq => hj (Fin.ext heq.symm)), h.held]
      simp [Pigeonholes.put, hj]
  ready := h.ready

theorem Mailboxes.StandFor.raise (h : m.StandFor a) (core : Fin cores) :
    (m.raise core).StandFor { a with ready := insert core a.ready } where
  size := h.size
  flags := by simpa [Mailboxes.raise] using h.flags
  held := h.held
  ready j := by
    by_cases hj : j = core
    · subst hj
      rw [m.flag_raise_self (by rw [h.flags]; exact j.isLt)]
      simp
    · rw [m.flag_raise_of_ne (fun heq => hj (Fin.ext heq.symm)), h.ready]
      simp [hj]

/-! ## Calls that are refused, and what the others change -/

/-- The mailbox that a call is about. -/
def BoxCall.slot? : BoxCall → Option Nat
  | .slot i | .reset i | .post i _ | .postWord i _ | .poll i | .take i => some i.toNat
  | .slotFor core offset => some (core + offset).toNat
  | .markReady _ | .isReady _ => none

/-- The core whose flag a call is about. -/
def BoxCall.core? : BoxCall → Option Nat
  | .markReady core | .isReady core => some core.toNat
  | _ => none

/-- The fault for which a call is refused: its mailbox or its core does not exist, or the word to
post is zero. -/
inductive BoxCall.Refused (m : Mailboxes) : BoxCall → Fault → Prop where
  | slot {x : BoxCall} {i : Nat} (h : x.slot? = some i) (hi : m.slots.size ≤ i) :
      Refused m x (.slotOutOfRange i m.slots.size)
  | core {x : BoxCall} {core : Nat} (h : x.core? = some core) (hcore : m.ready.size ≤ core) :
      Refused m x (.slotOutOfRange core m.ready.size)
  | zero {i : UInt64} (hi : i.toNat < m.slots.size) : Refused m (.postWord i 0) .zeroPayload

/-- What a call gives back that is not refused, and the mailboxes after it. -/
inductive BoxCall.Answered (m : Mailboxes) : BoxCall → BoxReply → Mailboxes → Prop where
  | slot {i : UInt64} (hi : i.toNat < m.slots.size) : Answered m (.slot i) (.index i.toNat) m
  | slotFor {core offset : UInt64} (hi : (core + offset).toNat < m.slots.size) :
      Answered m (.slotFor core offset) (.index (core + offset).toNat) m
  | markReady {core : UInt64} (hcore : core.toNat < m.ready.size) :
      Answered m (.markReady core) .done (m.raise core.toNat)
  | isReady {core : UInt64} (hcore : core.toNat < m.ready.size) :
      Answered m (.isReady core) (.ready (m.flag core.toNat)) m
  | reset {i : UInt64} (hi : i.toNat < m.slots.size) :
      Answered m (.reset i) .done (m.write i.toNat 0)
  | post {i : UInt64} (hi : i.toNat < m.slots.size) (letter : Letter) :
      Answered m (.post i letter) .done (m.write i.toNat letter)
  | postWord {i : UInt64} (hi : i.toNat < m.slots.size) {v : UInt64} (hv : v ≠ 0) :
      Answered m (.postWord i v) .done (m.write i.toNat v)
  | poll {i : UInt64} (hi : i.toNat < m.slots.size) :
      Answered m (.poll i) (.word (word? (m.peek i.toNat))) m
  | take {i : UInt64} (hi : i.toNat < m.slots.size) :
      Answered m (.take i) (.word (word? (m.peek i.toNat))) (m.write i.toNat 0)

theorem Mailboxes.slot_error {i : Nat} (h : m.slots.size ≤ i) :
    m.slot i = .error (.slotOutOfRange i m.slots.size) := if_neg (Nat.not_lt.2 h)

theorem Mailboxes.core_error {core : Nat} (h : m.ready.size ≤ core) :
    m.core core = .error (.slotOutOfRange core m.ready.size) := if_neg (Nat.not_lt.2 h)

theorem Mailboxes.slot_eq_ok_iff {i j : Nat} : m.slot i = .ok j ↔ j = i ∧ i < m.slots.size := by
  unfold Mailboxes.slot
  split
  case isTrue hi => simp [hi, eq_comm]
  case isFalse hi => simp [hi]

theorem Mailboxes.slotFor_eq_ok_iff {core offset : UInt64} {i : Nat} :
    m.slotFor core offset = .ok i ↔ i = (core + offset).toNat ∧ m.slot i = .ok i := by
  rw [Mailboxes.slotFor, Mailboxes.slot_eq_ok_iff, Mailboxes.slot_eq_ok_iff]
  constructor
  · rintro ⟨rfl, hin⟩
    exact ⟨rfl, rfl, hin⟩
  · rintro ⟨rfl, -, hin⟩
    exact ⟨rfl, hin⟩

theorem Mailboxes.poll_eq {i : Nat} (hi : i < m.slots.size) :
    m.poll i = .ok (word? (m.peek i)) := by
  rw [Mailboxes.poll, Mailboxes.slot_eq hi]
  rfl

theorem Mailboxes.take_eq {i : Nat} (hi : i < m.slots.size) :
    m.take i = .ok (word? (m.peek i), m.write i 0) := by
  rw [Mailboxes.take, Mailboxes.slot_eq hi]
  rfl

theorem Mailboxes.post_eq {i : Nat} (hi : i < m.slots.size) {v : UInt64} (hv : v ≠ 0) :
    m.post i v = .ok (m.write i v) := by
  rw [Mailboxes.post, Mailboxes.slot_eq hi]
  exact if_neg hv

theorem Mailboxes.isReady_eq {core : Nat} (hcore : core < m.ready.size) :
    m.isReady core = .ok (m.flag core) := by
  rw [Mailboxes.isReady, Mailboxes.core_eq hcore]
  rfl

/-- A mailbox that was emptied shows nothing, and taking from it once more changes nothing. -/
theorem Mailboxes.emptied (m : Mailboxes) {i : Nat} (hi : i < m.slots.size) :
    (m.write i 0).poll i = .ok none ∧ (m.write i 0).take i = .ok (none, m.write i 0) := by
  have hin : i < (m.write i 0).slots.size := by simpa [Mailboxes.write] using hi
  have hempty : word? ((m.write i 0).peek i) = none := by
    rw [m.peek_write_self 0 hi, word?_zero]
  have hagain : (m.write i 0).write i 0 = m.write i 0 := by
    simp [Mailboxes.write]
  constructor
  · rw [Mailboxes.poll_eq hin, hempty]
  · rw [Mailboxes.take_eq hin, hempty, hagain]

/-- A call that is refused changes nothing. -/
theorem BoxCall.Refused.call_eq {x : BoxCall} {f : Fault} (h : x.Refused m f) :
    m.call x = (.error f, m) := by
  cases h with
  | slot h hi =>
    cases x with
    | slotFor core offset =>
      cases h
      simp only [Mailboxes.call, Mailboxes.slotFor, Mailboxes.slot_error hi]
      rfl
    | slot | reset | post | postWord | poll | take =>
      cases h
      simp only [Mailboxes.call, Mailboxes.reset, Mailboxes.post, Mailboxes.poll, Mailboxes.take,
        Mailboxes.slot_error hi]
      rfl
    | markReady | isReady => cases h
  | core h hcore =>
    cases x with
    | markReady | isReady =>
      cases h
      simp only [Mailboxes.call, Mailboxes.markReady, Mailboxes.isReady, Mailboxes.core_error hcore]
      rfl
    | slot | slotFor | reset | post | postWord | poll | take => cases h
  | zero hi =>
    simp only [Mailboxes.call, Mailboxes.post, Mailboxes.slot_eq hi]
    rfl

theorem BoxCall.Answered.call_eq {x : BoxCall} {reply : BoxReply} {m' : Mailboxes}
    (h : x.Answered m reply m') : m.call x = (.ok reply, m') := by
  cases h with
  | slot hi | slotFor hi | reset hi =>
    simp only [Mailboxes.call, Mailboxes.slotFor, Mailboxes.reset, Mailboxes.slot_eq hi]
    rfl
  | markReady hcore =>
    simp only [Mailboxes.call, Mailboxes.markReady, Mailboxes.core_eq hcore]
    rfl
  | isReady hcore =>
    rw [Mailboxes.call, Mailboxes.isReady_eq hcore]
    rfl
  | post hi letter =>
    rw [Mailboxes.call, Mailboxes.post_eq hi letter.property]
    rfl
  | postWord hi hv =>
    rw [Mailboxes.call, Mailboxes.post_eq hi hv]
    rfl
  | poll hi =>
    rw [Mailboxes.call, Mailboxes.poll_eq hi]
    rfl
  | take hi => rw [Mailboxes.call, Mailboxes.take_eq hi]

/-- Every call is refused or answered. -/
theorem BoxCall.refused_or_answered (m : Mailboxes) (x : BoxCall) :
    (∃ f, x.Refused m f) ∨ ∃ reply m', x.Answered m reply m' := by
  have hslot {i : Nat} (h : x.slot? = some i) (hanswer : i < m.slots.size →
      (∃ f, x.Refused m f) ∨ ∃ reply m', x.Answered m reply m') :
      (∃ f, x.Refused m f) ∨ ∃ reply m', x.Answered m reply m' := by
    rcases Nat.lt_or_ge i m.slots.size with hi | hi
    · exact hanswer hi
    · exact .inl ⟨_, .slot h hi⟩
  have hcore {core : Nat} (h : x.core? = some core) (hanswer : core < m.ready.size →
      ∃ reply m', x.Answered m reply m') :
      (∃ f, x.Refused m f) ∨ ∃ reply m', x.Answered m reply m' := by
    rcases Nat.lt_or_ge core m.ready.size with hi | hi
    · exact .inr (hanswer hi)
    · exact .inl ⟨_, .core h hi⟩
  cases x with
  | slot i => exact hslot rfl fun hi => .inr ⟨_, _, .slot hi⟩
  | slotFor core offset => exact hslot rfl fun hi => .inr ⟨_, _, .slotFor hi⟩
  | markReady core => exact hcore rfl fun hi => ⟨_, _, .markReady hi⟩
  | isReady core => exact hcore rfl fun hi => ⟨_, _, .isReady hi⟩
  | reset i => exact hslot rfl fun hi => .inr ⟨_, _, .reset hi⟩
  | post i letter => exact hslot rfl fun hi => .inr ⟨_, _, .post hi letter⟩
  | postWord i v =>
    refine hslot rfl fun hi => ?_
    by_cases hv : v = 0
    · subst hv
      exact .inl ⟨_, .zero hi⟩
    · exact .inr ⟨_, _, .postWord hi hv⟩
  | poll i => exact hslot rfl fun hi => .inr ⟨_, _, .poll hi⟩
  | take i => exact hslot rfl fun hi => .inr ⟨_, _, .take hi⟩

/-- A call fails exactly with the fault for which it is refused. -/
theorem BoxCall.refused_iff (m : Mailboxes) (x : BoxCall) (f : Fault) :
    (m.call x).1 = .error f ↔ x.Refused m f := by
  constructor
  · intro hfails
    rcases x.refused_or_answered m with ⟨f', hf'⟩ | ⟨reply, m', hanswered⟩
    · rw [hf'.call_eq] at hfails
      cases hfails
      exact hf'
    · rw [hanswered.call_eq] at hfails
      cases hfails
  · intro hrefused
    rw [hrefused.call_eq]

/-! ## What a call leaves as it is -/

/-- A call changes no other mailbox than its own. -/
theorem BoxCall.slots_call (x : BoxCall) {i : Nat} (hi : x.slot? ≠ some i) :
    (m.call x).2.slots[i]? = m.slots[i]? := by
  rcases x.refused_or_answered m with ⟨f, hrefused⟩ | ⟨reply, m', hanswered⟩
  · rw [hrefused.call_eq]
  · rw [hanswered.call_eq]
    cases hanswered with
    | slot | slotFor | isReady | poll | markReady => rfl
    | reset | post | postWord | take =>
      exact Array.getElem?_setIfInBounds_ne fun heq => hi (congrArg some heq)

/-- A call changes no other flag than its own. -/
theorem BoxCall.ready_call (x : BoxCall) {core : Nat} (hcore : x.core? ≠ some core) :
    (m.call x).2.ready[core]? = m.ready[core]? := by
  rcases x.refused_or_answered m with ⟨f, hrefused⟩ | ⟨reply, m', hanswered⟩
  · rw [hrefused.call_eq]
  · rw [hanswered.call_eq]
    cases hanswered with
    | slot | slotFor | isReady | poll | reset | post | postWord | take => rfl
    | markReady => exact Array.getElem?_setIfInBounds_ne fun heq => hcore (congrArg some heq)

/-! ## Step by step -/

/-- A call that the mailboxes refuse is refused by what they stand for. -/
theorem Mailboxes.StandFor.call_of_refused (h : m.StandFor a) {x : BoxCall} {f : Fault}
    (hrefused : x.Refused m f) : a.call x = (.error f, a) := by
  have hsize := h.size
  have hflags := h.flags
  cases hrefused with
  | @slot _ i hx hi =>
    have hout : ¬ i < slots := by omega
    cases x <;> cases hx <;>
      simp only [Pigeonholes.call, ifWithin, hout, hsize, dif_neg, not_false_eq_true]
  | @core _ core hx hcore =>
    have hout : ¬ core < cores := by omega
    cases x <;> cases hx <;> simp [Pigeonholes.call, ifWithin, hout, hflags]
  | @zero i hi =>
    have hin : i.toNat < slots := by omega
    simp [Pigeonholes.call, ifWithin, hin]

/-- A call is answered by the mailboxes as by what they stand for. -/
theorem Mailboxes.StandFor.call (h : m.StandFor a) (x : BoxCall) :
    (m.call x).1 = (a.call x).1 ∧ (m.call x).2.StandFor (a.call x).2 := by
  have hsize := h.size
  have hflags := h.flags
  rcases x.refused_or_answered m with ⟨f, hrefused⟩ | ⟨reply, m', hanswered⟩
  · rw [hrefused.call_eq]
    rw [h.call_of_refused hrefused]
    exact ⟨rfl, h⟩
  · rw [hanswered.call_eq]
    have hheld {i : Nat} (hi : i < slots) := h.held ⟨i, hi⟩
    cases hanswered with
    | slot hi | slotFor hi =>
      rw [hsize] at hi
      simp only [Pigeonholes.call, ifWithin, hi, dif_pos]
      exact ⟨trivial, h⟩
    | markReady hcore =>
      rw [hflags] at hcore
      simp only [Pigeonholes.call, ifWithin, hcore, dif_pos]
      exact ⟨trivial, h.raise ⟨_, hcore⟩⟩
    | @isReady core hcore =>
      rw [hflags] at hcore
      simp only [Pigeonholes.call, ifWithin, hcore, dif_pos]
      exact ⟨by rw [h.ready ⟨core.toNat, hcore⟩], h⟩
    | reset hi =>
      rw [hsize] at hi
      simp only [Pigeonholes.call, ifWithin, hi, dif_pos]
      exact ⟨trivial, h.write ⟨_, hi⟩ word?_zero⟩
    | post hi letter =>
      rw [hsize] at hi
      simp only [Pigeonholes.call, ifWithin, hi, dif_pos]
      exact ⟨trivial, h.write ⟨_, hi⟩ (word?_of_ne letter.property)⟩
    | postWord hi hv =>
      rw [hsize] at hi
      simp only [Pigeonholes.call, ifWithin, hi, hv, dif_pos, dif_neg, not_false_eq_true]
      exact ⟨trivial, h.write ⟨_, hi⟩ (word?_of_ne hv)⟩
    | poll hi =>
      rw [hsize] at hi
      simp only [Pigeonholes.call, ifWithin, hi, dif_pos]
      exact ⟨by rw [hheld hi], h⟩
    | take hi =>
      rw [hsize] at hi
      simp only [Pigeonholes.call, ifWithin, hi, dif_pos]
      exact ⟨by rw [hheld hi], h.write ⟨_, hi⟩ word?_zero⟩

/-! ## Histories -/

/-- What a call leaves in a mailbox, if it fills or empties it. -/
def BoxCall.leaves (i : Nat) : BoxCall → Option (Option UInt64)
  | .reset j | .take j => if j.toNat = i then some none else none
  | .post j letter => if j.toNat = i then some (some letter.val) else none
  | .postWord j v => if j.toNat = i ∧ v ≠ 0 then some (some v) else none
  | _ => none

/-- The last word that was posted to a mailbox since it was last emptied. -/
def lastPosted (i : Nat) (calls : List BoxCall) : Option UInt64 :=
  (calls.filterMap (BoxCall.leaves i)).getLastD none

theorem BoxCall.Refused.leaves_eq {x : BoxCall} {f : Fault} (h : x.Refused m f) {i : Nat}
    (hi : i < m.slots.size) : x.leaves i = none := by
  cases h with
  | @slot _ j hx hj =>
    have hne : j ≠ i := by omega
    cases x <;> cases hx <;> simp [BoxCall.leaves, hne]
  | core hx =>
    cases x <;> cases hx <;> rfl
  | zero => simp [BoxCall.leaves]

/-- A mailbox holds what a call leaves in it, or what it held before. -/
theorem BoxCall.word?_peek_call (x : BoxCall) {i : Nat} (hi : i < m.slots.size) :
    word? ((m.call x).2.peek i) = (x.leaves i).getD (word? (m.peek i)) := by
  rcases x.refused_or_answered m with ⟨f, hrefused⟩ | ⟨reply, m', hanswered⟩
  · rw [hrefused.call_eq, hrefused.leaves_eq hi]
    rfl
  · rw [hanswered.call_eq]
    have hwrite (j : Nat) {v : UInt64} (hj : j < m.slots.size) :
        word? ((m.write j v).peek i) = if j = i then word? v else word? (m.peek i) := by
      split
      case isTrue heq =>
        subst heq
        rw [m.peek_write_self v hj]
      case isFalse hne => rw [m.peek_write_of_ne v hne]
    cases hanswered with
    | slot | slotFor | isReady | poll | markReady => rfl
    | reset hj | take hj =>
      rw [hwrite _ hj, word?_zero, BoxCall.leaves]
      split <;> rfl
    | post hj letter =>
      rw [hwrite _ hj, word?_of_ne letter.property, BoxCall.leaves]
      split <;> rfl
    | @postWord j hj v hv =>
      rw [hwrite _ hj, word?_of_ne hv, BoxCall.leaves]
      by_cases hji : j.toNat = i <;> simp [hji, hv]

/-- A core is ready if it was, or if the call announces it. -/
theorem BoxCall.flag_call (x : BoxCall) {core : UInt64} (hcore : core.toNat < m.ready.size) :
    (m.call x).2.flag core.toNat = (m.flag core.toNat || decide (x = .markReady core)) := by
  have hother (hx : x ≠ .markReady core) : (m.call x).2.flag core.toNat = m.flag core.toNat := by
    rcases x.refused_or_answered m with ⟨f, hrefused⟩ | ⟨reply, m', hanswered⟩
    · rw [hrefused.call_eq]
    · rw [hanswered.call_eq]
      cases hanswered with
      | slot | slotFor | isReady | reset | post | postWord | poll | take => rfl
      | markReady =>
        exact m.flag_raise_of_ne fun heq => hx (congrArg BoxCall.markReady (UInt64.toNat_inj.1 heq))
  by_cases hx : x = .markReady core
  · subst hx
    rw [(BoxCall.Answered.markReady hcore).call_eq, m.flag_raise_self hcore]
    simp
  · rw [hother hx]
    simp [hx]

/-- A core that is ready stays ready. -/
theorem Mailboxes.StandFor.isReady_call (h : m.StandFor a) (x : BoxCall) {core : UInt64}
    (hcore : m.isReady core.toNat = .ok true) : (m.call x).2.isReady core.toNat = .ok true := by
  have hin : core.toNat < m.ready.size := by
    by_contra hout
    rw [Mailboxes.isReady, Mailboxes.core_error (Nat.not_lt.1 hout)] at hcore
    cases hcore
  rw [Mailboxes.isReady_eq hin, Except.ok.injEq] at hcore
  have hin' : core.toNat < (m.call x).2.ready.size := by
    rw [(h.call x).2.flags, ← h.flags]
    exact hin
  rw [Mailboxes.isReady_eq hin', x.flag_call hin, hcore, Bool.true_or]

end Step

section Run

variable {m : Mailboxes} {a : Pigeonholes slots cores}

theorem Mailboxes.StandFor.callAll (h : m.StandFor a) (calls : List BoxCall) :
    (callAll Mailboxes.call m calls).1 = (callAll Pigeonholes.call a calls).1 ∧
      (callAll Mailboxes.call m calls).2.StandFor (callAll Pigeonholes.call a calls).2 := by
  induction calls generalizing m a with
  | nil => exact ⟨rfl, h⟩
  | cons x calls ih =>
    obtain ⟨hreply, hnext⟩ := h.call x
    obtain ⟨hreplies, hlast⟩ := ih hnext
    exact ⟨congrArg₂ _ hreply hreplies, hlast⟩

/-- A mailbox holds the last letter that was posted since it was last emptied. -/
theorem Mailboxes.StandFor.word?_peek (h : m.StandFor a) {i : Nat} (hi : i < slots)
    (calls : List BoxCall) :
    word? ((LatencyGauge.callAll Mailboxes.call m calls).2.peek i) =
      (calls.filterMap (BoxCall.leaves i)).getLastD (word? (m.peek i)) := by
  induction calls generalizing m a with
  | nil => rfl
  | cons x calls ih =>
    have hsize : i < m.slots.size := h.size.symm ▸ hi
    rw [LatencyGauge.callAll, ih (h.call x).2, x.word?_peek_call hsize, List.filterMap_cons]
    cases x.leaves i with
    | none => rfl
    | some letter => exact (List.getLastD_cons ..).symm

/-- A core is ready exactly if it was or was announced. -/
theorem Mailboxes.StandFor.flag_eq (h : m.StandFor a) {core : UInt64} (hcore : core.toNat < cores)
    (calls : List BoxCall) :
    (LatencyGauge.callAll Mailboxes.call m calls).2.flag core.toNat =
      (m.flag core.toNat || decide (.markReady core ∈ calls)) := by
  induction calls generalizing m a with
  | nil => simp [LatencyGauge.callAll]
  | cons x calls ih =>
    have hflags : core.toNat < m.ready.size := h.flags.symm ▸ hcore
    rw [LatencyGauge.callAll, ih (h.call x).2, x.flag_call hflags]
    simp [Bool.or_assoc, eq_comm]

end Run

/-! ## All calls -/

/-- What is to be said of mailboxes after calls. They have answered like pigeonholes and stand for
what those have become. A mailbox shows the last letter posted since it was emptied, and taking it
leaves it empty; a core is ready if it was announced, and stays so; a call changes no other mailbox
and no other flag than its own. The mailbox at an offset is the one with the sum for its number, if
there is one; the sum is one of words, and one of numbers where it does not wrap around. A call
fails exactly if its index is out of range, which is named with the length, or its word is zero;
then it changes nothing. -/
structure Mailboxes.Keeps (slots cores : Nat) (calls : List BoxCall) (m : Mailboxes) : Prop where
  replies : (callAll Mailboxes.call (.create slots cores) calls).1 =
    (callAll Pigeonholes.call (.empty slots cores) calls).1
  standFor : m.StandFor (callAll Pigeonholes.call (.empty slots cores) calls).2
  polled : ∀ i < slots, m.poll i = .ok (lastPosted i calls)
  taken : ∀ i < slots, ∃ m', m.take i = .ok (lastPosted i calls, m') ∧ m'.poll i = .ok none ∧
    m'.take i = .ok (none, m')
  announced : ∀ core : UInt64, core.toNat < cores →
    m.isReady core.toNat = .ok (decide (.markReady core ∈ calls))
  staysReady : ∀ (core : UInt64) x, m.isReady core.toNat = .ok true →
    (m.call x).2.isReady core.toNat = .ok true
  otherSlots : ∀ x i, BoxCall.slot? x ≠ some i → (m.call x).2.slots[i]? = m.slots[i]?
  otherFlags : ∀ x core, BoxCall.core? x ≠ some core → (m.call x).2.ready[core]? = m.ready[core]?
  slotFor : ∀ core offset i,
    m.slotFor core offset = .ok i ↔ i = (core + offset).toNat ∧ m.slot i = .ok i
  slotForSum : ∀ (core offset : UInt64) i, core.toNat + offset.toNat < 2 ^ 64 →
    (m.slotFor core offset = .ok i ↔ i = core.toNat + offset.toNat ∧ m.slot i = .ok i)
  fails : ∀ x f, (m.call x).1 = .error f ↔ BoxCall.Refused m x f
  unchanged : ∀ x f, (m.call x).1 = .error f → (m.call x).2 = m

/-- Whatever calls are made on fresh mailboxes, they keep what they are given. -/
theorem Mailboxes.callAll_keeps (slots cores : Nat) (calls : List BoxCall) :
    (callAll Mailboxes.call (.create slots cores) calls).2.Keeps slots cores calls := by
  have hfresh := Mailboxes.standFor_create slots cores
  obtain ⟨hreplies, hstand⟩ := hfresh.callAll calls
  have hheld (i : Nat) (hi : i < slots) := hfresh.word?_peek hi calls
  have hready (core : UInt64) (hcore : core.toNat < cores) := hfresh.flag_eq hcore calls
  generalize (callAll Mailboxes.call (.create slots cores) calls).2 = m at *
  have hsize := hstand.size
  have hflags := hstand.flags
  constructor
  case replies => exact hreplies
  case standFor => exact hstand
  case polled =>
    intro i hi
    rw [Mailboxes.poll_eq (hsize ▸ hi), hheld i hi, Mailboxes.peek_create, word?_zero]
    rfl
  case taken =>
    intro i hi
    have hin : i < m.slots.size := hsize ▸ hi
    refine ⟨m.write i 0, ?_, m.emptied hin⟩
    rw [Mailboxes.take_eq hin, hheld i hi, Mailboxes.peek_create, word?_zero]
    rfl
  case announced =>
    intro core hcore
    rw [Mailboxes.isReady_eq (hflags ▸ hcore), hready core hcore, Mailboxes.flag_create,
      Bool.false_or]
  case staysReady => exact fun core x hcore => hstand.isReady_call x hcore
  case otherSlots => exact fun x i => x.slots_call
  case otherFlags => exact fun x core => x.ready_call
  case slotFor => exact fun core offset i => Mailboxes.slotFor_eq_ok_iff
  case slotForSum =>
    intro core offset i hsum
    rw [Mailboxes.slotFor_eq_ok_iff, UInt64.toNat_add, Nat.mod_eq_of_lt hsum]
  case fails => exact fun x f => x.refused_iff m f
  case unchanged =>
    intro x f hfails
    rw [((x.refused_iff m f).1 hfails).call_eq]

example : (callAll Mailboxes.call (.create 2 1)
    [.postWord 0 7, .postWord 0 0, .take 0, .take 0, .poll 2, .markReady 1]).1 =
      [.ok .done, .error .zeroPayload, .ok (.word (some 7)), .ok (.word none),
        .error (.slotOutOfRange 2 2), .error (.slotOutOfRange 1 1)] := by decide

end LatencyGauge
