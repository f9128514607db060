/-
Mailboxes of one word each, and a ready flag for every core. Zero means that a mailbox is empty,
so only words other than zero can be posted. Every operation names the index that is out of range
together with the length it exceeded, and leaves everything as it was.
-/
import LatencyGauge.Fault

namespace LatencyGauge

/-! ## Mailboxes -/

/-- The words of the mailboxes and the ready flags of the cores. -/
structure Mailboxes where
  slots : Array UInt64
  ready : Array Bool
deriving DecidableEq, Repr

/-- Empty mailboxes and cleared flags. -/
def Mailboxes.create (slots cores : Nat) : Mailboxes :=
  ⟨Array.replicate slots 0, Array.replicate cores false⟩

/-- The word of a mailbox, zero out of range. -/
def Mailboxes.peek (m : Mailboxes) (i : Nat) : UInt64 := m.slots.getD i 0

/-- Puts a word into a mailbox; out of range nothing happens. -/
def Mailboxes.write (m : Mailboxes) (i : Nat) (v : UInt64) : Mailboxes :=
  { m with slots := m.slots.setIfInBounds i v }

/-- The flag of a core, clear out of range. -/
def Mailboxes.flag (m : Mailboxes) (core : Nat) : Bool := m.ready.getD core false

/-- Sets the flag of a core; out of range nothing happens. -/
def Mailboxes.raise (m : Mailboxes) (core : Nat) : Mailboxes :=
  { m with ready := m.ready.setIfInBounds core true }

/-! ## Range checks -/

/-- Accepts the index of a mailbox. -/
def Mailboxes.slot (m : Mailboxes) (i : Nat) : Except Fault Nat :=
  if i < m.slots.size then .ok i else .error (.slotOutOfRange i m.slots.size)

/-- The mailbox at an offset from a core's own. The sum is one of words and wraps around. -/
def Mailboxes.slotFor (m : Mailboxes) (core offset : UInt64) : Except Fault Nat :=
  m.slot (core + offset).toNat

/-- Accepts a core that has a ready flag. -/
def Mailboxes.core (m : Mailboxes) (core : Nat) : Except Fault Nat :=
  if core < m.ready.size then .ok core else .error (.slotOutOfRange core m.ready.size)

/-! ## Operations -/

/-- The word of a mailbox, if there is one in it. -/
def word? (v : UInt64) : Option UInt64 := if v = 0 then none else some v

/-- Posts a word into a mailbox. -/
def Mailboxes.post (m : Mailboxes) (i : Nat) (v : UInt64) : Except Fault Mailboxes := do
  let i ← m.slot i
  if v = 0 then .error .zeroPayload else pure (m.write i v)

/-- Looks into a mailbox. -/
def Mailboxes.poll (m : Mailboxes) (i : Nat) : Except Fault (Option UInt64) := do
  let i ← m.slot i
  pure (word? (m.peek i))

/-- Takes the word out of a mailbox. -/
def Mailboxes.take (m : Mailboxes) (i : Nat) : Except Fault (Option UInt64 × Mailboxes) := do
  let i ← m.slot i
  pure (word? (m.peek i), m.write i 0)

/-- Empties a mailbox. -/
def Mailboxes.reset (m : Mailboxes) (i : Nat) : Except Fault Mailboxes := do
  let i ← m.slot i
  pure (m.write i 0)

/-- Announces that a core is ready. -/
def Mailboxes.markReady (m : Mailboxes) (core : Nat) : Except Fault Mailboxes := do
  let core ← m.core core
  pure (m.raise core)

/-- Asks whether a core is ready. -/
def Mailboxes.isReady (m : Mailboxes) (core : Nat) : Except Fault Bool := do
  let core ← m.core core
  pure (m.flag core)

end LatencyGauge
