/-
Reading domain values from JSON values. A reader is told how many containers surround a value and
whether the value is already being kept whole. Records come as objects, with their members in any
order and unknown ones skipped, or as arrays of their fields; plain choices come as names; tagged
choices carry a tag among their members. A field given twice is never accepted.
-/
import LatencyGauge.Json.Reader

namespace LatencyGauge.Json

/-! ## Readers -/

/-- Where a value stands: the number of containers around it, and whether it is kept whole. -/
structure Place where
  depth : Nat
  kept : Bool
deriving DecidableEq, Repr

/-- The place of a whole text's value. -/
def Place.top : Place := ⟨0, false⟩

/-- The place of a part of a container. -/
def Place.inside (p : Place) : Place := { p with depth := p.depth + 1 }

/-- Reads a value of a type, or refuses. -/
abbrev Reader (α : Type) := Place → Value → Option α

/-- Reads a whole text as a value of a type. -/
def decode {α : Type} (read : Reader α) (text : String) : Option α :=
  (Value.parse text).bind (read .top)

/-- A count of 64 bits. -/
def word : Reader UInt64
  | _, .number n => n.word?
  | _, _ => none

/-- A count of 32 bits. -/
def word32 : Reader UInt32
  | _, .number n =>
    match n.nat? with
    | some v => if v < Nat.pow 2 32 then some (UInt32.ofNat v) else none
    | none => none
  | _, _ => none

/-- A number; whole numbers are numbers too. -/
def float : Reader Float
  | _, .number n => n.float?
  | _, _ => none

/-- A truth value. -/
def boolean : Reader Bool
  | _, .bool b => some b
  | _, _ => none

/-- A text. -/
def string : Reader String
  | _, .text t => t
  | _, _ => none

/-- A value or null. -/
def nullable {α : Type} (read : Reader α) : Reader (Option α)
  | _, .null => some none
  | p, v => (read p v).map some

/-- The items of an array, each read alike. -/
def listOf {α : Type} (read : Reader α) : Reader (List α)
  | p, .array items => items.mapM (read p.inside)
  | _, _ => none

/-- A name of a table, or an object whose only member has such a name and is null. -/
def choice {α : Type} (table : List (String × α)) : Reader α
  | _, .text (some s) => table.lookup s
  | _, .object [(some s, .null)] => table.lookup s
  | _, _ => none

/-! ## Records -/

/-- A field of a record as it was found: its value, or that it was left out. -/
abbrev Slot := Option Value

/-- Puts a member into the slot of its name; a name that is none of the fields' leaves all as they
are, and a slot is filled only once. -/
def fill (key : String) (v : Value) : List String → List Slot → Option (List Slot)
  | name :: names, slot :: slots =>
    if name = key then
      match slot with
      | none => some (some v :: slots)
      | some _ => none
    else (fill key v names slots).map (slot :: ·)
  | _, slots => some slots

/-- Puts all members of an object into slots. A key that is no text is refused, whatever field it
was meant for. -/
def fillAll (names : List String) : List (Text × Value) → List Slot → Option (List Slot)
  | [], slots => some slots
  | (some key, v) :: ms, slots => (fill key v names slots).bind (fillAll names ms)
  | (none, _) :: _, _ => none

/-- The slots of a record's fields, in the order of their names. From an array the fields are
taken in that order, all of them unless the record has defaults. -/
def slotsOf (names : List String) (defaults : Bool) : Value → Option (List Slot)
  | .object members => fillAll names members (names.map fun _ => none)
  | .array items =>
    if items.length = names.length ∨ (defaults ∧ items.length < names.length) then
      some (items.map some ++ List.replicate (names.length - items.length) none)
    else none
  | _ => none

/-- A field that has to be there. -/
def required {α : Type} (read : Reader α) (p : Place) : Slot → Option α
  | some v => read p.inside v
  | none => none

/-- A field that may be left out or null. -/
def optional {α : Type} (read : Reader α) (p : Place) : Slot → Option (Option α)
  | some v => nullable read p.inside v
  | none => some none

/-- A field that has a default. -/
def defaulted {α : Type} (a : α) (read : Reader α) (p : Place) : Slot → Option α
  | some v => read p.inside v
  | none => some a

/-- A record of one field. -/
def sole {α β : Type} (name : String) (read : Reader α) (make : α → β) : Reader β :=
  fun p v => do
    match ← slotsOf [name] false v with
    | [field] => return make (← required read p field)
    | _ => none

/-! ## Tagged choices -/

/-- Takes the one member of a name out of an object. -/
def takeMember (tag : String) : List (Text × Value) → Option (Value × List (Text × Value))
  | [] => none
  | (key, v) :: ms =>
    if key = some tag then
      if ms.any fun m => m.1 = some tag then none else some (v, ms)
    else (takeMember tag ms).map fun (t, rest) => (t, (key, v) :: rest)

/-- The tag of a tagged choice and the value without it. -/
def splitTag (tag : String) : Value → Option (Value × Value)
  | .object members => (takeMember tag members).map fun (t, rest) => (t, .object rest)
  | .array (t :: rest) => some (t, .array rest)
  | _ => none

/-- The variant that a tag names. In a value that was kept before, a tag may also give the
position of the variant. -/
def variant {α : Type} (table : List (String × α)) (kept : Bool) : Value → Option α
  | .text (some s) => table.lookup s
  | .number n =>
    if kept then
      match n.word? with
      | some i => (table[i.toNat]?).map (·.2)
      | none => none
    else none
  | _ => none

/-- A tagged choice: the value is kept whole, its tag names a variant, and the variant reads the
rest. -/
def tagged {α β : Type} (tag : String) (table : List (String × α)) (body : α → Reader β) :
    Reader β :=
  fun p v =>
    if p.kept || v.keepable p.depth then do
      let (t, rest) ← splitTag tag v
      let a ← variant table p.kept t
      body a { p with kept := true } rest
    else none

/-- A variant without fields: other members do not matter, but an array holds nothing else. -/
def bare {α : Type} (a : α) : Reader α
  | _, .object _ => some a
  | _, .array [] => some a
  | _, _ => none

end LatencyGauge.Json
