/-
JSON values as they are written: members keep their order and may repeat, numbers keep their
spelling. `Value.keepable` says which values may be kept whole rather than read member by member:
those that are not nested too deep, whose texts are texts and whose numbers are in range.
-/
import LatencyGauge.Json.Numeral
import LatencyGauge.Json.Text

namespace LatencyGauge.Json

/-! ## Values -/

/-- A JSON value. -/
inductive Value where
  | null
  | bool (b : Bool)
  | number (n : Numeral)
  | text (t : Text)
  | array (items : List Value)
  | object (members : List (Text × Value))
deriving Inhabited

/-- The value of a text. -/
def Value.ofString (s : String) : Value := .text (some s)

/-- The value of a natural number. -/
def Value.ofNat (n : Nat) : Value := .number (.ofNat n)

/-- The value of a count. -/
def Value.ofWord (n : UInt64) : Value := .ofNat n.toNat

/-- The value of a number; infinities and what is not a number are null. -/
def Value.ofFloat (x : Float) : Value :=
  match Numeral.ofFloat? x with
  | some n => .number n
  | none => .null

/-- An object with the given members. -/
def Value.record (members : List (String × Value)) : Value :=
  .object (members.map fun (k, v) => (some k, v))

/-! ## Parts -/

/-- The items of an array; nothing else has items. -/
def Value.items : Value → List Value
  | .array items => items
  | _ => []

/-- The first member of an object that has a name. -/
def Value.member? (key : String) : Value → Option Value
  | .object members => (members.find? fun m => m.1 == some key).map (·.2)
  | _ => none

/-! ## Values that can be kept -/

/-- Containers may be nested this deep in a value that is kept. -/
def deepest : Nat := 127

mutual

/-- Whether a value below `depth` containers can be kept. -/
def Value.keepable (depth : Nat) : Value → Bool
  | .null => true
  | .bool _ => true
  | .number n => n.float?.isSome
  | .text t => t.isSome
  | .array items => depth < deepest && keepableItems (depth + 1) items
  | .object members => depth < deepest && keepableMembers (depth + 1) members

/-- Whether all items can be kept. -/
def keepableItems (depth : Nat) : List Value → Bool
  | [] => true
  | v :: vs => v.keepable depth && keepableItems depth vs

/-- Whether all keys are texts and all values can be kept. -/
def keepableMembers (depth : Nat) : List (Text × Value) → Bool
  | [] => true
  | (k, v) :: ms => k.isSome && v.keepable depth && keepableMembers depth ms

end

end LatencyGauge.Json
