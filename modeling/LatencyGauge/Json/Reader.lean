/-
Reading JSON text: one value from its tokens, and nothing after it. The grammar is the strict one:
no trailing commas, no comments, keys are texts.
-/
import LatencyGauge.Json.Token
import LatencyGauge.Json.Value

namespace LatencyGauge.Json

/-! ## Values from tokens -/

mutual

/-- The value that tokens start with, and the tokens after it; `fuel` bounds the nesting and the
length of its parts. -/
def readValue : Nat → List Token → Option (Value × List Token)
  | 0, _ => none
  | _ + 1, .null :: r => some (.null, r)
  | _ + 1, .bool b :: r => some (.bool b, r)
  | _ + 1, .number n :: r => some (.number n, r)
  | _ + 1, .text t :: r => some (.text t, r)
  | _ + 1, .openBracket :: .closeBracket :: r => some (.array [], r)
  | fuel + 1, .openBracket :: r => (readItems fuel r).map fun (vs, rest) => (.array vs, rest)
  | _ + 1, .openBrace :: .closeBrace :: r => some (.object [], r)
  | fuel + 1, .openBrace :: r => (readMembers fuel r).map fun (ms, rest) => (.object ms, rest)
  | _ + 1, _ => none

/-- The items of an array up to its closing bracket. -/
def readItems : Nat → List Token → Option (List Value × List Token)
  | 0, _ => none
  | fuel + 1, ts =>
    match readValue fuel ts with
    | some (v, .comma :: r) => (readItems fuel r).map fun (vs, rest) => (v :: vs, rest)
    | some (v, .closeBracket :: r) => some ([v], r)
    | _ => none

/-- The members of an object up to its closing brace. -/
def readMembers : Nat → List Token → Option (List (Text × Value) × List Token)
  | 0, _ => none
  | fuel + 1, .text k :: .colon :: ts =>
    match readValue fuel ts with
    | some (v, .comma :: r) => (readMembers fuel r).map fun (ms, rest) => ((k, v) :: ms, rest)
    | some (v, .closeBrace :: r) => some ([(k, v)], r)
    | _ => none
  | _ + 1, _ => none

end

/-- The value that tokens spell. A value needs less fuel than it has tokens twice over. -/
def Value.ofTokens (ts : List Token) : Option Value :=
  match readValue (2 * ts.length) ts with
  | some (v, []) => some v
  | _ => none

/-- The value that a text spells. -/
def Value.parse (s : String) : Option Value := (Token.ofChars s.toList).bind Value.ofTokens

end LatencyGauge.Json
