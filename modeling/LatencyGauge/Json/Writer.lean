/-
Writing JSON text, either compact, without any white space, or pretty, with one item or member a
line indented by two blanks a level. Both spell the same tokens.
-/
import LatencyGauge.Json.Token
import LatencyGauge.Json.Value

namespace LatencyGauge.Json

/-! ## Tokens of a value -/

mutual

/-- The tokens that spell a value. -/
def Value.tokens : Value → List Token
  | .null => [.null]
  | .bool b => [.bool b]
  | .number n => [.number n]
  | .text t => [.text t]
  | .array [] => [.openBracket, .closeBracket]
  | .array (v :: vs) => .openBracket :: (v.tokens ++ itemTokens vs)
  | .object [] => [.openBrace, .closeBrace]
  | .object ((k, v) :: ms) => .openBrace :: .text k :: .colon :: (v.tokens ++ memberTokens ms)

/-- The tokens from one item to the end of its array. -/
def itemTokens : List Value → List Token
  | [] => [.closeBracket]
  | v :: vs => .comma :: (v.tokens ++ itemTokens vs)

/-- The tokens from one member to the end of its object. -/
def memberTokens : List (Text × Value) → List Token
  | [] => [.closeBrace]
  | (k, v) :: ms => .comma :: .text k :: .colon :: (v.tokens ++ memberTokens ms)

end

/-- A value without white space. -/
def Value.compact (v : Value) : String := String.ofList (v.tokens.flatMap Token.chars)

/-! ## Pretty text -/

/-- A new line at a level of nesting. -/
def newline (level : Nat) : List Char := '\n' :: List.replicate (2 * level) ' '

mutual

/-- A value with its parts on lines of their own, inside `level` containers. -/
def Value.prettyChars (level : Nat) : Value → List Char
  | .null => Token.null.chars
  | .bool b => (Token.bool b).chars
  | .number n => (Token.number n).chars
  | .text t => (Token.text t).chars
  | .array [] => ['[', ']']
  | .array (v :: vs) =>
    '[' :: (newline (level + 1) ++ v.prettyChars (level + 1) ++ prettyItems level vs)
  | .object [] => ['\x7b', '\x7d']
  | .object ((k, v) :: ms) =>
    '\x7b' :: (newline (level + 1) ++ k.chars ++ ':' :: ' ' :: v.prettyChars (level + 1) ++
      prettyMembers level ms)

/-- The lines from one item to the end of its array. -/
def prettyItems (level : Nat) : List Value → List Char
  | [] => newline level ++ [']']
  | v :: vs => ',' :: (newline (level + 1) ++ v.prettyChars (level + 1) ++ prettyItems level vs)

/-- The lines from one member to the end of its object. -/
def prettyMembers (level : Nat) : List (Text × Value) → List Char
  | [] => newline level ++ ['\x7d']
  | (k, v) :: ms =>
    ',' :: (newline (level + 1) ++ k.chars ++ ':' :: ' ' :: v.prettyChars (level + 1) ++
      prettyMembers level ms)

end

/-- A value with its parts on lines of their own. -/
def Value.pretty (v : Value) : String := String.ofList (v.prettyChars 0)

end LatencyGauge.Json
