/-
Tokens of JSON text. Blanks, tabs and line ends may stand between tokens and are dropped; every
other text is a token or an error.
-/
import LatencyGauge.Json.Numeral
import LatencyGauge.Json.Text

namespace LatencyGauge.Json

/-! ## Tokens -/

/-- A token. -/
inductive Token where
  | openBrace
  | closeBrace
  | openBracket
  | closeBracket
  | comma
  | colon
  | null
  | bool (b : Bool)
  | number (n : Numeral)
  | text (t : Text)
deriving DecidableEq, Repr

/-- The text of a token. -/
def Token.chars : Token → List Char
  | .openBrace => ['\x7b']
  | .closeBrace => ['\x7d']
  | .openBracket => ['[']
  | .closeBracket => [']']
  | .comma => [',']
  | .colon => [':']
  | .null => "null".toList
  | .bool true => "true".toList
  | .bool false => "false".toList
  | .number n => n.chars
  | .text t => t.chars

/-- White space between tokens. -/
def isBlank (c : Char) : Bool := c = ' ' || c = '\t' || c = '\n' || c = '\r'

/-- The token a text starts with, and the rest. -/
def Token.scan : List Char → Option (Token × List Char)
  | '\x7b' :: r => some (.openBrace, r)
  | '\x7d' :: r => some (.closeBrace, r)
  | '[' :: r => some (.openBracket, r)
  | ']' :: r => some (.closeBracket, r)
  | ',' :: r => some (.comma, r)
  | ':' :: r => some (.colon, r)
  | 'n' :: 'u' :: 'l' :: 'l' :: r => some (.null, r)
  | 't' :: 'r' :: 'u' :: 'e' :: r => some (.bool true, r)
  | 'f' :: 'a' :: 'l' :: 's' :: 'e' :: r => some (.bool false, r)
  | '"' :: r => (Text.scan r).map fun (t, rest) => (.text t, rest)
  | r => (Numeral.scan r).map fun (n, rest) => (.number n, rest)

/-- All tokens of a text, for a bound on their number. -/
def Token.scanUpTo : Nat → List Char → Option (List Token)
  | _, [] => some []
  | 0, _ :: _ => none
  | bound + 1, c :: r =>
    if isBlank c then Token.scanUpTo bound r
    else
      match Token.scan (c :: r) with
      | some (t, rest) => (Token.scanUpTo bound rest).map (t :: ·)
      | none => none

/-- All tokens of a text. Each takes a character at least, so its length bounds their number. -/
def Token.ofChars (cs : List Char) : Option (List Token) := Token.scanUpTo cs.length cs

end LatencyGauge.Json
