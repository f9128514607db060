/-
String literals of JSON text. Writing escapes the quote, the backslash and the characters below
the blank, and nothing else; reading takes every escape of the grammar. Escapes may spell halves
of surrogate pairs, and a literal with a half left alone spells no text: it is scanned all the
same, as one that nobody can use.
-/
import LatencyGauge.Number.Hexadecimal

namespace LatencyGauge.Json

open Number (hex?)

/-! ## Text -/

/-- What a string literal spells: a text, or nothing if a surrogate stands alone in it. -/
abbrev Text := Option String

/-! ## Writing -/

/-- The characters that stand for one character inside a string literal. -/
def escape (c : Char) : List Char :=
  if c = '"' then ['\\', '"']
  else if c = '\\' then ['\\', '\\']
  else if c = '\x08' then ['\\', 'b']
  else if c = '\x0c' then ['\\', 'f']
  else if c = '\n' then ['\\', 'n']
  else if c = '\r' then ['\\', 'r']
  else if c = '\t' then ['\\', 't']
  else if c.toNat < 0x20 then
    ['\\', 'u', '0', '0', (c.toNat / 16).digitChar, (c.toNat % 16).digitChar]
  else [c]

/-- A string literal with its quotes. Where there is no text, a surrogate stands alone. -/
def Text.chars : Text → List Char
  | some s => '"' :: (s.toList.flatMap escape ++ ['"'])
  | none => "\"\\ud800\"".toList

/-! ## Reading -/

/-- What the character after a backslash stands for, the hexadecimal form apart. -/
def unescape? : Char → Option Char
  | '"' => some '"'
  | '\\' => some '\\'
  | '/' => some '/'
  | 'b' => some '\x08'
  | 'f' => some '\x0c'
  | 'n' => some '\n'
  | 'r' => some '\r'
  | 't' => some '\t'
  | _ => none

/-- The code numbers of a literal's characters up to its closing quote, and what follows it.
Characters below the blank have to be escaped. -/
def scanCodes : List Char → Option (List Nat × List Char)
  | [] => none
  | '"' :: r => some ([], r)
  | '\\' :: 'u' :: a :: b :: c :: d :: r =>
    match hex? [a, b, c, d] with
    | some n => (scanCodes r).map fun (ns, rest) => (n :: ns, rest)
    | none => none
  | '\\' :: e :: r =>
    match unescape? e with
    | some ch => (scanCodes r).map fun (ns, rest) => (ch.toNat :: ns, rest)
    | none => none
  | ch :: r =>
    if ch = '\\' || ch.toNat < 0x20 then none
    else (scanCodes r).map fun (ns, rest) => (ch.toNat :: ns, rest)

/-- The first half of a surrogate pair. -/
def isHigh (n : Nat) : Bool := 0xD800 ≤ n && n < 0xDC00

/-- The second half of a surrogate pair. -/
def isLow (n : Nat) : Bool := 0xDC00 ≤ n && n < 0xE000

/-- The characters that code numbers stand for, surrogates only in pairs. -/
def joinCodes : List Nat → Option (List Char)
  | [] => some []
  | n :: r =>
    if isLow n then none
    else if isHigh n then
      match r with
      | m :: r' =>
        if isLow m then
          (joinCodes r').map (Char.ofNat (0x10000 + 1024 * (n - 0xD800) + (m - 0xDC00)) :: ·)
        else none
      | [] => none
    else (joinCodes r).map (Char.ofNat n :: ·)

/-- A string literal after its opening quote, and what follows it. -/
def Text.scan (cs : List Char) : Option (Text × List Char) :=
  (scanCodes cs).map fun (ns, rest) => ((joinCodes ns).map String.ofList, rest)

end LatencyGauge.Json
