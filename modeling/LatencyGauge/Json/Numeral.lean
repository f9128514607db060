/-
Numerals of JSON text, kept as they are spelled: sign, digits before and after the point, and
exponent. Spelling a numeral and scanning it gives it back. A numeral stands for a 64-bit count
only if it is a plain natural number in range, and for a binary64 number by the rule of
`Numeral.float?`.
-/
import LatencyGauge.Number.Shortest

namespace LatencyGauge.Json

open LatencyGauge.Number

/-! ## Spelling -/

/-- How an exponent is introduced: the letter, and the sign if one is written. -/
structure Exponent where
  capital : Bool
  sign : Option Bool
  digits : List Digit
deriving DecidableEq, Repr

/-- A numeral as it is spelled; no fraction means that no point is written. -/
structure Numeral where
  negative : Bool
  whole : List Digit
  fraction : List Digit
  exponent : Option Exponent
deriving DecidableEq, Repr

/-- The text of an exponent; a sign of `true` is a plus. -/
def Exponent.chars (e : Exponent) : List Char :=
  (if e.capital then 'E' else 'e') ::
    ((match e.sign with | none => [] | some true => ['+'] | some false => ['-']) ++
      digitChars e.digits)

/-- The text of a numeral. -/
def Numeral.chars (n : Numeral) : List Char :=
  (if n.negative then ['-'] else []) ++ digitChars n.whole ++
    (if n.fraction.isEmpty then [] else '.' :: digitChars n.fraction) ++
    (match n.exponent with | none => [] | some e => e.chars)

/-! ## Scanning -/

/-- The sign of an exponent, if one is written. -/
def Exponent.scanSign : List Char → Option Bool × List Char
  | '+' :: r => (some true, r)
  | '-' :: r => (some false, r)
  | r => (none, r)

/-- An exponent after its letter; it needs a digit. -/
def Exponent.scan (capital : Bool) (cs : List Char) : Option (Exponent × List Char) :=
  let (sign, r) := Exponent.scanSign cs
  match takeDigits r with
  | ([], _) => none
  | (ds, rest) => some (⟨capital, sign, ds⟩, rest)

/-- An optional exponent. -/
def Numeral.scanExponent : List Char → Option (Option Exponent × List Char)
  | 'e' :: r => (Exponent.scan false r).map fun (e, rest) => (some e, rest)
  | 'E' :: r => (Exponent.scan true r).map fun (e, rest) => (some e, rest)
  | r => some (none, r)

/-- An optional fraction; a point needs a digit after it. -/
def Numeral.scanFraction : List Char → Option (List Digit × List Char)
  | '.' :: r =>
    match takeDigits r with
    | ([], _) => none
    | (ds, rest) => some (ds, rest)
  | r => some ([], r)

/-- The digits before the point: a lone zero, or digits that do not start with one. -/
def Numeral.scanWhole (cs : List Char) : Option (List Digit × List Char) :=
  match takeDigits cs with
  | ([], _) => none
  | ([d], rest) => some ([d], rest)
  | (d :: ds, rest) => if d = Digit.zero then none else some (d :: ds, rest)

/-- A numeral at the start of a text. -/
def Numeral.scan (cs : List Char) : Option (Numeral × List Char) :=
  let (negative, cs) := match cs with
    | '-' :: r => (true, r)
    | r => (false, r)
  (Numeral.scanWhole cs).bind fun (whole, cs) =>
  (Numeral.scanFraction cs).bind fun (fraction, cs) =>
  (Numeral.scanExponent cs).map fun (exponent, cs) => (⟨negative, whole, fraction, exponent⟩, cs)

/-! ## Counts -/

/-- The numeral of a natural number. -/
def Numeral.ofNat (n : Nat) : Numeral := ⟨false, digits n, [], none⟩

/-- The numeral of a whole number. -/
def Numeral.ofInt (n : Int) : Numeral := ⟨n < 0, digits n.natAbs, [], none⟩

/-- The natural number that a numeral spells without sign, point and exponent. -/
def Numeral.nat? (n : Numeral) : Option Nat :=
  if n.negative || !n.fraction.isEmpty || n.exponent.isSome then none else some (spelled n.whole)

/-- The whole number that a numeral spells without point and exponent; minus zero spells none. -/
def Numeral.int? (n : Numeral) : Option Int :=
  if !n.fraction.isEmpty || n.exponent.isSome then none
  else if n.negative then
    if spelled n.whole = 0 then none else some (-(spelled n.whole : Int))
  else some (spelled n.whole)

/-- The count that a numeral stands for, if it fits in 64 bits. -/
def Numeral.word? (n : Numeral) : Option UInt64 :=
  match n.nat? with
  | some v => if v < Nat.pow 2 64 then some (UInt64.ofNat v) else none
  | none => none

theorem Numeral.word?_ofNat (w : UInt64) : (Numeral.ofNat w.toNat).word? = some w := by
  simp [Numeral.word?, Numeral.nat?, Numeral.ofNat, spelled_digits, w.toNat_lt]

/-! ## Binary64 numbers: reading -/

/-- A significand of at most 64 bits, and the power of ten it is multiplied by. -/
structure Scaled where
  significand : Nat
  power : Int
deriving DecidableEq, Repr

/-- Whether a further digit still leaves the significand within 64 bits. -/
def Scaled.admits (s : Scaled) (d : Digit) : Bool := 10 * s.significand + d.val < Nat.pow 2 64

/-- Takes up the digits before the point: the leading ones that fit, every other one counting as
a power of ten. -/
def Scaled.whole (s : Scaled) : List Digit → Scaled
  | [] => s
  | d :: ds =>
    if s.admits d then Scaled.whole ⟨10 * s.significand + d.val, s.power⟩ ds
    else ⟨s.significand, s.power + (ds.length + 1)⟩

/-- Takes up the digits after the point: the leading ones that fit, and no others. -/
def Scaled.fraction (s : Scaled) : List Digit → Scaled
  | [] => s
  | d :: ds =>
    if s.admits d then Scaled.fraction ⟨10 * s.significand + d.val, s.power - 1⟩ ds else s

/-- Exponents are taken up to this size. -/
def greatestExponent : Nat := Nat.pow 2 31 - 1

/-- The greatest power of ten that a binary64 number can be multiplied or divided by at once. -/
def greatestPower : Nat := 308

/-- Scales by a power of ten in binary64 arithmetic: one multiplication or division, after as many
divisions by the greatest power as it takes; `steps` bounds those. Too large a result is refused. -/
def scaleFrom (x : Float) (power : Int) : Nat → Option Float
  | 0 => some 0.0
  | steps + 1 =>
    if power.natAbs ≤ greatestPower then
      if 0 ≤ power then
        let y := x * powTen power.natAbs
        if y.isInf then none else some y
      else some (x / powTen power.natAbs)
    else if x == 0.0 then some x
    else if 0 ≤ power then none
    else scaleFrom (x / powTen greatestPower) (power + greatestPower) steps

/-- The value of a scaled significand. Three divisions bring any significand to zero. -/
def Scaled.float? (s : Scaled) : Option Float := scaleFrom (Number.ofNat s.significand) s.power 5

/-- The magnitude of a numeral. An exponent out of bounds leaves nothing but zero or an overflow. -/
def Numeral.magnitude? (n : Numeral) : Option Float :=
  let s := (Scaled.whole ⟨0, 0⟩ n.whole).fraction n.fraction
  match n.exponent with
  | none => s.float?
  | some e =>
    let size := spelled e.digits
    let down := e.sign == some false
    if greatestExponent < size then
      if s.significand = 0 || down then some 0.0 else none
    else
      Scaled.float? ⟨s.significand, if down then s.power - size else s.power + size⟩

/-- The binary64 number that a numeral stands for, if it is in range. -/
def Numeral.float? (n : Numeral) : Option Float :=
  n.magnitude?.map fun x => if n.negative then -x else x

/-! ## Binary64 numbers: writing -/

/-- Decimal exponents that are written positionally. -/
structure FloatLayout where
  least : Int
  bound : Int

/-- Numbers from `0.00001` up to sixteen whole digits are written positionally, all others with an
exponent, whose sign is written always. -/
def layout : FloatLayout := ⟨-5, 16⟩

/-- Significant digits with a leading exponent in positional notation, with at least one digit
after the point. -/
def Numeral.positional (negative : Bool) (ds : List Digit) (e : Int) : Numeral :=
  if 0 ≤ e then
    let places := e.toNat + 1
    let whole := ds.take places ++ List.replicate (places - ds.length) Digit.zero
    let fraction := if ds.length ≤ places then [Digit.zero] else ds.drop places
    ⟨negative, whole, fraction, none⟩
  else ⟨negative, [Digit.zero], List.replicate ((-e).toNat - 1) Digit.zero ++ ds, none⟩

/-- Significant digits with a leading exponent in scientific notation. -/
def Numeral.scientific (negative : Bool) (ds : List Digit) (e : Int) : Numeral :=
  ⟨negative, ds.take 1, ds.drop 1, some ⟨false, some (0 ≤ e), digits e.natAbs⟩⟩

/-- The shortest numeral of a finite number. -/
def Numeral.ofFloat? (x : Float) : Option Numeral :=
  (parts? x).map fun p =>
    if p.mantissa = 0 then ⟨p.negative, [Digit.zero], [Digit.zero], none⟩
    else
      let (ds, e) := significant p.mantissa p.exponent
      if layout.least ≤ e ∧ e < layout.bound then Numeral.positional p.negative ds e
      else Numeral.scientific p.negative ds e

end LatencyGauge.Json
