/-
Numerals and their texts. A proper numeral has digits where the grammar wants them and no leading
zero; spelled in front of anything that does not go on with it, it scans to itself. The numerals of
counts and of finite numbers are proper, and a count of 64 bits is in range as a binary64 number.
-/
import LatencyGauge.Json.Numeral
import LatencyGauge.Proofs.Number.Decimals
import LatencyGauge.Proofs.Number.Range

namespace LatencyGauge.Json

open LatencyGauge.Number

/-! ## The parts of a text -/

/-- The text after the digits before the point, up to the exponent. -/
def fractionChars (fraction : List Digit) : List Char :=
  if fraction.isEmpty then [] else '.' :: digitChars fraction

/-- The text of an optional exponent. -/
def exponentChars : Option Exponent → List Char
  | none => []
  | some e => e.chars

theorem Numeral.chars_append (n : Numeral) (rest : List Char) :
    n.chars ++ rest = (if n.negative then ['-'] else []) ++
      (digitChars n.whole ++ (fractionChars n.fraction ++ (exponentChars n.exponent ++ rest))) := by
  obtain ⟨negative, whole, fraction, exponent⟩ := n
  cases exponent <;> simp [Numeral.chars, fractionChars, exponentChars]

/-- A text that a numeral in front of it does not go on with. -/
def EndsNumeral : List Char → Prop
  | [] => True
  | c :: _ => Digit.ofChar? c = none ∧ c ≠ '.' ∧ c ≠ 'e' ∧ c ≠ 'E'

theorem EndsNumeral.noDigit {rest : List Char} (h : EndsNumeral rest) : NoDigit rest := by
  cases rest with
  | nil => trivial
  | cons c rest => exact h.1

/-- An exponent does not go on with the digits before it, nor does what comes after it. -/
theorem noDigit_exponentChars (exponent : Option Exponent) {rest : List Char}
    (hrest : EndsNumeral rest) :
    NoDigit (exponentChars exponent ++ rest) ∧
      (exponentChars exponent ++ rest).head? ≠ some '.' := by
  cases exponent with
  | none =>
    refine ⟨hrest.noDigit, ?_⟩
    cases rest with
    | nil => simp [exponentChars]
    | cons c rest => simpa [exponentChars] using hrest.2.1
  | some e =>
    cases hcapital : e.capital <;>
      simp [exponentChars, Exponent.chars, hcapital, NoDigit] <;> decide

theorem noDigit_fractionChars (fraction : List Digit) {after : List Char} (hafter : NoDigit after) :
    NoDigit (fractionChars fraction ++ after) := by
  cases fraction with
  | nil => exact hafter
  | cons d ds => exact show Digit.ofChar? '.' = none by decide

/-! ## Scanning what was spelled -/

theorem digitChar_ne_sign (d : Digit) : d.char ≠ '+' ∧ d.char ≠ '-' := by
  revert d
  decide

theorem Exponent.scanSign_digits (d : Digit) (r : List Char) :
    Exponent.scanSign (d.char :: r) = (none, d.char :: r) := by
  have hsigns := digitChar_ne_sign d
  unfold Exponent.scanSign
  split <;> simp_all

/-- An exponent scans to itself. -/
theorem Exponent.scan_chars {e : Exponent} (hdigits : e.digits ≠ []) {rest : List Char}
    (hrest : NoDigit rest) : Numeral.scanExponent (e.chars ++ rest) = some (some e, rest) := by
  obtain ⟨capital, sign, digits⟩ := e
  obtain ⟨d, ds, rfl⟩ := List.exists_cons_of_ne_nil hdigits
  have htake := takeDigits_append (d :: ds) hrest
  rcases sign with _ | plus
  · have hsign := Exponent.scanSign_digits d (digitChars ds ++ rest)
    rw [show d.char :: (digitChars ds ++ rest) = digitChars (d :: ds) ++ rest from rfl] at hsign
    cases capital <;>
      simp [Exponent.chars, Numeral.scanExponent, Exponent.scan, hsign, htake]
  · cases capital <;> cases plus <;>
      simp [Exponent.chars, Numeral.scanExponent, Exponent.scan, Exponent.scanSign, htake]

/-- An optional exponent scans to itself. -/
theorem Numeral.scanExponent_chars {exponent : Option Exponent}
    (hdigits : ∀ e, exponent = some e → e.digits ≠ []) {rest : List Char}
    (hrest : EndsNumeral rest) :
    Numeral.scanExponent (exponentChars exponent ++ rest) = some (exponent, rest) := by
  cases exponent with
  | none =>
    cases rest with
    | nil => rfl
    | cons c rest =>
      obtain ⟨-, -, hsmall, hcapital⟩ := hrest
      simp only [exponentChars, List.nil_append]
      unfold Numeral.scanExponent
      split <;> simp_all
  | some e => exact Exponent.scan_chars (hdigits e rfl) hrest.noDigit

/-- An optional fraction scans to itself. -/
theorem Numeral.scanFraction_chars (fraction : List Digit) {rest : List Char}
    (hrest : NoDigit rest) (hpoint : rest.head? ≠ some '.') :
    Numeral.scanFraction (fractionChars fraction ++ rest) = some (fraction, rest) := by
  cases fraction with
  | nil =>
    simp only [fractionChars, List.isEmpty_nil, if_true, List.nil_append]
    unfold Numeral.scanFraction
    split <;> simp_all
  | cons d ds =>
    have htake := takeDigits_append (d :: ds) hrest
    simp [fractionChars, Numeral.scanFraction, htake]

/-- The digits before the point scan to themselves. -/
theorem Numeral.scanWhole_chars {whole : List Digit} (hwhole : whole ≠ [])
    (hlead : whole.head? = some Digit.zero → whole.length = 1) {rest : List Char}
    (hrest : NoDigit rest) :
    Numeral.scanWhole (digitChars whole ++ rest) = some (whole, rest) := by
  unfold Numeral.scanWhole
  rw [takeDigits_append whole hrest]
  match whole with
  | [] => contradiction
  | [d] => rfl
  | d :: d' :: ds =>
    have hd : d ≠ Digit.zero := by
      rintro rfl
      simpa using hlead rfl
    simp [hd]

/-- A numeral that the grammar allows. -/
structure Numeral.Proper (n : Numeral) : Prop where
  whole : n.whole ≠ []
  lead : n.whole.head? = some Digit.zero → n.whole.length = 1
  exponent : ∀ e, n.exponent = some e → e.digits ≠ []

/-- The digits of a proper numeral start with a digit, not with a sign. -/
theorem Numeral.Proper.not_minus {n : Numeral} (hn : n.Proper) (after : List Char) :
    (digitChars n.whole ++ after).head? ≠ some '-' := by
  obtain ⟨d, ds, hwhole⟩ := List.exists_cons_of_ne_nil hn.whole
  simpa [hwhole, digitChars] using (digitChar_ne_sign d).2

/-- A proper numeral scans to itself. -/
theorem Numeral.scan_chars {n : Numeral} (hn : n.Proper) {rest : List Char}
    (hrest : EndsNumeral rest) : Numeral.scan (n.chars ++ rest) = some (n, rest) := by
  obtain ⟨hdigit, hpoint⟩ := noDigit_exponentChars n.exponent hrest
  have hexponent := Numeral.scanExponent_chars hn.exponent hrest
  have hfraction := Numeral.scanFraction_chars n.fraction hdigit hpoint
  have hwhole := Numeral.scanWhole_chars hn.whole hn.lead (noDigit_fractionChars n.fraction hdigit)
  -- without a sign of its own it must not be taken for a negative one
  have hminus := hn.not_minus (fractionChars n.fraction ++ (exponentChars n.exponent ++ rest))
  rw [Numeral.chars_append]
  generalize
    digitChars n.whole ++ (fractionChars n.fraction ++ (exponentChars n.exponent ++ rest)) =
    body at hwhole hminus ⊢
  obtain ⟨negative, whole, fraction, exponent⟩ := n
  cases negative with
  | true => simp [Numeral.scan, hwhole, hfraction, hexponent]
  | false =>
    cases body with
    | nil => simp [Numeral.scanWhole, takeDigits] at hwhole
    | cons c body =>
      have hc : c ≠ '-' := by simpa using hminus
      simp [Numeral.scan, hwhole, hfraction, hexponent, hc]

/-! ## Numerals that are written -/

theorem Numeral.ofNat_proper (n : Nat) : (Numeral.ofNat n).Proper where
  whole := digits_ne_nil n
  lead := digits_lead n
  exponent := by simp [Numeral.ofNat]

theorem Numeral.positional_proper (negative : Bool) {d : Digit} {ds : List Digit}
    (hd : d ≠ Digit.zero) (e : Int) : (Numeral.positional negative (d :: ds) e).Proper := by
  unfold Numeral.positional
  split
  · exact ⟨by simp, by simp [List.take_succ_cons, hd], by simp⟩
  · exact ⟨by simp, by simp, by simp⟩

theorem Numeral.scientific_proper (negative : Bool) (d : Digit) (ds : List Digit) (e : Int) :
    (Numeral.scientific negative (d :: ds) e).Proper where
  whole := by simp [Numeral.scientific]
  lead := by simp [Numeral.scientific]
  exponent := by
    rintro - ⟨rfl⟩
    exact digits_ne_nil _

/-- The numeral of a finite number is proper. -/
theorem Numeral.ofFloat?_proper {x : Float} {n : Numeral} (h : Numeral.ofFloat? x = some n) :
    n.Proper := by
  obtain ⟨p, -, rfl⟩ := Option.map_eq_some_iff.1 h
  dsimp only
  split
  case isTrue => exact ⟨by simp, by simp, by simp⟩
  case isFalse hmantissa =>
    obtain ⟨d, ds, hdigits, hd⟩ := significant_lead (Nat.pos_of_ne_zero hmantissa) p.exponent
    rw [hdigits]
    split
    · exact Numeral.positional_proper _ hd _
    · exact Numeral.scientific_proper _ d ds _

/-! ## Counts in range -/

theorem le_foldl_digits (a : Nat) (ds : List Digit) :
    a ≤ ds.foldl (fun n d => 10 * n + d.val) a := by
  induction ds generalizing a with
  | nil => exact Nat.le_refl _
  | cons d ds ih =>
    have := ih (10 * a + d.val)
    simp only [List.foldl_cons]
    omega

/-- Digits that fit are all taken up, and none of them counts as a power of ten. -/
theorem Scaled.whole_eq {a : Nat} {power : Int} {ds : List Digit}
    (hfits : ds.foldl (fun n d => 10 * n + d.val) a < 2 ^ 64) :
    Scaled.whole ⟨a, power⟩ ds = ⟨ds.foldl (fun n d => 10 * n + d.val) a, power⟩ := by
  induction ds generalizing a with
  | nil => rfl
  | cons d ds ih =>
    have hadmits : Scaled.admits ⟨a, power⟩ d = true := by
      have := le_foldl_digits (10 * a + d.val) ds
      simp only [List.foldl_cons] at hfits
      simp only [Scaled.admits, Nat.pow_eq, decide_eq_true_eq]
      omega
    simp only [Scaled.whole, hadmits, if_true, List.foldl_cons]
    exact ih hfits

/-- A count of 64 bits is in range as a number. -/
theorem Numeral.float?_ofNat_isSome {n : Nat} (hn : n < 2 ^ 64) :
    (Numeral.ofNat n).float?.isSome = true := by
  have hwhole : Scaled.whole ⟨0, 0⟩ (digits n) = ⟨n, 0⟩ := by
    have hspelled := spelled_digits n
    rw [spelled] at hspelled
    rw [Scaled.whole_eq (by rwa [hspelled]), hspelled]
  have hfinite := ofNat_mul_one_finite hn
  simp [Numeral.float?, Numeral.magnitude?, Numeral.ofNat, hwhole, Scaled.fraction, Scaled.float?,
    scaleFrom, greatestPower, hfinite]

end LatencyGauge.Json
