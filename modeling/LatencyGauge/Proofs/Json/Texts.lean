/-
String literals and their texts. Whatever characters a text has, its literal scans back to it: each
way of escaping is undone, and no character is half a surrogate pair, so none is joined with the
next. The literal that spells no text scans to that as well. And so does every other literal of the
grammar: it scans to the code numbers that its characters and escapes stand for.
-/
import Mathlib.Tactic.SplitIfs
import LatencyGauge.Json.Text

namespace LatencyGauge.Json

open Number (hex?)

/-! ## Single characters -/

theorem hex?_control :
    ∀ k < 0x20, hex? ['0', '0', (k / 16).digitChar, (k % 16).digitChar] = some k := by
  decide

/-- A character that is written as it is scans to its code number. -/
theorem scanCodes_plain {c : Char} (hquote : c ≠ '"') (hbackslash : c ≠ '\\')
    (hcode : ¬ c.toNat < 0x20) (rest : List Char) :
    scanCodes (c :: rest) = (scanCodes rest).map fun (ns, r) => (c.toNat :: ns, r) := by
  have hplain : ¬ (decide (c = '\\') || decide (c.toNat < 0x20)) = true := by
    simp only [Bool.or_eq_true, decide_eq_true_eq, not_or]
    exact ⟨hbackslash, hcode⟩
  rw [scanCodes.eq_def]
  split
  case h_5 heq =>
    obtain ⟨rfl, rfl⟩ := List.cons.inj heq
    rw [if_neg hplain]
  all_goals simp_all

/-- An escaped character scans to its code number. -/
theorem scanCodes_escape (c : Char) (rest : List Char) :
    scanCodes (escape c ++ rest) = (scanCodes rest).map fun (ns, r) => (c.toNat :: ns, r) := by
  unfold escape
  split_ifs with hquote hbackslash hb hf hn hr ht hcontrol
  all_goals try (subst c; rfl)
  · have hhex := hex?_control c.toNat hcontrol
    simp only [List.cons_append, List.nil_append, scanCodes, hhex]
  · exact scanCodes_plain hquote hbackslash hcontrol rest

/-! ## Texts -/

theorem scanCodes_flatMap (cs rest : List Char) :
    scanCodes (cs.flatMap escape ++ '"' :: rest) = some (cs.map Char.toNat, rest) := by
  induction cs with
  | nil => simp [scanCodes]
  | cons c cs ih =>
    rw [List.flatMap_cons, List.append_assoc, scanCodes_escape, ih]
    rfl

theorem isLow_char (c : Char) : isLow c.toNat = false := by
  have hvalid := c.valid
  simp only [UInt32.isValidChar, Nat.isValidChar] at hvalid
  simp only [isLow, Char.toNat, Bool.and_eq_false_iff, decide_eq_false_iff_not]
  omega

theorem isHigh_char (c : Char) : isHigh c.toNat = false := by
  have hvalid := c.valid
  simp only [UInt32.isValidChar, Nat.isValidChar] at hvalid
  simp only [isHigh, Char.toNat, Bool.and_eq_false_iff, decide_eq_false_iff_not]
  omega

theorem joinCodes_map (cs : List Char) : joinCodes (cs.map Char.toNat) = some cs := by
  induction cs with
  | nil => rfl
  | cons c cs ih =>
    rw [List.map_cons, joinCodes.eq_def]
    simp [isLow_char, isHigh_char, ih]

/-- A string literal scans to the text it was written for. -/
theorem Text.scan_chars (t : Text) : ∃ body, Text.chars t = '"' :: body ∧
    ∀ rest, Text.scan (body ++ rest) = some (t, rest) := by
  cases t with
  | none => exact ⟨['\\', 'u', 'd', '8', '0', '0', '"'], rfl, fun rest => rfl⟩
  | some s =>
    refine ⟨_, rfl, fun rest => ?_⟩
    simp [Text.scan, scanCodes_flatMap, joinCodes_map]

/-! ## Other literals -/

/-- The characters between the quotes of a literal, and the code numbers that they stand for: a
character stands for itself, and an escape of either form may stand for any that it can. -/
inductive Codes : List Nat → List Char → Prop
  | done : Codes [] []
  | plain {c : Char} {ns : List Nat} {cs : List Char} (hquote : c ≠ '"') (hbackslash : c ≠ '\\')
      (hcode : ¬ c.toNat < 0x20) (h : Codes ns cs) : Codes (c.toNat :: ns) (c :: cs)
  | short {e c : Char} {ns : List Nat} {cs : List Char} (he : unescape? e = some c)
      (h : Codes ns cs) : Codes (c.toNat :: ns) ('\\' :: e :: cs)
  | hexadecimal {a b c d : Char} {n : Nat} {ns : List Nat} {cs : List Char}
      (hn : hex? [a, b, c, d] = some n) (h : Codes ns cs) :
      Codes (n :: ns) ('\\' :: 'u' :: a :: b :: c :: d :: cs)

/-- A character after a backslash that stands for one scans to its code number. -/
theorem scanCodes_short {e c : Char} (he : unescape? e = some c) (rest : List Char) :
    scanCodes ('\\' :: e :: rest) = (scanCodes rest).map fun (ns, r) => (c.toNat :: ns, r) := by
  have hu : e ≠ 'u' := by
    rintro rfl
    contradiction
  rw [scanCodes.eq_def]
  split
  case h_5 hnotShort heq =>
    obtain ⟨rfl, rfl⟩ := List.cons.inj heq
    exact absurd rfl (hnotShort e rest rfl)
  all_goals simp_all

/-- Every literal scans to its code numbers. -/
theorem Codes.scan {ns : List Nat} {cs : List Char} (h : Codes ns cs) (rest : List Char) :
    scanCodes (cs ++ '"' :: rest) = some (ns, rest) := by
  induction h with
  | done => simp [scanCodes]
  | plain hquote hbackslash hcode h ih =>
    rw [List.cons_append, scanCodes_plain hquote hbackslash hcode, ih]
    rfl
  | short he h ih =>
    rw [List.cons_append, List.cons_append, scanCodes_short he, ih]
    rfl
  | hexadecimal hn h ih => simp [scanCodes, hn, ih]

end LatencyGauge.Json
