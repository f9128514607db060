/-
Decimal digits and the shortest decimal of a number. Only zero is written with a zero in front, the
number of digits tells the size, and the shortest decimal of a positive number is positive: zero is
outside every rounding interval, and the grid of seventeen digits is fine enough to be above it.
-/
import Mathlib.Algebra.Order.Ring.Nat
import Mathlib.Data.List.DropRight
import Mathlib.Tactic.Positivity
import LatencyGauge.Number.Shortest

namespace LatencyGauge.Number

/-! ## Digits -/

theorem digits_eq_append {n : Nat} (h : 10 ≤ n) :
    digits n = digits (n / 10) ++ [⟨n % 10, Nat.mod_lt n (by decide)⟩] := by
  rw [digits, dif_neg (by omega)]

/-- A positive number is not written with a zero in front. -/
theorem digits_head_ne_zero {n : Nat} (hn : 0 < n) : (digits n).head? ≠ some Digit.zero := by
  by_cases h : n < 10
  · rw [digits, dif_pos h]
    simp [Digit.zero, Fin.ext_iff]
    omega
  · have ih := digits_head_ne_zero (n := n / 10) (by omega)
    obtain ⟨d, ds, hds⟩ := List.exists_cons_of_ne_nil (digits_ne_nil (n / 10))
    rw [digits_eq_append (by omega)]
    simpa [hds] using ih
termination_by n
decreasing_by omega

/-- Zero itself is the one number with a zero in front. -/
theorem digits_lead (n : Nat) (h : (digits n).head? = some Digit.zero) : (digits n).length = 1 := by
  rcases Nat.eq_zero_or_pos n with rfl | hn
  · rw [digits, dif_pos (by decide)]
    rfl
  · exact absurd h (digits_head_ne_zero hn)

theorem lt_pow_length_digits (n : Nat) : n < 10 ^ (digits n).length := by
  by_cases h : n < 10
  · rw [digits, dif_pos h]
    simpa using h
  · have ih := lt_pow_length_digits (n / 10)
    rw [digits_eq_append (by omega), List.length_append, List.length_singleton, pow_succ]
    omega
termination_by n
decreasing_by omega

theorem pow_length_digits_le {n : Nat} (hn : 0 < n) : 10 ^ ((digits n).length - 1) ≤ n := by
  by_cases h : n < 10
  · rw [digits, dif_pos h]
    simpa using Nat.succ_le_of_lt hn
  · have ih := pow_length_digits_le (n := n / 10) (by omega)
    have hlength : 0 < (digits (n / 10)).length := List.length_pos_iff.2 (digits_ne_nil _)
    rw [digits_eq_append (by omega), List.length_append, List.length_singleton,
      show (digits (n / 10)).length + 1 - 1 = (digits (n / 10)).length - 1 + 1 by omega, pow_succ]
    omega
termination_by n
decreasing_by omega

/-! ## The shortest decimal -/

variable {m : Nat}

theorem lowerEnd_pos (hm : 0 < m) (q : Int) : 0 < lowerEnd m q := by
  unfold lowerEnd
  split <;> omega

/-- Zero lies in no rounding interval. -/
theorem coefficient_pos_of_rounds (hm : 0 < m) {q : Int} {d : Decimal} (h : rounds m q d = true) :
    0 < d.coefficient := by
  obtain ⟨coefficient, e⟩ := d
  by_contra hzero
  obtain rfl : coefficient = 0 := by simpa using hzero
  have hend := lowerEnd_pos hm q
  have hpos : 0 < lowerEnd m q * 2 ^ (q - 2).toNat * 10 ^ (-e).toNat := by positivity
  have hlow : Decimal.cmp ⟨0, e⟩ (lowerEnd m q) (q - 2) = .lt := by
    simp only [Decimal.cmp, Nat.pow_eq, Nat.zero_mul]
    exact Nat.compare_eq_lt.2 hpos
  simp [rounds, hlow] at h

/-- A decimal that was chosen rounds to the number. -/
theorem rounds_of_candidate? {q e : Int} {d : Decimal} (h : candidate? m q e = some d) :
    rounds m q d = true := by
  unfold candidate? at h
  dsimp only at h
  split at h
  case h_1 => contradiction
  case h_2 hbelow _ => exact Option.some.inj h ▸ hbelow
  case h_3 _ habove => exact Option.some.inj h ▸ habove
  case h_4 hbelow habove =>
    split at h
    case h_1 => exact Option.some.inj h ▸ hbelow
    case h_2 => exact Option.some.inj h ▸ habove
    case h_3 =>
      rw [← Option.some.inj h]
      split
      · exact hbelow
      · exact habove

/-- A search finds a positive decimal, if the last grid it may fall back on has one. -/
theorem searchFrom_pos (hm : 0 < m) {q : Int} {tries : Nat} {e : Int}
    (hlast : 0 < (floorAt m q (e - tries)).coefficient) :
    0 < (searchFrom m q e tries).coefficient := by
  induction tries generalizing e with
  | zero => simpa [searchFrom] using hlast
  | succ tries ih =>
    unfold searchFrom
    split
    case h_1 d hd => exact coefficient_pos_of_rounds hm (rounds_of_candidate? hd)
    case h_2 =>
      apply ih
      rwa [show e - 1 - (tries : Int) = e - (tries + 1 : Nat) by omega]

/-- A grid that is at least as fine as the leading digit has a positive decimal. -/
theorem floorAt_pos (hm : 0 < m) {q e : Int} (he : e ≤ leadingExponent m q) :
    0 < (floorAt m q e).coefficient := by
  unfold leadingExponent at he
  simp only [Nat.pow_eq] at he
  simp only [floorAt, Nat.pow_eq]
  have hnum : 0 < m * 2 ^ q.toNat := by positivity
  have hden : 0 < 2 ^ (-q).toNat := by positivity
  generalize m * 2 ^ q.toNat = num at he hnum ⊢
  generalize 2 ^ (-q).toNat = den at he hden ⊢
  apply Nat.div_pos _ (by positivity)
  split at he
  case isTrue hle =>
    have hquotient := pow_length_digits_le (Nat.div_pos hle hden)
    calc den * 10 ^ e.toNat
        ≤ den * 10 ^ ((digits (num / den)).length - 1) := by
          gcongr
          · decide
          · omega
      _ ≤ num := (Nat.mul_comm _ _).trans_le ((Nat.le_div_iff_mul_le hden).1 hquotient)
      _ ≤ num * 10 ^ (-e).toNat := Nat.le_mul_of_pos_right _ (by positivity)
  case isFalse hlt =>
    -- below one the digits of the inverse say how many zeros follow the point
    have hquotient := lt_pow_length_digits ((den - 1) / num)
    rw [Nat.div_lt_iff_lt_mul hnum] at hquotient
    have hzero : e.toNat = 0 := by omega
    calc den * 10 ^ e.toNat
        = den := by rw [hzero, pow_zero, Nat.mul_one]
      _ ≤ num * 10 ^ (digits ((den - 1) / num)).length := by
          rw [Nat.mul_comm]
          omega
      _ ≤ num * 10 ^ (-e).toNat := by
          gcongr
          · decide
          · omega

/-- The shortest decimal of a positive number is positive. -/
theorem shortest_pos (hm : 0 < m) (q : Int) : 0 < (shortest m q).coefficient :=
  searchFrom_pos hm (floorAt_pos hm (by omega))

/-- The significant digits of a positive number start with one that is not zero. -/
theorem significant_lead (hm : 0 < m) (q : Int) :
    ∃ d ds, (significant m q).1 = d :: ds ∧ d ≠ Digit.zero := by
  have hpos := shortest_pos hm q
  obtain ⟨d, ds, hdigits⟩ := List.exists_cons_of_ne_nil (digits_ne_nil (shortest m q).coefficient)
  have hd : d ≠ Digit.zero := by
    rintro rfl
    exact digits_head_ne_zero hpos (by rw [hdigits]; rfl)
  have hdrop : (significant m q).1 = List.rdropWhile (· == Digit.zero) (d :: ds) := by
    rw [← hdigits]
    rfl
  -- zeros are dropped from the end only, and not all digits are zero
  have hprefix : (significant m q).1 <+: d :: ds := hdrop ▸ List.rdropWhile_prefix _ _
  have hkeeps : (significant m q).1 ≠ [] := by
    rw [hdrop, Ne, List.rdropWhile_eq_nil_iff]
    intro hall
    simpa [hd] using hall d (by simp)
  obtain ⟨d', ds', hsignificant⟩ := List.exists_cons_of_ne_nil hkeeps
  rw [hsignificant] at hprefix
  obtain ⟨rfl, -⟩ := List.cons_prefix_cons.1 hprefix
  exact ⟨d', ds', hsignificant, hd⟩

end LatencyGauge.Number
