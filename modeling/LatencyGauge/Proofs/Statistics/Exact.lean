/-
Running totals against the list of the samples they took up. As long as the count fits in its 64
bits nothing else leaves its width: the deviation of a sample fits in 64 bits and its square in 128,
and so does the sum. The sum of squares may exceed 128 bits at any sample; it then stays at the
greatest word, which is the exact sum cut off there, so the order of the samples shows nowhere.
-/
import Mathlib.Algebra.Order.BigOperators.Group.List
import Mathlib.Algebra.Order.Ring.Abs
import Mathlib.Tactic.Linarith
import Mathlib.Tactic.Positivity
import LatencyGauge.Statistics.Summary

namespace LatencyGauge

/-! ## Words -/

/-- The distance of two words is exact. -/
theorem distance_eq (a b : Cycles) : ((distance a b).toNat : Int) = |(a.toNat : Int) - b.toNat| := by
  unfold distance
  split
  case isTrue h =>
    have hlt := UInt64.lt_iff_toNat_lt.1 h
    rw [UInt64.toNat_sub_of_le b a (UInt64.le_of_lt h), abs_of_neg (by omega)]
    omega
  case isFalse h =>
    have hle := UInt64.le_iff_toNat_le.1 (UInt64.not_lt.1 h)
    rw [UInt64.toNat_sub_of_le a b (UInt64.not_lt.1 h), abs_of_nonneg (by omega)]
    omega

theorem distance_sq (a b : Cycles) :
    ((distance a b).toNat : Int) ^ 2 = ((a.toNat : Int) - b.toNat) ^ 2 := by
  rw [distance_eq, sq_abs]

/-- The square of a 64-bit word fits in 128 bits. -/
theorem word_sq_lt (c : Cycles) : c.toNat ^ 2 < 2 ^ 128 := by
  have hlt := c.toNat_lt
  calc c.toNat ^ 2 ≤ (2 ^ 64 - 1) ^ 2 := Nat.pow_le_pow_left (by omega) 2
    _ < 2 ^ 128 := by decide

theorem Wide.toNat_ofCycles (c : Cycles) : (Wide.ofCycles c).toNat = c.toNat := by
  have hlt := c.toNat_lt
  rw [Wide.ofCycles, BitVec.toNat_ofNat, Nat.mod_eq_of_lt (by omega)]

theorem Wide.toNat_square (c : Cycles) :
    (Wide.ofCycles c * Wide.ofCycles c).toNat = c.toNat ^ 2 := by
  rw [BitVec.toNat_mul, Wide.toNat_ofCycles, ← sq, Nat.mod_eq_of_lt (word_sq_lt c)]

theorem Wide.toNat_addSaturating (a b : Wide) :
    (a.addSaturating b).toNat = min (2 ^ 128 - 1) (a.toNat + b.toNat) := by
  unfold Wide.addSaturating
  rw [Nat.pow_eq]
  split
  case isTrue h => rw [BitVec.toNat_add_of_lt h, Nat.min_eq_right (by omega)]
  case isFalse h => rw [BitVec.toNat_allOnes, Nat.min_eq_left (by omega)]

/-! ## Exact sums -/

/-- The exact sum of the squared deviations from a baseline. -/
def squaredDeviations (baseline : Cycles) (xs : List Cycles) : Int :=
  (xs.map fun x => ((x.toNat : Int) - baseline.toNat) ^ 2).sum

theorem squaredDeviations_nonneg (baseline : Cycles) (xs : List Cycles) :
    0 ≤ squaredDeviations baseline xs := by
  refine List.sum_nonneg fun d hd => ?_
  obtain ⟨x, -, rfl⟩ := List.mem_map.1 hd
  exact sq_nonneg _

theorem squaredDeviations_append (baseline : Cycles) (xs ys : List Cycles) :
    squaredDeviations baseline (xs ++ ys) =
      squaredDeviations baseline xs + squaredDeviations baseline ys := by
  simp [squaredDeviations]

theorem squaredDeviations_singleton (baseline x : Cycles) :
    squaredDeviations baseline [x] = ((distance x baseline).toNat : Int) ^ 2 := by
  simp [squaredDeviations, distance_sq]

/-- The sum of words is at most their number times a bound on them. -/
theorem sum_toNat_le {xs : List Cycles} {m : Nat} (hle : ∀ x ∈ xs, x.toNat ≤ m) :
    (xs.map UInt64.toNat).sum ≤ m * xs.length := by
  have h := List.sum_le_card_nsmul (xs.map UInt64.toNat) m (by simpa using hle)
  simpa [Nat.mul_comm] using h

theorem le_sum_toNat {xs : List Cycles} {m : Nat} (hle : ∀ x ∈ xs, m ≤ x.toNat) :
    m * xs.length ≤ (xs.map UInt64.toNat).sum := by
  have h := List.card_nsmul_le_sum (xs.map UInt64.toNat) m (by simpa using hle)
  simpa [Nat.mul_comm] using h

/-- So many words cannot sum to more than 128 bits, and leave room for one more. -/
theorem sum_toNat_lt {xs : List Cycles} (few : xs.length < 2 ^ 64) (c : Cycles) :
    (xs.map UInt64.toNat).sum + c.toNat < 2 ^ 128 := by
  have hsum : (xs.map UInt64.toNat).sum ≤ (2 ^ 64 - 1) * xs.length :=
    sum_toNat_le fun x _ => by have := x.toNat_lt; omega
  have hc := c.toNat_lt
  omega

/-- The greatest of a list, and zero of an empty one, is found in one pass. -/
theorem max?_getD_eq_foldl (ns : List Nat) : ns.max?.getD 0 = ns.foldl max 0 := by
  rw [List.foldl_max, Nat.zero_max]

theorem max?_getD_perm {ns ms : List Nat} (h : ns.Perm ms) : ns.max?.getD 0 = ms.max?.getD 0 := by
  rw [max?_getD_eq_foldl, max?_getD_eq_foldl]
  exact h.foldl_op_eq

/-! ## One sample -/

/-- Totals that tell of samples what is to be known of them, the sum of squares up to the greatest
word of 128 bits. -/
structure Totals.Exact (t : Totals) (b : Cycles) (xs : List Cycles) : Prop where
  baseline : t.baseline = b
  count : t.count.toNat = xs.length
  sum : t.sum.toNat = (xs.map UInt64.toNat).sum
  max : t.max.toNat = (xs.map UInt64.toNat).max?.getD 0
  squares : (t.squares.toNat : Int) = min (2 ^ 128 - 1) (squaredDeviations b xs)

/-- What is computed to take up a sample stays within its width: the count in 64 bits, the sum in
128, the deviation in 64 whatever its sign, and its square in 128. -/
structure Totals.Fits (t : Totals) (c : Cycles) : Prop where
  count : t.count.toNat + 1 < 2 ^ 64
  sum : t.sum.toNat + c.toNat < 2 ^ 128
  deviation : ((distance c t.baseline).toNat : Int) = |(c.toNat : Int) - t.baseline.toNat|
  square : (distance c t.baseline).toNat * (distance c t.baseline).toNat < 2 ^ 128

theorem Totals.exact_empty (baseline : Cycles) : (Totals.empty baseline).Exact baseline [] where
  baseline := rfl
  count := rfl
  sum := rfl
  max := rfl
  squares := by simp [Totals.empty, squaredDeviations]

section Step

variable {t : Totals} {baseline : Cycles} {xs : List Cycles}

/-- Totals with room for one more sample take it up without leaving any width. -/
theorem Totals.Exact.fits (h : t.Exact baseline xs) (few : xs.length + 1 < 2 ^ 64) (c : Cycles) :
    t.Fits c where
  count := by rw [h.count]; exact few
  sum := by rw [h.sum]; exact sum_toNat_lt (by omega) c
  deviation := distance_eq c t.baseline
  square := by rw [← sq]; exact word_sq_lt _

theorem Totals.record_squares (t : Totals) (c : Cycles) :
    (t.record c).squares.toNat =
      min (2 ^ 128 - 1) (t.squares.toNat + (distance c t.baseline).toNat ^ 2) := by
  simp only [Totals.record, Wide.toNat_addSaturating, Wide.toNat_square]

/-- One more sample. -/
theorem Totals.Exact.record (h : t.Exact baseline xs) (few : xs.length + 1 < 2 ^ 64) (c : Cycles) :
    (t.record c).Exact baseline (xs ++ [c]) := by
  have hfits := h.fits few c
  constructor
  case baseline => exact h.baseline
  case count =>
    have hcount := hfits.count
    rw [Totals.record_count, UInt64.toNat_add, h.count, List.length_append] at *
    exact Nat.mod_eq_of_lt few
  case sum =>
    have hsum := hfits.sum
    rw [← Wide.toNat_ofCycles c] at hsum
    simp [Totals.record, BitVec.toNat_add_of_lt hsum, Wide.toNat_ofCycles, h.sum]
  case max =>
    have hmax := h.max
    rw [max?_getD_eq_foldl] at hmax ⊢
    rw [List.map_append, List.foldl_append, ← hmax]
    simp only [Totals.record, UInt64.lt_iff_toNat_lt]
    split <;> simp <;> omega
  case squares =>
    have hnonneg := squaredDeviations_nonneg baseline xs
    have hsquares := h.squares
    have hstep := t.record_squares c
    rw [h.baseline] at hstep
    rw [hstep, squaredDeviations_append, squaredDeviations_singleton]
    push_cast
    -- a sum that was cut off before stays so, as what is added is not negative
    have hsquare : 0 ≤ ((distance c baseline).toNat : Int) ^ 2 := sq_nonneg _
    generalize ((distance c baseline).toNat : Int) ^ 2 = square at hsquare ⊢
    omega

end Step

/-! ## All samples -/

section Run

variable (baseline : Cycles) {xs : List Cycles} (few : xs.length < 2 ^ 64)

include few

/-- The totals of a list of samples are exact. -/
theorem Totals.exact_recordAll : ((Totals.empty baseline).recordAll xs).Exact baseline xs := by
  induction xs using List.reverseRecOn with
  | nil => exact Totals.exact_empty baseline
  | append_singleton xs x ih =>
    have hlength : xs.length + 1 < 2 ^ 64 := by simpa using few
    rw [Totals.recordAll_append]
    exact (ih (by omega)).record hlength x

theorem Totals.fits_recordAll {before after : List Cycles} {c : Cycles}
    (hxs : xs = before ++ c :: after) : ((Totals.empty baseline).recordAll before).Fits c := by
  have hlength : before.length + 1 < 2 ^ 64 := by
    rw [hxs, List.length_append, List.length_cons] at few
    omega
  exact (Totals.exact_recordAll baseline (by omega)).fits hlength c

end Run

/-- Exact totals of the same samples in another order are the same. -/
theorem Totals.Exact.unique {t u : Totals} {b : Cycles} {xs ys : List Cycles} (ht : t.Exact b xs)
    (hu : u.Exact b ys) (hperm : xs.Perm ys) : t = u := by
  have hwords := hperm.map UInt64.toNat
  have hsquares : squaredDeviations b xs = squaredDeviations b ys := (hperm.map _).sum_eq
  have hcount : t.count = u.count := by
    rw [← UInt64.toNat_inj, ht.count, hu.count, hperm.length_eq]
  have hsum : t.sum = u.sum := by
    rw [← BitVec.toNat_inj, ht.sum, hu.sum, hwords.sum_eq]
  have hmax : t.max = u.max := by
    rw [← UInt64.toNat_inj, ht.max, hu.max, max?_getD_perm hwords]
  have htotal : t.squares = u.squares := by
    rw [← BitVec.toNat_inj]
    have ht' := ht.squares
    rw [hsquares, ← hu.squares] at ht'
    exact_mod_cast ht'
  have hbaseline : t.baseline = u.baseline := ht.baseline.trans hu.baseline.symm
  cases t
  cases u
  simp_all

section Bounds

variable {t : Totals} {b : Cycles} {xs : List Cycles}

/-- The sum of samples is at least their number times the least of them. -/
theorem Totals.Exact.le_sum (h : t.Exact b xs) :
    (xs.map UInt64.toNat).min?.getD 0 * t.count.toNat ≤ t.sum.toNat := by
  rw [h.count, h.sum]
  refine le_sum_toNat fun x hx => ?_
  exact List.min?_getD_le_of_mem (List.mem_map_of_mem hx)

theorem Totals.Exact.sum_le (h : t.Exact b xs) : t.sum.toNat ≤ t.max.toNat * t.count.toNat := by
  rw [h.count, h.sum, h.max]
  refine sum_toNat_le fun x hx => ?_
  exact List.le_max?_getD_of_mem (List.mem_map_of_mem hx)

/-- There are no statistics exactly if there was no sample. -/
theorem Totals.Exact.summary?_eq_none_iff (h : t.Exact b xs) : t.summary? = none ↔ xs = [] := by
  rw [← Option.isNone_iff_eq_none, Totals.summary?_isNone, Totals.isEmpty, beq_iff_eq,
    ← UInt64.toNat_inj, h.count]
  simp

end Bounds

/-- Fewer samples than a count of 64 bits can tell are recorded exactly: the totals are the number
of the samples, their sum, the greatest of them and the sum of their squared deviations cut off at
128 bits, and nothing on the way leaves its width. So the order of the samples does not matter, the
sum lies between the least and the greatest sample times their number, and there are statistics
exactly if there was a sample. -/
theorem Totals.recordAll_exact (baseline : Cycles) (xs : List Cycles) (few : xs.length < 2 ^ 64) :
    let t := (Totals.empty baseline).recordAll xs
    t.Exact baseline xs ∧
    (∀ before c after, xs = before ++ c :: after →
      ((Totals.empty baseline).recordAll before).Fits c) ∧
    (∀ ys, xs.Perm ys → (Totals.empty baseline).recordAll ys = t) ∧
    (xs.map UInt64.toNat).min?.getD 0 * t.count.toNat ≤ t.sum.toNat ∧
    t.sum.toNat ≤ t.max.toNat * t.count.toNat ∧
    (t.summary? = none ↔ xs = []) := by
  have hexact := Totals.exact_recordAll baseline few
  refine ⟨hexact, ?_, ?_, hexact.le_sum, hexact.sum_le, hexact.summary?_eq_none_iff⟩
  · intro before c after hxs
    exact Totals.fits_recordAll baseline few hxs
  · intro ys hperm
    have hother := Totals.exact_recordAll baseline (hperm.length_eq ▸ few)
    exact hother.unique hexact hperm.symm

/-- Samples on both sides of the baseline, the squares of two of which exceed 128 bits together. -/
def extremes : List Cycles := [0xffffffffffffffff, 3, 0xffffffffffffffff, 0]

theorem Totals.recordAll_exact_cutOff :
    extremes.length < 2 ^ 64 ∧ 2 ^ 128 ≤ squaredDeviations 1 extremes ∧
      let t := (Totals.empty 1).recordAll extremes
      t.count.toNat = 4 ∧ t.sum.toNat = 2 ^ 65 + 1 ∧ t.max.toNat = 2 ^ 64 - 1 ∧
      (t.squares.toNat : Int) = 2 ^ 128 - 1 ∧
      (Totals.empty 1).recordAll extremes.reverse = t ∧ t.summary? ≠ none := by
  have few : extremes.length < 2 ^ 64 := by decide
  have hgreat : 2 ^ 128 ≤ squaredDeviations 1 extremes := by decide +kernel
  obtain ⟨hexact, -, hperm, -, -, hnone⟩ := Totals.recordAll_exact 1 extremes few
  refine ⟨few, hgreat, hexact.count, hexact.sum.trans (by decide +kernel),
    hexact.max.trans (by decide +kernel), ?_, hperm _ (List.reverse_perm _).symm, ?_⟩
  · rw [hexact.squares]
    omega
  · rw [Ne, hnone]
    decide

end LatencyGauge
