/-
What the squared deviations from a baseline are made of. Times their number they are the spread of
the samples around their mean plus the squared drift of the mean from the baseline, both taken times
the number again so that they are whole; neither is negative. The spread vanishes only where all
samples are equal, because it is the sum of the squared distances from the mean.
-/
import Mathlib.Algebra.BigOperators.Ring.Finset
import Mathlib.Algebra.Order.Field.Rat
import Mathlib.Data.Rat.Cast.Order
import Mathlib.Tactic.FieldSimp
import Mathlib.Tactic.Ring
import LatencyGauge.Proofs.Statistics.Exact

namespace LatencyGauge

/-! ## Squares of lists -/

section Squares

variable (xs : List Int)

/-- The sum of squares. -/
def sumOfSquares : Int := (xs.map (· ^ 2)).sum

/-- The number of a list times its sum of squares, less the square of its sum. -/
def spread : Int := xs.length * sumOfSquares xs - xs.sum ^ 2

/-- Squares of a multiple less a constant, written out and summed. -/
theorem sum_sq_sub (a c : Int) :
    (xs.map fun x => (a * x - c) ^ 2).sum =
      a ^ 2 * sumOfSquares xs - 2 * a * c * xs.sum + xs.length * c ^ 2 := by
  induction xs with
  | nil => simp [sumOfSquares]
  | cons x xs ih =>
    simp only [sumOfSquares, List.map_cons, List.sum_cons, List.length_cons] at ih ⊢
    push_cast
    rw [ih]
    ring

/-- Times the number of a list, its spread is the sum of the squared distances from the mean, each
taken times that number. -/
theorem length_mul_spread :
    xs.length * spread xs = (xs.map fun x => (xs.length * x - xs.sum) ^ 2).sum := by
  rw [sum_sq_sub, spread]
  ring

/-- Times their number, the squared deviations from a value are the spread and the squared drift. -/
theorem length_mul_sum_sq_sub (b : Int) :
    xs.length * (xs.map fun x => (x - b) ^ 2).sum =
      spread xs + (xs.sum - xs.length * b) ^ 2 := by
  have hsum := sum_sq_sub xs 1 b
  simp only [one_mul] at hsum
  rw [hsum, spread]
  ring

theorem distances_nonneg :
    ∀ d ∈ xs.map fun x => (xs.length * x - xs.sum) ^ 2, (0 : Int) ≤ d := by
  intro d hd
  obtain ⟨x, -, rfl⟩ := List.mem_map.1 hd
  exact sq_nonneg _

variable {xs}

theorem spread_nonneg (hxs : xs ≠ []) : 0 ≤ spread xs := by
  have hlength : (0 : Int) < xs.length := by exact_mod_cast List.length_pos_iff.2 hxs
  have hsum := List.sum_nonneg (distances_nonneg xs)
  rw [← length_mul_spread] at hsum
  exact nonneg_of_mul_nonneg_right hsum hlength

/-- Without spread every element is the mean, and equal elements have no spread. -/
theorem spread_eq_zero_iff (hxs : xs ≠ []) : spread xs = 0 ↔ ∀ x ∈ xs, ∀ y ∈ xs, x = y := by
  have hlength : (xs.length : Int) ≠ 0 := by exact_mod_cast (List.length_pos_iff.2 hxs).ne'
  constructor
  · intro hspread x hx y hy
    have hmean : ∀ z ∈ xs, xs.length * z = xs.sum := by
      intro z hz
      have hsum := length_mul_spread xs
      rw [hspread, mul_zero] at hsum
      have hzero := List.all_zero_of_le_zero_le_of_sum_eq_zero (distances_nonneg xs) hsum.symm
        (List.mem_map_of_mem hz)
      exact sub_eq_zero.1 (pow_eq_zero_iff two_ne_zero |>.1 hzero)
    exact mul_left_cancel₀ hlength ((hmean x hx).trans (hmean y hy).symm)
  · intro hequal
    obtain ⟨x, hx⟩ := List.exists_mem_of_ne_nil xs hxs
    have hconstant : xs = List.replicate xs.length x :=
      List.eq_replicate_iff.2 ⟨rfl, fun y hy => hequal y hy x hx⟩
    rw [spread, sumOfSquares, hconstant]
    simp only [List.map_replicate, List.sum_replicate, List.length_replicate, nsmul_eq_mul]
    ring

end Squares

/-! ## Sums that are not cut off -/

/-- The sum of squares comes to exceed 128 bits while samples are taken up. -/
def Totals.Saturates (t : Totals) : List Cycles → Prop
  | [] => False
  | c :: cs =>
    2 ^ 128 ≤ t.squares.toNat + (distance c t.baseline).toNat ^ 2 ∨ (t.record c).Saturates cs

theorem squaredDeviations_cons (b c : Cycles) (cs : List Cycles) :
    squaredDeviations b (c :: cs) =
      ((distance c b).toNat : Int) ^ 2 + squaredDeviations b cs := by
  simp [squaredDeviations, distance_sq]

/-- As long as it does not, it is exact. -/
theorem Totals.squares_of_not_saturates {t : Totals} {cs : List Cycles} (h : ¬ t.Saturates cs) :
    ((t.recordAll cs).squares.toNat : Int) =
      t.squares.toNat + squaredDeviations t.baseline cs := by
  induction cs generalizing t with
  | nil => simp [Totals.recordAll, squaredDeviations]
  | cons c cs ih =>
    rw [Totals.Saturates, not_or, Nat.not_le] at h
    have hstep := t.record_squares c
    rw [Nat.min_eq_right (by omega)] at hstep
    have hrest := ih h.2
    rw [hstep, Totals.record_baseline] at hrest
    rw [squaredDeviations_cons, ← add_assoc]
    exact_mod_cast hrest

/-! ## Spread and drift -/

/-- Samples as whole numbers. -/
def wholes (xs : List Cycles) : List Int := xs.map fun x => (x.toNat : Int)

theorem squaredDeviations_eq (b : Cycles) (xs : List Cycles) :
    squaredDeviations b xs = ((wholes xs).map fun x => (x - (b.toNat : Int)) ^ 2).sum := by
  simp [squaredDeviations, wholes, Function.comp_def]

theorem wholes_equal_iff (xs : List Cycles) :
    (∀ x ∈ wholes xs, ∀ y ∈ wholes xs, x = y) ↔ ∀ x ∈ xs, ∀ y ∈ xs, x = y := by
  simp [wholes, UInt64.toNat_inj]

section Wholes

variable {t : Totals} {b : Cycles} {xs : List Cycles} (h : t.Exact b xs)

include h

theorem Totals.Exact.count_wholes : (t.count.toNat : Int) = (wholes xs).length := by
  rw [h.count, wholes, List.length_map]

theorem Totals.Exact.sum_wholes : (t.sum.toNat : Int) = (wholes xs).sum := by
  rw [h.sum, Nat.cast_list_sum, List.map_map]
  rfl

theorem Totals.Exact.spread_wholes :
    (t.count.toNat : Int) * (xs.map fun x => (x.toNat : Int) ^ 2).sum - (t.sum.toNat : Int) ^ 2 =
      spread (wholes xs) := by
  have hsquares : (xs.map fun x => (x.toNat : Int) ^ 2).sum = sumOfSquares (wholes xs) := by
    rw [sumOfSquares, wholes, List.map_map]
    rfl
  rw [h.count_wholes, h.sum_wholes, hsquares, spread]

end Wholes

/-- A drift vanishes exactly where the sum over the number is the baseline. -/
theorem drift_eq_zero_iff {n : Int} (hn : n ≠ 0) (sum b : Int) :
    (sum - n * b) ^ 2 = 0 ↔ (sum : ℚ) / n = b := by
  have hn' : (n : ℚ) ≠ 0 := by exact_mod_cast hn
  rw [pow_eq_zero_iff two_ne_zero, sub_eq_zero, div_eq_iff hn', mul_comm n b]
  exact_mod_cast Iff.rfl

/-- The squared deviations of samples from a baseline, times their number, are the spread of the
samples and the squared drift of their sum from that many baselines. Neither is negative; there is
no spread exactly if all samples are equal, and no drift exactly if their mean is the baseline. -/
theorem Totals.squares_split (baseline : Cycles) (xs : List Cycles) (few : xs.length < 2 ^ 64)
    (hxs : xs ≠ []) (hexact : ¬ (Totals.empty baseline).Saturates xs) :
    let t := (Totals.empty baseline).recordAll xs
    let n : Int := t.count.toNat
    let sum : Int := t.sum.toNat
    let spread : Int := n * (xs.map fun x => (x.toNat : Int) ^ 2).sum - sum ^ 2
    let drift : Int := (sum - n * baseline.toNat) ^ 2
    n * t.squares.toNat = spread + drift ∧ 0 ≤ spread ∧ 0 ≤ drift ∧
      (spread = 0 ↔ ∀ x ∈ xs, ∀ y ∈ xs, x = y) ∧
      (drift = 0 ↔ (sum : ℚ) / n = baseline.toNat) := by
  have htotals := Totals.exact_recordAll baseline few
  have hsquares : ((((Totals.empty baseline).recordAll xs).squares.toNat : Nat) : Int) =
      ((wholes xs).map fun x => (x - (baseline.toNat : Int)) ^ 2).sum := by
    rw [Totals.squares_of_not_saturates hexact, ← squaredDeviations_eq]
    simp [Totals.empty]
  have hwholes : wholes xs ≠ [] := by simpa [wholes] using hxs
  have hlength : ((wholes xs).length : Int) ≠ 0 := by
    exact_mod_cast (List.length_pos_iff.2 hwholes).ne'
  dsimp only
  rw [htotals.spread_wholes, htotals.count_wholes, htotals.sum_wholes, hsquares]
  refine ⟨length_mul_sum_sq_sub _ _, spread_nonneg hwholes, sq_nonneg _, ?_, ?_⟩
  · rw [spread_eq_zero_iff hwholes, wholes_equal_iff]
  · exact drift_eq_zero_iff hlength _ _

/-- Samples as far from their baseline as samples can be, on both sides of it. -/
def farApart : List Cycles := [0xffffffffffffffff, 0, 0x8000000000000000]

theorem Totals.squares_split_farApart :
    farApart.length < 2 ^ 64 ∧ farApart ≠ [] ∧
      ¬ (Totals.empty 0x8000000000000000).Saturates farApart ∧
      let t := (Totals.empty 0x8000000000000000).recordAll farApart
      let spread : Int :=
        t.count.toNat * (farApart.map fun x => (x.toNat : Int) ^ 2).sum - (t.sum.toNat : Int) ^ 2
      (t.count.toNat : Int) * t.squares.toNat = spread + 1 ∧ spread ≠ 0 ∧
        ((t.sum.toNat : Int) : ℚ) / (t.count.toNat : Int) ≠ (0x8000000000000000 : Cycles).toNat := by
  have few : farApart.length < 2 ^ 64 := by decide
  have hsome : farApart ≠ [] := by decide
  have hexact : ¬ (Totals.empty 0x8000000000000000).Saturates farApart := by
    simp only [Totals.Saturates, farApart]
    decide +kernel
  obtain ⟨hsplit, -, -, hequal, hmean⟩ := Totals.squares_split _ farApart few hsome hexact
  have hdrift : ((((Totals.empty 0x8000000000000000).recordAll farApart).sum.toNat : Int) -
      ((Totals.empty 0x8000000000000000).recordAll farApart).count.toNat *
        (0x8000000000000000 : Cycles).toNat) ^ 2 = 1 := by decide +kernel
  have hunequal : ¬ ∀ x ∈ farApart, ∀ y ∈ farApart, x = y := by
    intro hequal
    have hends := hequal 0xffffffffffffffff (.head _) 0 (.tail _ (.head _))
    exact absurd (congrArg UInt64.toNat hends) (by decide)
  rw [hdrift] at hsplit hmean
  exact ⟨few, hsome, hexact, hsplit, hequal.not.2 hunequal, hmean.not.1 one_ne_zero⟩

end LatencyGauge
