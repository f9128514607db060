/-
Counts of 64 bits as binary64 numbers. The number nearest to one has an exponent far below the
greatest, and a product with one keeps it there: rounding a product drops bits of its mantissa and
adds at most as many to its exponent. So reading a count as a number never overflows.
-/
import Mathlib.Algebra.Order.Ring.Nat
import Mathlib.Tactic.Positivity
import Mathlib.Tactic.Ring
import LatencyGauge.Number.Binary64

namespace LatencyGauge.Number

open Float.Model Float.Model.UnpackedFloat

/-! ## Numbers of moderate size -/

/-- An unpacked number that is zero, or finite with a mantissa and an exponent in bounds. -/
inductive Moderate (size : Nat) (bound : Int) : UnpackedFloat → Prop
  | zero (sign : Sign) : Moderate size bound (.zero sign)
  | finite {sign : Sign} {mantissa : Nat} {exponent : Int} (hpos : 0 < mantissa)
      (hmantissa : mantissa < 2 ^ size) (hexponent : exponent ≤ bound) :
      Moderate size bound (.finite sign mantissa exponent hpos)

theorem exponentBias_eq : (Format.binary64.exponentBias : Int) = 1023 := rfl

/-- A pattern whose exponent field is not all ones is that of a moderate number. -/
theorem unpack_moderate {b : BitVec 64} {field : Nat}
    (h : (@unpackExponent .binary64 b).toNat ≤ field) (hfield : field < 2047) :
    Moderate 53 (field - 1074) (UnpackedFloat.unpack .binary64 b) := by
  have hones : @unpackExponent .binary64 b ≠ -1#11 := by
    intro he
    have hnat : (-1#11 : BitVec 11).toNat = 2047 := by decide
    rw [he, hnat] at h
    omega
  have hmantissa := (@unpackMantissa .binary64 b).isLt
  unfold UnpackedFloat.unpack
  rw [if_neg hones]
  by_cases hzero : @unpackExponent .binary64 b = 0#11
  · rw [if_pos hzero]
    by_cases hnone : @unpackMantissa .binary64 b = 0#52
    · rw [dif_pos hnone]
      exact .zero _
    · rw [dif_neg hnone]
      refine .finite _ (hmantissa.trans (by decide)) ?_
      simp [hzero, exponentBias_eq]
  · rw [if_neg hzero]
    refine .finite _ ?_ ?_
    · exact (1#1 ++ @unpackMantissa .binary64 b).isLt
    · simp [exponentBias_eq]
      omega

/-- The exponent field that a moderate number is packed with. -/
theorem unpackExponent_pack {size : Nat} {bound : Int} {u : UnpackedFloat}
    (hu : Moderate size bound u) (hbound : bound ≤ 971) :
    (@unpackExponent .binary64 (UnpackedFloat.pack .binary64 u)).toNat ≤
      (bound + 1075).toNat := by
  cases hu with
  | zero sign =>
    show (@unpackExponent .binary64 (packedZero .binary64 sign)).toNat ≤ (bound + 1075).toNat
    simp [packedZero, unpackExponent_packComponents]
  | @finite sign mantissa exponent hpos hmantissa hexponent =>
    unfold UnpackedFloat.pack
    dsimp only
    split
    case isTrue htoo =>
      simp only [exponentBias_eq] at htoo
      omega
    case isFalse =>
      split
      · rw [unpackExponent_packComponents, BitVec.toNat_ofNat]
        refine (Nat.mod_le _ _).trans ?_
        simp only [exponentBias_eq]
        omega
      · simp [unpackExponent_packComponents]

theorem isInf_eq_false {x : Float} {size : Nat} {bound : Int}
    (h : Moderate size bound x.toModel.unpack) : x.isInf = false := by
  unfold Float.isInf Float.Model.isInf
  generalize x.toModel.unpack = u at h
  cases h <;> rfl

/-- Packing and unpacking leaves a moderate number moderate. -/
theorem pack_moderate {size : Nat} {bound : Int} {u : UnpackedFloat} (hu : Moderate size bound u)
    (hlow : -1075 ≤ bound) (hbound : bound ≤ 971) :
    Moderate 53 (bound + 1) (Float.Model.pack u).unpack := by
  have hfield := unpackExponent_pack hu hbound
  have h := unpack_moderate hfield (by omega)
  rwa [show ((bound + 1075).toNat : Int) - 1074 = bound + 1 by omega] at h

/-! ## Rounding -/

theorem shiftRight_mantissa_le (em : ExtendedMantissa) (k : Nat) :
    (em >>> k).mantissa ≤ em.mantissa := by
  induction k with
  | zero => exact Nat.le_refl _
  | succ k ih => exact (Nat.div_le_self _ 2).trans ih

theorem roundedMantissa_le (em : ExtendedMantissa) : em.roundedMantissa ≤ em.mantissa + 1 := by
  obtain ⟨mantissa, roundBit, stickyBit⟩ := em
  cases roundBit <;> cases stickyBit <;>
    simp [ExtendedMantissa.roundedMantissa, ExtendedMantissa.accuracy,
      Accuracy.roundToNearestEven]
  omega

/-- Bringing a mantissa to its target drops bits and adds at most as many to the exponent. -/
theorem shiftToTargetExponent_le {mantissa size : Nat} (hmantissa : mantissa < 2 ^ size)
    (exponent : Int) {bound : Int} (hexponent : exponent ≤ bound) (hbound : -1074 ≤ bound) :
    (shiftToTargetExponent .binary64 mantissa exponent .exact).1.mantissa ≤ mantissa ∧
      (shiftToTargetExponent .binary64 mantissa exponent .exact).2 ≤ bound + size := by
  refine ⟨shiftRight_mantissa_le _ _, ?_⟩
  have hlog : mantissa.log2 ≤ size := by
    rcases Nat.eq_zero_or_pos mantissa with rfl | hpos
    · simp
    · exact ((Nat.log2_lt (by omega)).2 hmantissa).le
  have hleast : Format.binary64.minExponent = -1074 := by decide
  have hbits : (Format.binary64.mantissaBits : Int) = 53 := rfl
  simp only [shiftToTargetExponent, shiftToExponent, Format.targetExponent, totalExponent, hleast,
    hbits]
  omega

/-- Rounding leaves a number moderate. -/
theorem roundWithAccuracy_moderate {mantissa size : Nat} (hmantissa : mantissa < 2 ^ size)
    (sign : Sign) {exponent bound : Int} (hexponent : exponent ≤ bound) (hbound : -1074 ≤ bound) :
    Moderate (size + 1) (bound + 2 * size + 1)
      (roundWithAccuracy .binary64 sign mantissa exponent .exact) := by
  obtain ⟨hfirst, hexponent₁⟩ := shiftToTargetExponent_le hmantissa exponent hexponent hbound
  unfold roundWithAccuracy
  generalize shiftToTargetExponent .binary64 mantissa exponent .exact = shifted
    at hfirst hexponent₁ ⊢
  obtain ⟨em₁, exponent₁⟩ := shifted
  have hrounded : em₁.roundedMantissa < 2 ^ (size + 1) := by
    have := roundedMantissa_le em₁
    rw [pow_succ]
    dsimp only at hfirst
    omega
  -- rounding up may carry into one more bit, so the mantissa is brought to its target again
  obtain ⟨hsecond, hexponent₂⟩ :=
    shiftToTargetExponent_le hrounded exponent₁ hexponent₁ (by omega)
  dsimp only
  by_cases hnone : (shiftToTargetExponent .binary64 em₁.roundedMantissa exponent₁
      .exact).1.mantissa = 0
  · rw [dif_pos hnone]
    exact .zero _
  · rw [dif_neg hnone]
    exact .finite _ (by omega) (by push_cast at hexponent₂; omega)

/-- A product of moderate numbers is moderate. -/
theorem mul_moderate {size size' : Nat} {bound bound' : Int} {u u' : UnpackedFloat}
    (hu : Moderate size bound u) (hu' : Moderate size' bound' u')
    (hbound : -1074 ≤ bound + bound') :
    Moderate (size + size' + 1) (bound + bound' + 2 * (size + size') + 1)
      (UnpackedFloat.mul .binary64 u u') := by
  cases hu with
  | zero => cases hu' <;> exact .zero _
  | finite hpos hmantissa hexponent =>
    cases hu' with
    | zero => exact .zero _
    | finite hpos' hmantissa' hexponent' =>
      refine roundWithAccuracy_moderate ?_ _ (by omega) hbound
      rw [pow_add]
      exact Nat.mul_lt_mul'' hmantissa hmantissa'

/-! ## Counts -/

/-- A count fits below the mantissa's bits at the exponent that is found for it. -/
theorem lt_of_exponentOf {n : Nat} (hn : 0 < n) :
    n * 2 ^ (-exponentOf n 1).toNat < 2 ^ 54 * 2 ^ (exponentOf n 1).toNat := by
  have hlog : n < 2 ^ (n.log2 + 1) := (Nat.log2_lt (by omega)).1 (by omega)
  have hone : Nat.log2 1 = 0 := by decide
  have hleast : (n.log2 : Int) - 53 ≤ exponentOf n 1 := by
    unfold exponentOf
    simp only [hone]
    split <;> omega
  calc n * 2 ^ (-exponentOf n 1).toNat
      < 2 ^ (n.log2 + 1) * 2 ^ (-exponentOf n 1).toNat := by gcongr
    _ = 2 ^ (n.log2 + 1 + (-exponentOf n 1).toNat) := (pow_add ..).symm
    _ ≤ 2 ^ (54 + (exponentOf n 1).toNat) := Nat.pow_le_pow_right (by decide) (by omega)
    _ = 2 ^ 54 * 2 ^ (exponentOf n 1).toNat := pow_add ..

theorem exponentOf_le {n : Nat} (hn : n < 2 ^ 64) : exponentOf n 1 ≤ 11 := by
  have hlog : n.log2 ≤ 63 := by
    rcases Nat.eq_zero_or_pos n with rfl | hpos
    · decide
    · have := (Nat.log2_lt (by omega)).2 hn
      omega
  have hone : Nat.log2 1 = 0 := by decide
  unfold exponentOf leastExponent
  simp only [hone]
  split <;> omega

/-- The mantissa that a count is rounded to. -/
theorem roundDiv_exponentOf_le {n : Nat} (hn : 0 < n) :
    roundDiv (n * 2 ^ (-exponentOf n 1).toNat) (1 * 2 ^ (exponentOf n 1).toNat) ≤ 2 ^ 54 := by
  have hfits := lt_of_exponentOf hn
  have hround := roundDiv_mul_le (n * 2 ^ (-exponentOf n 1).toNat) (1 * 2 ^ (exponentOf n 1).toNat)
  have hpos : 0 < 2 ^ (exponentOf n 1).toNat := by positivity
  rw [Nat.one_mul] at hround ⊢
  generalize 2 ^ (exponentOf n 1).toNat = den at hfits hround hpos ⊢
  generalize roundDiv (n * 2 ^ (-exponentOf n 1).toNat) den = mantissa at hround ⊢
  by_contra hgreat
  have : (2 ^ 54 + 1) * den ≤ mantissa * den := Nat.mul_le_mul_right den (by omega)
  omega

/-- The exponent field of a pattern lies above the bits of the mantissa. -/
theorem unpackExponent_ofNat (bits : Nat) :
    (@unpackExponent .binary64 (UInt64.ofNat bits).toBitVec).toNat ≤ bits / 2 ^ 52 := by
  simp only [unpackExponent, BitVec.toNat_cast, BitVec.extractLsb_toNat, Nat.shiftRight_eq_div_pow]
  refine (Nat.mod_le _ _).trans (Nat.div_le_div_right ?_)
  exact Nat.mod_le _ _

/-- The number nearest to a count is of moderate size. -/
theorem ofNat_moderate {n : Nat} (hn : n < 2 ^ 64) :
    Moderate 53 16 (Number.ofNat n).toModel.unpack := by
  rcases Nat.eq_zero_or_pos n with rfl | hpos
  · exact .zero _
  have hfield := exponentOf_le hn
  have hmantissa := roundDiv_exponentOf_le hpos
  simp only [Number.ofNat, ofRatio, hpos.ne', if_false, Nat.pow_eq, Float.ofBits,
    Float.Model.ofBits]
  generalize hbits : min _ infinityBits = bits
  have hsmall : bits / 2 ^ 52 ≤ 1089 := by
    rw [← hbits]
    unfold leastExponent
    omega
  exact pack_moderate (unpack_moderate ((unpackExponent_ofNat bits).trans hsmall) (by omega))
    (by omega) (by omega)

theorem powTen_zero_moderate : Moderate 53 (-52) (powTen 0).toModel.unpack := by
  have hone : (powTen 0).toModel.unpack = .finite .positive (2 ^ 52) (-52) (by decide) := rfl
  rw [hone]
  exact .finite _ (by decide) (by decide)

/-- Scaling the number of a count by one does not overflow. -/
theorem ofNat_mul_one_finite {n : Nat} (hn : n < 2 ^ 64) :
    (Number.ofNat n * powTen 0).isInf = false :=
  isInf_eq_false (pack_moderate (mul_moderate (ofNat_moderate hn) powTen_zero_moderate (by decide))
    (by decide) (by decide))

end LatencyGauge.Number
