/-
Rounding of exact quotients to whole numbers: to the nearest, a half to the even neighbour. The
result exceeds the quotient by half a unit at most.
-/

namespace LatencyGauge.Number

/-! ## Nearest whole number -/

/-- The whole number nearest to `num / den`; a quotient half way between two goes to the even. -/
def roundDiv (num den : Nat) : Nat :=
  let floor := num / den
  let rest := num % den
  if 2 * rest < den ∨ (2 * rest = den ∧ floor % 2 = 0) then floor else floor + 1

theorem roundDiv_mul_le (num den : Nat) : 2 * (roundDiv num den * den) ≤ 2 * num + den := by
  have h := Nat.div_add_mod num den
  have e : (num / den + 1) * den = den * (num / den) + den := by
    rw [Nat.add_mul, Nat.mul_comm, Nat.one_mul]
  simp only [roundDiv]
  split
  · rw [Nat.mul_comm (num / den)]; omega
  · rw [e]; omega

end LatencyGauge.Number
