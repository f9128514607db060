/-
The start barrier of a run. Every core arrives once, waits for all, and passes; so the barrier has
counted the cores that have arrived, whoever waits waits for the number of all cores, and nobody has
passed before all have arrived.
-/
import LatencyGauge.Proofs.Sync.Rounds

namespace LatencyGauge

open Finset Function

/-! ## Sums over cores -/

section Sums

variable {A : Type} {n i : Nat} (f : Nat → A) (v : A) (w : A → Nat)

/-- What a sum over cores is when one core changes. -/
theorem sum_range_update (hi : i < n) :
    ∑ c ∈ range n, w (update f i v c) + w (f i) = ∑ c ∈ range n, w (f c) + w v := by
  have hmem : i ∈ range n := mem_range.2 hi
  have hothers : ∑ c ∈ (range n).erase i, w (update f i v c) = ∑ c ∈ (range n).erase i, w (f c) :=
    sum_congr rfl fun c hc => by rw [update_of_ne (ne_of_mem_erase hc)]
  rw [← add_sum_erase _ _ hmem, ← add_sum_erase (range n) (fun c => w (f c)) hmem, hothers,
    update_self]
  omega

theorem sum_range_update_of_le (hi : n ≤ i) :
    ∑ c ∈ range n, w (update f i v c) = ∑ c ∈ range n, w (f c) :=
  sum_congr rfl fun c hc => by
    have hlt := mem_range.1 hc
    rw [update_of_ne (by omega)]

end Sums

/-! ## Cores at the barrier -/

/-- Whether a core has arrived. -/
def Gate.arrived : Gate → Nat
  | .outside => 0
  | _ => 1

theorem Gate.arrived_le (g : Gate) : g.arrived ≤ 1 := by
  cases g <;> simp [Gate.arrived]

/-- As many cores as take part in the round of a barrier, at their gates. -/
structure Gates (n : UInt64) (b : Barrier) (f : Nat → Gate) : Prop where
  arrived : b.arrivals.toNat = ∑ i ∈ range n.toNat, (f i).arrived
  waits : ∀ i < n.toNat, ∀ release, f i = .waiting release → release = n
  passed : ∀ i < n.toNat, f i = .inside → b.arrivals = n

section Gates

variable {n : UInt64} {b : Barrier} {f : Nat → Gate} {i : Nat}

theorem gates_fresh (hout : ∀ i < n.toNat, f i = .outside) : Gates n .fresh f where
  arrived := by
    have hnone : ∀ i ∈ range n.toNat, (f i).arrived = 0 := fun i hi => by
      rw [hout i (mem_range.1 hi)]
      rfl
    rw [sum_eq_zero hnone]
    rfl
  waits i hi release hwait := by
    rw [hout i hi] at hwait
    cases hwait
  passed i hi hin := by
    rw [hout i hi] at hin
    cases hin

theorem Gates.arrivals_le (h : Gates n b f) : b.arrivals.toNat ≤ n.toNat := by
  rw [h.arrived]
  calc ∑ i ∈ range n.toNat, (f i).arrived ≤ ∑ _i ∈ range n.toNat, 1 :=
        sum_le_sum fun i _ => (f i).arrived_le
    _ = n.toNat := by simp

/-- Once all have arrived the barrier is open. -/
theorem Gates.full (h : Gates n b f) (hall : ∀ i < n.toNat, f i ≠ .outside) : b.arrivals = n := by
  have hone : ∀ i ∈ range n.toNat, (f i).arrived = 1 := fun i hi => by
    have hne := hall i (mem_range.1 hi)
    cases hf : f i with
    | outside => exact absurd hf hne
    | waiting | inside => rfl
  rw [← UInt64.toNat_inj, h.arrived, sum_congr rfl hone]
  simp

/-- While the barrier is open all have arrived. -/
theorem Gates.arrived_of_full (h : Gates n b f) (hfull : b.arrivals = n) (hi : i < n.toNat) :
    f i ≠ .outside := by
  -- were it outside, with it more would arrive than there are
  intro hout
  have hsum := sum_range_update f .inside Gate.arrived hi
  have hbound : ∑ c ∈ range n.toNat, (update f i .inside c).arrived ≤ n.toNat :=
    (sum_le_sum fun c _ => Gate.arrived_le _).trans (by simp)
  rw [hout] at hsum
  change _ + 0 = _ + 1 at hsum
  have harrived := h.arrived
  rw [hfull] at harrived
  omega

/-- A step of one core at its gate. -/
theorem Gates.step (h : Gates n b f) (hi : i < n.toNat) {g' : Gate} {b' : Barrier}
    (hstep : (f i).step n b = (g', b')) : Gates n b' (update f i g') := by
  have hsum := sum_range_update f g' Gate.arrived hi
  cases hf : f i with
  | outside =>
    have hless : b.arrivals.toNat < n.toNat := by
      refine Nat.lt_of_le_of_ne h.arrivals_le fun heq => ?_
      exact h.arrived_of_full (UInt64.toNat_inj.1 heq) hi hf
    have hword : n.toNat < 2 ^ 64 := n.toNat_lt
    rw [hf] at hstep hsum
    cases hstep
    have hrelease : releaseCount b.arrivals n = n := by
      rw [← UInt64.toNat_inj, toNat_releaseCount (k := 0) (by omega) (by omega) (by omega)]
      omega
    have hnext : (b.arrivals + 1).toNat = b.arrivals.toNat + 1 := by
      rw [UInt64.toNat_add, UInt64.toNat_one, Nat.mod_eq_of_lt (by omega)]
    refine ⟨?_, fun c hc release hwait => ?_, fun c hc hin => ?_⟩
    · rw [hnext, h.arrived]
      exact hsum.symm
    · rcases eq_or_ne c i with rfl | hne
      · rw [update_self] at hwait
        cases hwait
        exact hrelease
      · rw [update_of_ne hne] at hwait
        exact h.waits c hc release hwait
    · -- nobody has passed before the last has arrived
      rcases eq_or_ne c i with rfl | hne
      · rw [update_self] at hin
        cases hin
      · rw [update_of_ne hne] at hin
        have hfull := h.passed c hc hin
        exact absurd hf (h.arrived_of_full hfull hi)
  | waiting release =>
    have hn := h.waits i hi release hf
    subst hn
    by_cases hreached : release ≤ b.arrivals
    · have hpass : Gate.step release b (.waiting release) = (.inside, b) := by
        simp [Gate.step, Barrier.reached, hreached]
      rw [hf] at hstep hsum
      cases hpass.symm.trans hstep
      -- no more can have arrived than take part, so the barrier has counted all
      have hfull : b.arrivals = release :=
        UInt64.le_antisymm (UInt64.le_iff_toNat_le.2 h.arrivals_le) hreached
      refine ⟨h.arrived.trans (Nat.add_right_cancel hsum).symm, fun c hc r hwait => ?_,
        fun _ _ _ => hfull⟩
      rcases eq_or_ne c i with rfl | hne
      · rw [update_self] at hwait
        cases hwait
      · rw [update_of_ne hne] at hwait
        exact h.waits c hc r hwait
    · have hstays : Gate.step release b (.waiting release) = (.waiting release, b) := by
        simp [Gate.step, Barrier.reached, hreached]
      rw [hf] at hstep
      cases hstays.symm.trans hstep
      rwa [← hf, update_eq_self]
  | inside =>
    rw [hf] at hstep
    cases hstep
    rwa [← hf, update_eq_self]

end Gates

end LatencyGauge
