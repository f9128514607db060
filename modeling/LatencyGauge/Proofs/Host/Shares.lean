/-
The shares of the processors in the cores of a run. Core and processor go together by a remainder:
on distinct processors, the cores of one are a residue class modulo their number. So no share
differs from another by more than one core, the larger ones belong to the first processors of the
list, and every core has a processor to itself exactly if there are no more cores than processors.
-/
import LatencyGauge.Host.Placement
import Mathlib.Algebra.Order.Floor.Div
import Mathlib.Data.Int.CardIntervalMod

namespace LatencyGauge

variable {cpus : List Nat}

/-! ## The processor of a core -/

theorem cpuFor_eq_getElem {core : Nat} (h : core % cpus.length < cpus.length) :
    cpuFor cpus core = cpus[core % cpus.length] := by
  rw [cpuFor, List.getElem?_eq_getElem h]

/-- Where some processor is allowed, no core takes its own number for one. -/
theorem cpuFor_mem (hsome : cpus ≠ []) (core : Nat) : cpuFor cpus core ∈ cpus := by
  rw [cpuFor_eq_getElem (Nat.mod_lt core (List.length_pos_of_ne_nil hsome))]
  exact List.getElem_mem _

theorem cpuFor_eq_getElem_iff (hdistinct : cpus.Nodup) {i : Nat} (hi : i < cpus.length)
    (core : Nat) : cpuFor cpus core = cpus[i] ↔ core ≡ i [MOD cpus.length] := by
  have hcore : core % cpus.length < cpus.length := Nat.mod_lt core (Nat.zero_lt_of_lt hi)
  rw [cpuFor_eq_getElem hcore, hdistinct.getElem_inj_iff, Nat.ModEq, Nat.mod_eq_of_lt hi]

/-- Two cores share a processor exactly if their numbers leave the same remainder. -/
theorem cpuFor_eq_cpuFor_iff (hsome : cpus ≠ []) (hdistinct : cpus.Nodup) (core core' : Nat) :
    cpuFor cpus core = cpuFor cpus core' ↔ core ≡ core' [MOD cpus.length] := by
  have hcore' : core' % cpus.length < cpus.length :=
    Nat.mod_lt core' (List.length_pos_of_ne_nil hsome)
  rw [cpuFor_eq_getElem hcore', cpuFor_eq_getElem_iff hdistinct hcore', Nat.ModEq, Nat.mod_mod,
    Nat.ModEq]

/-- Every core has a processor to itself exactly if there are no more cores than processors. -/
theorem injOn_cpuFor_iff (hsome : cpus ≠ []) (hdistinct : cpus.Nodup) (cores : Nat) :
    Set.InjOn (cpuFor cpus) {core | core < cores} ↔ cores ≤ cpus.length := by
  constructor
  · intro hinj
    by_contra hmore
    have hpos := List.length_pos_of_ne_nil hsome
    -- the first core after a whole round goes where the first of all went
    have hround : cpuFor cpus cpus.length = cpuFor cpus 0 :=
      (cpuFor_eq_cpuFor_iff hsome hdistinct _ _).2 (Nat.mod_self cpus.length)
    have hlength : cpus.length = 0 :=
      hinj (show cpus.length < cores by omega) (show 0 < cores by omega) hround
    omega
  · intro hfew core hcore core' hcore' heq
    have hmod := (cpuFor_eq_cpuFor_iff hsome hdistinct core core').1 heq
    exact hmod.eq_of_lt_of_lt (Nat.lt_of_lt_of_le hcore hfew) (Nat.lt_of_lt_of_le hcore' hfew)

/-! ## Shares -/

/-- How many of a run's cores go to a processor. -/
def share (cpus : List Nat) (cores cpu : Nat) : Nat := cores.count (cpuFor cpus · = cpu)

/-- Each whole round of the list gives every processor a core; what is left goes to the first. -/
theorem share_getElem (hdistinct : cpus.Nodup) (cores : Nat) {i : Nat} (hi : i < cpus.length) :
    share cpus cores cpus[i] =
      cores / cpus.length + if i < cores % cpus.length then 1 else 0 := by
  have hclass : share cpus cores cpus[i] = cores.count (· ≡ i [MOD cpus.length]) := by
    unfold share
    simp only [cpuFor_eq_getElem_iff hdistinct hi]
  rw [hclass, Nat.count_modEq_card _ (Nat.zero_lt_of_lt hi), Nat.mod_eq_of_lt hi]

theorem share_of_mem_take (hdistinct : cpus.Nodup) {cores cpu : Nat}
    (hcpu : cpu ∈ cpus.take (cores % cpus.length)) :
    share cpus cores cpu = cores / cpus.length + 1 := by
  obtain ⟨i, hi, rfl⟩ := List.mem_take_iff_getElem.1 hcpu
  rw [share_getElem hdistinct, if_pos (by omega)]

theorem share_of_mem_drop (hdistinct : cpus.Nodup) {cores cpu : Nat}
    (hcpu : cpu ∈ cpus.drop (cores % cpus.length)) :
    share cpus cores cpu = cores / cpus.length := by
  obtain ⟨i, hi, rfl⟩ := List.mem_drop_iff_getElem.1 hcpu
  rw [share_getElem hdistinct, if_neg (by omega), Nat.add_zero]

/-- The processors with the larger share are the first of the list. -/
theorem filter_share (hdistinct : cpus.Nodup) (cores : Nat) :
    cpus.filter (share cpus cores · = cores / cpus.length + 1) =
      cpus.take (cores % cpus.length) := by
  have hfirst : ∀ cpu ∈ cpus.take (cores % cpus.length),
      decide (share cpus cores cpu = cores / cpus.length + 1) = true :=
    fun cpu hcpu => decide_eq_true (share_of_mem_take hdistinct hcpu)
  have hrest : ∀ cpu ∈ cpus.drop (cores % cpus.length),
      ¬ decide (share cpus cores cpu = cores / cpus.length + 1) = true := by
    intro cpu hcpu
    rw [decide_eq_true_iff, share_of_mem_drop hdistinct hcpu]
    omega
  conv_lhs => arg 2; rw [← List.take_append_drop (cores % cpus.length) cpus]
  rw [List.filter_append, List.filter_eq_self.2 hfirst, List.filter_eq_nil_iff.2 hrest,
    List.append_nil]

theorem ceilDiv_of_mod_pos {n d : Nat} (h : 0 < n % d) (hd : 0 < d) : n ⌈/⌉ d = n / d + 1 := by
  have hless : n % d - 1 < d := by
    have := Nat.mod_lt n hd
    omega
  have hsum : n + d - 1 = n % d - 1 + d * (n / d + 1) := by
    rw [Nat.mul_succ]
    have := Nat.div_add_mod n d
    omega
  rw [Nat.ceilDiv_eq_add_pred_div, hsum, Nat.add_mul_div_left _ _ hd, Nat.div_eq_of_lt hless,
    Nat.zero_add]

/-- Every share is the average, rounded down or up. -/
theorem share_eq_or (hdistinct : cpus.Nodup) (cores : Nat) {cpu : Nat} (hcpu : cpu ∈ cpus) :
    share cpus cores cpu = cores / cpus.length ∨
      share cpus cores cpu = cores ⌈/⌉ cpus.length := by
  rw [← List.take_append_drop (cores % cpus.length) cpus, List.mem_append] at hcpu
  rcases hcpu with hfirst | hrest
  · have hleft : 0 < cores % cpus.length := by
      by_contra hnone
      rw [Nat.eq_zero_of_not_pos hnone] at hfirst
      cases hfirst
    have hpos : 0 < cpus.length := List.length_pos_of_mem (List.mem_of_mem_take hfirst)
    right
    rw [share_of_mem_take hdistinct hfirst, ceilDiv_of_mod_pos hleft hpos]
  · exact .inl (share_of_mem_drop hdistinct hrest)

/-! ## Even shares -/

/-- A run's cores are spread evenly over the processors of a list: each goes to one of these; every
processor's share is the average, rounded down or up; the processors with one core more than the
average rounded down are the first of the list, as many as the remainder of the division; and every
core has a processor to itself exactly if there are no more cores than processors. -/
structure EvenShares (cpus : List Nat) (cores : Nat) : Prop where
  listed : ∀ core < cores, cpuFor cpus core ∈ cpus
  average : ∀ cpu ∈ cpus, share cpus cores cpu = cores / cpus.length ∨
    share cpus cores cpu = cores ⌈/⌉ cpus.length
  larger : cpus.filter (share cpus cores · = cores / cpus.length + 1) =
    cpus.take (cores % cpus.length)
  remainder : cpus.countP (share cpus cores · = cores / cpus.length + 1) = cores % cpus.length
  apart : Set.InjOn (cpuFor cpus) {core | core < cores} ↔ cores ≤ cpus.length

/-- Distinct processors, in whatever order they are listed, have even shares in any number of
cores. -/
theorem evenShares_of_distinct (hsome : cpus ≠ []) (hdistinct : cpus.Nodup) (cores : Nat) :
    EvenShares cpus cores where
  listed core _ := cpuFor_mem hsome core
  average _ hcpu := share_eq_or hdistinct cores hcpu
  larger := filter_share hdistinct cores
  remainder := by
    have hless := Nat.mod_lt cores (List.length_pos_of_ne_nil hsome)
    rw [List.countP_eq_length_filter, filter_share hdistinct, List.length_take,
      Nat.min_eq_left (Nat.le_of_lt hless)]
  apart := injOn_cpuFor_iff hsome hdistinct cores

/-- Six cores confined to four processors: the first two processors have two cores each. -/
theorem evenShares_of_distinct_confined :
    [4, 5, 6, 7] ≠ [] ∧ [4, 5, 6, 7].Nodup ∧ EvenShares [4, 5, 6, 7] 6 ∧
      (List.range 6).map (cpuFor [4, 5, 6, 7]) = [4, 5, 6, 7, 4, 5] ∧
      [4, 5, 6, 7].map (share [4, 5, 6, 7] 6) = [2, 2, 1, 1] := by
  have hsome : [4, 5, 6, 7] ≠ [] := by decide
  have hdistinct : [4, 5, 6, 7].Nodup := by decide
  exact ⟨hsome, hdistinct, evenShares_of_distinct hsome hdistinct 6, by decide, by decide⟩

end LatencyGauge
