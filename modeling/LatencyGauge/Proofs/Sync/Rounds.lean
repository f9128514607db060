/-
Threads that enter one barrier over and over, in any interleaving of their arrivals and of their
looks at the counter. The arrivals of a round are the numbers that belong to it, one for each
thread; a thread leaves a round when all have arrived in it, with the last number of the round; and
a thread that still waits is released by its next look, however far the others have gone on.

Rounds count from zero. What is said of a round holds if its last number is a word, as long as the
counter has not wrapped.
-/
import Mathlib.Algebra.BigOperators.Fin
import Mathlib.Algebra.Order.BigOperators.Group.Finset
import LatencyGauge.Sync.Barrier

namespace LatencyGauge

/-! ## Threads at a barrier -/

/-- A thread that enters a barrier over and over: where it stands, the counter after each of its
arrivals, and what its passages returned, both in order. -/
structure Visitor where
  gate : Gate
  arrivals : List UInt64
  releases : List UInt64
deriving DecidableEq, Repr

def Visitor.fresh : Visitor := ⟨.outside, [], []⟩

/-- One step of a thread: it looks at the counter if it waits, and enters again if not. -/
def Visitor.step (participants : UInt64) (b : Barrier) (v : Visitor) : Visitor × Barrier :=
  match v.gate with
  | .waiting release =>
    let (g, b) := Gate.step participants b (.waiting release)
    (⟨g, v.arrivals, if g = .inside then v.releases ++ [release] else v.releases⟩, b)
  | .outside | .inside =>
    let (g, b) := Gate.step participants b .outside
    (⟨g, v.arrivals ++ [b.arrivals], v.releases⟩, b)

/-- As many threads as take part in the rounds of a barrier. -/
structure Crowd (n : UInt64) where
  barrier : Barrier
  visitors : Fin n.toNat → Visitor

def Crowd.fresh (n : UInt64) : Crowd n := ⟨.fresh, fun _ => .fresh⟩

/-- A crowd with another barrier and another thread in the place of one. -/
def Crowd.put {n : UInt64} (s : Crowd n) (b : Barrier) (i : Fin n.toNat) (v : Visitor) : Crowd n :=
  ⟨b, Function.update s.visitors i v⟩

/-- One step of one thread. -/
def Crowd.step {n : UInt64} (s : Crowd n) (i : Fin n.toNat) : Crowd n :=
  let (v, b) := (s.visitors i).step n s.barrier
  s.put b i v

/-- Steps in any order. -/
def Crowd.run {n : UInt64} (s : Crowd n) (order : List (Fin n.toNat)) : Crowd n :=
  order.foldl Crowd.step s

def Crowd.arrived {n : UInt64} (s : Crowd n) : Nat := ∑ i, (s.visitors i).arrivals.length

/-! ## Steps of one thread -/

/-- A thread that waits stays as it is or leaves, as the counter has it; any other thread
arrives. -/
theorem Visitor.step_cases (n : UInt64) (b : Barrier) (v : Visitor) :
    (∃ release, v.gate = .waiting release ∧ ¬ release ≤ b.arrivals ∧ v.step n b = (v, b)) ∨
      (∃ release, v.gate = .waiting release ∧ release ≤ b.arrivals ∧
        v.step n b = (⟨.inside, v.arrivals, v.releases ++ [release]⟩, b)) ∨
      ((∀ release, v.gate ≠ .waiting release) ∧
        v.step n b = (⟨.waiting (releaseCount b.arrivals n), v.arrivals ++ [b.arrivals + 1],
          v.releases⟩, ⟨b.arrivals + 1⟩)) := by
  obtain ⟨g, arrivals, releases⟩ := v
  cases g with
  | outside => exact .inr (.inr ⟨by simp, rfl⟩)
  | inside => exact .inr (.inr ⟨by simp, rfl⟩)
  | waiting release =>
    by_cases hreached : release ≤ b.arrivals
    · refine .inr (.inl ⟨release, rfl, hreached, ?_⟩)
      simp [Visitor.step, Gate.step, Barrier.reached, hreached]
    · refine .inl ⟨release, rfl, hreached, ?_⟩
      simp [Visitor.step, Gate.step, Barrier.reached, hreached]

/-! ## Rounds -/

/-- The number of rounds of so many participants whose numbers are all words. -/
def wholeRounds (participants : Nat) : Nat := (2 ^ 64 - 1) / participants

theorem lt_wholeRounds_iff {participants k : Nat} (hpos : 0 < participants) :
    k < wholeRounds participants ↔ (k + 1) * participants < 2 ^ 64 := by
  unfold wholeRounds
  rw [Nat.lt_iff_add_one_le, Nat.le_div_iff_mul_le hpos]
  omega

/-- The count that releases an arrival in round `k` is the last number of the round. -/
theorem toNat_releaseCount {n before : UInt64} {k : Nat} (hword : (k + 1) * n.toNat < 2 ^ 64)
    (hlower : k * n.toNat ≤ before.toNat) (hupper : before.toNat < (k + 1) * n.toNat) :
    (releaseCount before n).toNat = (k + 1) * n.toNat := by
  have hround : before.toNat / n.toNat = k := Nat.div_eq_of_lt_le hlower hupper
  have hpos : 0 < n.toNat := Nat.pos_of_ne_zero fun h => by simp [h] at hupper
  have hle : k + 1 ≤ (k + 1) * n.toNat := Nat.le_mul_of_pos_right _ hpos
  have hsucc : (k + 1) % 2 ^ 64 = k + 1 := Nat.mod_eq_of_lt (by omega)
  unfold releaseCount
  rw [UInt64.toNat_mul, UInt64.toNat_add, UInt64.toNat_div, hround, UInt64.toNat_one, hsucc,
    Nat.mod_eq_of_lt hword]

/-! ## What holds of one thread -/

/-- What is so of a thread after `total` arrivals: it waits for the round of its last arrival or for
none; an arrival in a whole round has a number of that round, and a later one comes after all whole
rounds; and what a whole round returned is its last number, which is taken then. -/
structure Visitor.Keeps (participants total : Nat) (v : Visitor) : Prop where
  returned : (∀ release, v.gate ≠ .waiting release) → v.arrivals.length = v.releases.length
  waits : ∀ release, v.gate = .waiting release → v.arrivals.length = v.releases.length + 1 ∧
    (v.releases.length < wholeRounds participants →
      release.toNat = (v.releases.length + 1) * participants)
  placed : ∀ k a, v.arrivals[k]? = some a →
    min k (wholeRounds participants) * participants < a.toNat ∧ a.toNat ≤ total ∧
      (k < wholeRounds participants → a.toNat ≤ (k + 1) * participants)
  released : ∀ k r, v.releases[k]? = some r → k < wholeRounds participants →
    r.toNat = (k + 1) * participants ∧ (k + 1) * participants ≤ total

theorem Visitor.keeps_fresh (participants : Nat) : Visitor.fresh.Keeps participants 0 := by
  constructor <;> simp [Visitor.fresh]

/-- Arrivals of others change nothing. -/
theorem Visitor.Keeps.later {participants total total' : Nat} {v : Visitor}
    (h : v.Keeps participants total) (hle : total ≤ total') : v.Keeps participants total' where
  returned := h.returned
  waits := h.waits
  placed k a ha := by
    obtain ⟨hlower, htotal, hupper⟩ := h.placed k a ha
    exact ⟨hlower, by omega, hupper⟩
  released k r hr hk := by
    obtain ⟨heq, htotal⟩ := h.released k r hr hk
    exact ⟨heq, by omega⟩

/-- A thread that waited leaves when the count is reached. -/
theorem Visitor.Keeps.leave {participants total : Nat} {v : Visitor} {release : UInt64}
    (h : v.Keeps participants total) (hgate : v.gate = .waiting release)
    (hreached : release.toNat ≤ total) :
    Visitor.Keeps participants total ⟨.inside, v.arrivals, v.releases ++ [release]⟩ := by
  obtain ⟨hlength, hcount⟩ := h.waits release hgate
  refine ⟨fun _ => by simp [hlength], by simp, h.placed, fun k r hr hk => ?_⟩
  rcases lt_trichotomy k v.releases.length with hlt | rfl | hgt
  · rw [List.getElem?_append_left hlt] at hr
    exact h.released k r hr hk
  · rw [List.getElem?_concat_length] at hr
    cases hr
    rw [← hcount hk]
    exact ⟨rfl, hreached⟩
  · rw [List.getElem?_eq_none (by simpa using Nat.succ_le_of_lt hgt)] at hr
    cases hr

/-- The rounds that a thread has left are over. -/
theorem Visitor.Keeps.over {participants total : Nat} {v : Visitor}
    (h : v.Keeps participants total) :
    min v.releases.length (wholeRounds participants) * participants ≤ total := by
  cases hk : min v.releases.length (wholeRounds participants) with
  | zero => simp
  | succ k =>
    have hlt : k < v.releases.length := by omega
    exact (h.released k v.releases[k] (List.getElem?_eq_getElem hlt) (by omega)).2

/-- A thread that does not wait arrives next. It has left every round before, and the round that it
arrives in is not over. -/
theorem Visitor.Keeps.arrive {n : UInt64} {b : Barrier} {v : Visitor} (hpos : 0 < n.toNat)
    (h : v.Keeps n.toNat b.arrivals.toNat) (hgate : ∀ release, v.gate ≠ .waiting release)
    (hfew : b.arrivals.toNat + 1 < 2 ^ 64)
    (hopen : ∀ k ≤ wholeRounds n.toNat, k * n.toNat ≤ b.arrivals.toNat → k ≤ v.arrivals.length) :
    Visitor.Keeps n.toNat (b.arrivals.toNat + 1)
      ⟨.waiting (releaseCount b.arrivals n), v.arrivals ++ [b.arrivals + 1], v.releases⟩ := by
  have hlength := h.returned hgate
  have hlower := h.over
  have hupper : v.releases.length < wholeRounds n.toNat →
      b.arrivals.toNat < (v.releases.length + 1) * n.toNat := fun hk => by
    by_contra hle
    have hpast := hopen (v.releases.length + 1) hk (by omega)
    omega
  have hnumber : (b.arrivals + 1).toNat = b.arrivals.toNat + 1 := by
    rw [UInt64.toNat_add, UInt64.toNat_one, Nat.mod_eq_of_lt hfew]
  refine ⟨by simp, ?_, fun k a ha => ?_, fun k r hr hk => ?_⟩
  · rintro release ⟨⟩
    refine ⟨by simp [hlength], fun hk => ?_⟩
    rw [Nat.min_eq_left (Nat.le_of_lt hk)] at hlower
    exact toNat_releaseCount ((lt_wholeRounds_iff hpos).1 hk) hlower (hupper hk)
  · rcases lt_trichotomy k v.arrivals.length with hlt | rfl | hgt
    · rw [List.getElem?_append_left hlt] at ha
      exact (h.later (Nat.le_succ _)).placed k a ha
    · rw [List.getElem?_concat_length] at ha
      cases ha
      rw [hnumber, hlength]
      refine ⟨by omega, le_refl _, fun hk => ?_⟩
      have := hupper hk
      omega
    · rw [List.getElem?_eq_none (by simpa using Nat.succ_le_of_lt hgt)] at ha
      cases ha
  · exact (h.later (Nat.le_succ _)).released k r hr hk

/-! ## What holds of a crowd -/

section Crowd

variable {n : UInt64}

/-- A thread that took a number when it arrived. -/
def Visitor.Took (v : Visitor) (m : Nat) : Prop := ∃ a ∈ v.arrivals, a.toNat = m

/-- What is so of a crowd whose counter has not wrapped: the counter counts the arrivals; every
thread is as it should be, and has arrived in every whole round that is over; and every number up
to the counter was taken by exactly one thread. -/
structure Crowd.Sound (s : Crowd n) : Prop where
  counted : s.barrier.arrivals.toNat = s.arrived
  keeps : ∀ i, (s.visitors i).Keeps n.toNat s.arrived
  present : ∀ k ≤ wholeRounds n.toNat, k * n.toNat ≤ s.arrived →
    ∀ i, k ≤ (s.visitors i).arrivals.length
  owned : ∀ m, 0 < m → m ≤ s.arrived → ∃! i, (s.visitors i).Took m

theorem Crowd.arrived_fresh (n : UInt64) : (Crowd.fresh n).arrived = 0 := by
  simp [Crowd.arrived, Crowd.fresh, Visitor.fresh]

theorem Crowd.sound_fresh (n : UInt64) : (Crowd.fresh n).Sound := by
  constructor
  · rw [Crowd.arrived_fresh]; rfl
  · intro i
    rw [Crowd.arrived_fresh]
    exact Visitor.keeps_fresh _
  · intro k _ hk i
    rw [Crowd.arrived_fresh, Nat.le_zero_eq, Nat.mul_eq_zero] at hk
    have hpos : 0 < n.toNat := i.pos
    omega
  · intro m hpos hm
    rw [Crowd.arrived_fresh] at hm
    omega

@[simp] theorem Crowd.put_self (s : Crowd n) (b : Barrier) (i : Fin n.toNat) (v : Visitor) :
    (s.put b i v).visitors i = v := Function.update_self ..

theorem Crowd.put_other (s : Crowd n) (b : Barrier) {i j : Fin n.toNat} (v : Visitor) (h : j ≠ i) :
    (s.put b i v).visitors j = s.visitors j := Function.update_of_ne h ..

/-- The arrivals of a thread count in place of those that the old one had. -/
theorem Crowd.arrived_put (s : Crowd n) (b : Barrier) (i : Fin n.toNat) (v : Visitor) :
    (s.put b i v).arrived + (s.visitors i).arrivals.length = s.arrived + v.arrivals.length := by
  unfold Crowd.arrived
  rw [← Finset.add_sum_erase _ _ (Finset.mem_univ i), ← Finset.add_sum_erase Finset.univ
    (fun j => (s.visitors j).arrivals.length) (Finset.mem_univ i)]
  have hothers : ∀ j ∈ Finset.univ.erase i, ((s.put b i v).visitors j).arrivals.length =
      (s.visitors j).arrivals.length := fun j hj => by
    rw [s.put_other b v (Finset.ne_of_mem_erase hj)]
  rw [Finset.sum_congr rfl hothers, Crowd.put_self]
  omega

/-- When the last number of a round is taken, every thread has arrived in it: no thread has arrived
in a later one, and the arrivals add up. -/
theorem Crowd.present_of_full (s : Crowd n) (hkeeps : ∀ i, (s.visitors i).Keeps n.toNat s.arrived)
    {k : Nat} (hk : k ≤ wholeRounds n.toNat) (hfull : k * n.toNat = s.arrived) (i : Fin n.toNat) :
    (s.visitors i).arrivals.length = k := by
  have hupper : ∀ j ∈ Finset.univ, (s.visitors j).arrivals.length ≤ k := fun j _ => by
    by_contra hgt
    have hlast : k < (s.visitors j).arrivals.length := by omega
    obtain ⟨hlower, htotal, -⟩ := (hkeeps j).placed k _ (List.getElem?_eq_getElem hlast)
    rw [Nat.min_eq_left hk] at hlower
    omega
  have hsum : s.arrived = ∑ _j : Fin n.toNat, k := by
    rw [← hfull, Finset.sum_const, Finset.card_univ, Fintype.card_fin, smul_eq_mul, Nat.mul_comm]
  exact (Finset.sum_eq_sum_iff_of_le hupper).1 hsum i (Finset.mem_univ i)

/-- A thread that waits in vain changes nothing; one that leaves changes nothing for the others; and
any other thread takes the next number. -/
theorem Crowd.step_cases (s : Crowd n) (i : Fin n.toNat) :
    s.step i = s ∨
      (∃ release, (s.visitors i).gate = .waiting release ∧ release ≤ s.barrier.arrivals ∧
        s.step i = s.put s.barrier i
          ⟨.inside, (s.visitors i).arrivals, (s.visitors i).releases ++ [release]⟩) ∨
      ((∀ release, (s.visitors i).gate ≠ .waiting release) ∧
        s.step i = s.put ⟨s.barrier.arrivals + 1⟩ i
          ⟨.waiting (releaseCount s.barrier.arrivals n),
            (s.visitors i).arrivals ++ [s.barrier.arrivals + 1], (s.visitors i).releases⟩) := by
  unfold Crowd.step
  rcases (s.visitors i).step_cases n s.barrier with
    ⟨release, -, -, hstep⟩ | ⟨release, hgate, hreached, hstep⟩ | ⟨hgate, hstep⟩
  · left
    rw [hstep]
    simp only [Crowd.put, Function.update_eq_self]
  · exact .inr (.inl ⟨release, hgate, hreached, by rw [hstep]⟩)
  · exact .inr (.inr ⟨hgate, by rw [hstep]⟩)

theorem Crowd.arrived_le_step (s : Crowd n) (i : Fin n.toNat) : s.arrived ≤ (s.step i).arrived := by
  rcases s.step_cases i with hstep | ⟨release, -, -, hstep⟩ | ⟨-, hstep⟩
  · rw [hstep]
  · have hsum := s.arrived_put s.barrier i
      ⟨.inside, (s.visitors i).arrivals, (s.visitors i).releases ++ [release]⟩
    rw [hstep]
    dsimp only at hsum
    omega
  · have hsum := s.arrived_put ⟨s.barrier.arrivals + 1⟩ i
      ⟨.waiting (releaseCount s.barrier.arrivals n),
        (s.visitors i).arrivals ++ [s.barrier.arrivals + 1], (s.visitors i).releases⟩
    rw [hstep]
    simp only [List.length_append] at hsum
    omega

/-- A thread that leaves changes nothing for the others. -/
theorem Crowd.Sound.leave {s : Crowd n} (h : s.Sound) {i : Fin n.toNat} {release : UInt64}
    (hgate : (s.visitors i).gate = .waiting release) (hreached : release ≤ s.barrier.arrivals) :
    (s.put s.barrier i
      ⟨.inside, (s.visitors i).arrivals, (s.visitors i).releases ++ [release]⟩).Sound := by
  generalize hv : Visitor.mk .inside (s.visitors i).arrivals
    ((s.visitors i).releases ++ [release]) = v
  have hsame : ∀ j, ((s.put s.barrier i v).visitors j).arrivals = (s.visitors j).arrivals :=
      fun j => by
    by_cases hj : j = i
    · rw [hj, Crowd.put_self, ← hv]
    · rw [s.put_other _ _ hj]
  have harrived : (s.put s.barrier i v).arrived = s.arrived := by
    simp only [Crowd.arrived, hsame]
  constructor
  · rw [harrived]; exact h.counted
  · intro j
    rw [harrived]
    by_cases hj : j = i
    · rw [hj, Crowd.put_self, ← hv]
      exact (h.keeps i).leave hgate (by rw [← h.counted]; exact UInt64.le_iff_toNat_le.1 hreached)
    · rw [s.put_other _ _ hj]
      exact h.keeps j
  · rw [harrived]
    simp only [hsame]
    exact h.present
  · rw [harrived]
    simp only [Visitor.Took, hsame]
    exact h.owned

/-- A thread that arrives takes the next number. -/
theorem Crowd.Sound.arrive {s : Crowd n} (h : s.Sound) {i : Fin n.toNat}
    (hgate : ∀ release, (s.visitors i).gate ≠ .waiting release) (hfew : s.arrived + 1 < 2 ^ 64) :
    (s.put ⟨s.barrier.arrivals + 1⟩ i
      ⟨.waiting (releaseCount s.barrier.arrivals n),
        (s.visitors i).arrivals ++ [s.barrier.arrivals + 1], (s.visitors i).releases⟩).Sound := by
  generalize hv : Visitor.mk (.waiting (releaseCount s.barrier.arrivals n))
    ((s.visitors i).arrivals ++ [s.barrier.arrivals + 1]) (s.visitors i).releases = v
  have hlist : v.arrivals = (s.visitors i).arrivals ++ [s.barrier.arrivals + 1] := by rw [← hv]
  have hnumber : (s.barrier.arrivals + 1).toNat = s.arrived + 1 := by
    rw [UInt64.toNat_add, UInt64.toNat_one, h.counted, Nat.mod_eq_of_lt hfew]
  have harrived : (s.put ⟨s.barrier.arrivals + 1⟩ i v).arrived = s.arrived + 1 := by
    have hsum := s.arrived_put ⟨s.barrier.arrivals + 1⟩ i v
    simp only [hlist, List.length_append, List.length_singleton] at hsum
    omega
  have hkeeps : ∀ j, ((s.put ⟨s.barrier.arrivals + 1⟩ i v).visitors j).Keeps n.toNat
      (s.arrived + 1) := fun j => by
    by_cases hj : j = i
    · rw [hj, Crowd.put_self, ← hv, ← h.counted]
      exact Visitor.Keeps.arrive i.pos (h.counted ▸ h.keeps i) hgate (by rw [h.counted]; exact hfew)
        fun k hk hle => h.present k hk (h.counted ▸ hle) i
    · rw [s.put_other _ _ hj]
      exact (h.keeps j).later (Nat.le_succ _)
  have htook : ∀ j m, ((s.put ⟨s.barrier.arrivals + 1⟩ i v).visitors j).Took m ↔
      (s.visitors j).Took m ∨ j = i ∧ m = s.arrived + 1 := fun j m => by
    by_cases hj : j = i
    · rw [hj, Crowd.put_self, Visitor.Took, hlist]
      simp only [List.mem_append, List.mem_singleton, or_and_right, exists_or, exists_eq_left,
        hnumber, Visitor.Took, true_and, eq_comm]
    · simp [s.put_other _ _ hj, hj]
  constructor
  · rw [harrived]; exact hnumber
  · intro j
    rw [harrived]
    exact hkeeps j
  · intro k hk hle j
    rw [harrived] at hle
    -- a round that was over before, or the one whose last number is taken now
    rcases Nat.lt_or_eq_of_le hle with hlt | heq
    · have hbefore := h.present k hk (by omega) j
      by_cases hj : j = i
      · rw [hj] at hbefore
        rw [hj, Crowd.put_self, hlist, List.length_append]
        omega
      · rwa [s.put_other _ _ hj]
    · exact Nat.le_of_eq (Crowd.present_of_full _ (by rwa [harrived]) hk
        (heq.trans harrived.symm) j).symm
  · intro m hpos hm
    rw [harrived] at hm
    simp only [htook]
    rcases Nat.lt_or_eq_of_le hm with hlt | rfl
    · obtain ⟨j, hj, hunique⟩ := h.owned m hpos (by omega)
      refine ⟨j, .inl hj, ?_⟩
      rintro j' (hj' | ⟨-, heq⟩)
      · exact hunique j' hj'
      · omega
    · refine ⟨i, .inr ⟨rfl, rfl⟩, ?_⟩
      rintro j (⟨a, ha, heq⟩ | ⟨rfl, -⟩)
      · obtain ⟨k, hk⟩ := List.getElem?_of_mem ha
        have hle := ((h.keeps j).placed k a hk).2.1
        omega
      · rfl

/-- A step keeps a crowd sound, unless the counter wraps. -/
theorem Crowd.Sound.step {s : Crowd n} (h : s.Sound) (i : Fin n.toNat)
    (hfew : (s.step i).arrived < 2 ^ 64) : (s.step i).Sound := by
  rcases s.step_cases i with hstep | ⟨release, hgate, hreached, hstep⟩ | ⟨hgate, hstep⟩
  · rwa [hstep]
  · rw [hstep]
    exact h.leave hgate hreached
  · rw [hstep] at hfew ⊢
    have hsum := s.arrived_put ⟨s.barrier.arrivals + 1⟩ i
      ⟨.waiting (releaseCount s.barrier.arrivals n),
        (s.visitors i).arrivals ++ [s.barrier.arrivals + 1], (s.visitors i).releases⟩
    simp only [List.length_append, List.length_singleton] at hsum
    exact h.arrive hgate (by omega)

/-- Every order of steps leads to a sound crowd, unless the counter wraps. -/
theorem Crowd.sound_run (order : List (Fin n.toNat))
    (hfew : ((Crowd.fresh n).run order).arrived < 2 ^ 64) : ((Crowd.fresh n).run order).Sound := by
  refine List.foldlRecOn (motive := fun s : Crowd n => s.arrived < 2 ^ 64 → s.Sound) order
    Crowd.step (fun _ => Crowd.sound_fresh n) (fun s ih i _ hfew => ?_) hfew
  exact (ih (Nat.lt_of_le_of_lt (s.arrived_le_step i) hfew)).step i hfew

/-! ## Rounds of a crowd -/

/-- The numbers of a round are taken exactly if every thread has arrived in it. -/
theorem Crowd.Sound.full_iff {s : Crowd n} (h : s.Sound) {k : Nat}
    (hk : k < wholeRounds n.toNat) :
    (k + 1) * n.toNat ≤ s.arrived ↔ ∀ i, k < (s.visitors i).arrivals.length := by
  refine ⟨fun hfull i => h.present (k + 1) hk hfull i, fun hall => ?_⟩
  have hsum := Finset.card_nsmul_le_sum Finset.univ
    (fun i => (s.visitors i).arrivals.length) (k + 1) (fun i _ => hall i)
  rw [Finset.card_univ, Fintype.card_fin, smul_eq_mul, Nat.mul_comm] at hsum
  exact hsum

/-- What round `k` comes to. A thread leaves it with its last number, and after all threads have
arrived in it; one that has arrived in it is at most one arrival ahead of any other; its arrivals
have its numbers, each number that is taken belongs to one thread, and all are taken exactly if all
threads have arrived in it; and a thread that waits in it is released by its next look exactly if
all have. -/
structure Crowd.Round (s : Crowd n) (k : Nat) : Prop where
  released : ∀ i r, (s.visitors i).releases[k]? = some r →
    r.toNat = (k + 1) * n.toNat ∧ ∀ j, k < (s.visitors j).arrivals.length
  ahead : ∀ i, k < (s.visitors i).arrivals.length → ∀ j, k ≤ (s.visitors j).arrivals.length
  placed : ∀ i a, (s.visitors i).arrivals[k]? = some a →
    k * n.toNat < a.toNat ∧ a.toNat ≤ (k + 1) * n.toNat
  owned : ∀ m, k * n.toNat < m → m ≤ (k + 1) * n.toNat → m ≤ s.arrived →
    ∃! i, ∃ a, (s.visitors i).arrivals[k]? = some a ∧ a.toNat = m
  complete : (k + 1) * n.toNat ≤ s.arrived ↔ ∀ i, k < (s.visitors i).arrivals.length
  freed : ∀ i release, (s.visitors i).gate = .waiting release →
    (s.visitors i).arrivals.length = k + 1 →
    (((s.step i).visitors i).releases[k]? = some release ↔
      ∀ j, k < (s.visitors j).arrivals.length)

/-- An arrival with a number of a whole round is the arrival in that round. -/
theorem Visitor.Keeps.round_of_number {participants total k k' : Nat} {v : Visitor} {a : UInt64}
    (h : v.Keeps participants total) (hk : k < wholeRounds participants)
    (ha : v.arrivals[k']? = some a) (hlower : k * participants < a.toNat)
    (hupper : a.toNat ≤ (k + 1) * participants) : k' = k := by
  obtain ⟨hfrom, -, hto⟩ := h.placed k' a ha
  have hle : min k' (wholeRounds participants) < k + 1 :=
    Nat.lt_of_mul_lt_mul_right (Nat.lt_of_lt_of_le hfrom hupper)
  have hge : k < k' + 1 := Nat.lt_of_mul_lt_mul_right (Nat.lt_of_lt_of_le hlower (hto (by omega)))
  omega

theorem Crowd.Sound.round {s : Crowd n} (h : s.Sound) {k : Nat} (hk : k < wholeRounds n.toNat) :
    s.Round k where
  released i r hr := by
    obtain ⟨heq, hfull⟩ := (h.keeps i).released k r hr hk
    exact ⟨heq, (h.full_iff hk).1 hfull⟩
  ahead i hi j := by
    obtain ⟨hlower, htotal, -⟩ := (h.keeps i).placed k _ (List.getElem?_eq_getElem hi)
    rw [Nat.min_eq_left (Nat.le_of_lt hk)] at hlower
    exact h.present k (Nat.le_of_lt hk) (by omega) j
  placed i a ha := by
    obtain ⟨hlower, -, hupper⟩ := (h.keeps i).placed k a ha
    rw [Nat.min_eq_left (Nat.le_of_lt hk)] at hlower
    exact ⟨hlower, hupper hk⟩
  owned m hlower hupper hm := by
    obtain ⟨i, ⟨a, ha, rfl⟩, hunique⟩ := h.owned m (by omega) hm
    obtain ⟨k', hk'⟩ := List.getElem?_of_mem ha
    obtain rfl := (h.keeps i).round_of_number hk hk' hlower hupper
    refine ⟨i, ⟨a, hk', rfl⟩, ?_⟩
    rintro j ⟨a', ha', heq⟩
    exact hunique j ⟨a', List.mem_of_getElem? ha', heq⟩
  complete := h.full_iff hk
  freed i release hgate hlength := by
    obtain ⟨hpaired, hcount⟩ := (h.keeps i).waits release hgate
    have hreturned : (s.visitors i).releases.length = k := by omega
    have hreached : release ≤ s.barrier.arrivals ↔ (k + 1) * n.toNat ≤ s.arrived := by
      rw [UInt64.le_iff_toNat_le, h.counted, hcount (by omega), hreturned]
    rw [← h.full_iff hk, ← hreached]
    rcases (s.visitors i).step_cases n s.barrier with
      ⟨release', hgate', hopen, hstep⟩ | ⟨release', hgate', hover, hstep⟩ | ⟨hno, -⟩
    · cases hgate.symm.trans hgate'
      simp [Crowd.step, hstep, hopen, hreturned]
    · cases hgate.symm.trans hgate'
      simp [Crowd.step, hstep, hover, ← hreturned]
    · exact absurd hgate (hno release)

/-- However the steps of the threads interleave, as long as the counter has not wrapped it counts
the arrivals, and every round whose last number is a word is as it should be. -/
theorem Crowd.run_rounds (order : List (Fin n.toNat))
    (hfew : ((Crowd.fresh n).run order).arrived < 2 ^ 64) :
    ((Crowd.fresh n).run order).barrier.arrivals.toNat = ((Crowd.fresh n).run order).arrived ∧
      ∀ k, (k + 1) * n.toNat < 2 ^ 64 → ((Crowd.fresh n).run order).Round k := by
  have hsound := Crowd.sound_run order hfew
  refine ⟨hsound.counted, fun k hk => ?_⟩
  by_cases hpos : 0 < n.toNat
  · exact hsound.round ((lt_wholeRounds_iff hpos).2 hk)
  · -- without threads there is nothing to be said
    have hnone : n.toNat = 0 := by omega
    exact ⟨fun i => absurd i.pos hpos, fun i => absurd i.pos hpos, fun i => absurd i.pos hpos,
      fun m hlower hupper => by rw [hnone] at hlower hupper; omega,
      ⟨fun _ i => absurd i.pos hpos, fun _ => by rw [hnone]; omega⟩, fun i => absurd i.pos hpos⟩

end Crowd

/-! ## Two threads -/

/-- The first of two threads arrives, and the second; the second leaves the first round and arrives
in the next one while the first still waits, and then the first looks. -/
def overtaking : List (Fin (UInt64.toNat 2)) :=
  [⟨0, by decide⟩, ⟨1, by decide⟩, ⟨1, by decide⟩, ⟨1, by decide⟩]

/-- The thread that was overtaken is released by its next look, with the number of its own round. -/
theorem Crowd.run_rounds_overtaken :
    ((Crowd.fresh 2).run overtaking).arrived < 2 ^ 64 ∧
      (((Crowd.fresh 2).run overtaking).visitors ⟨1, by decide⟩).arrivals = [2, 3] ∧
      (((Crowd.fresh 2).run overtaking).visitors ⟨0, by decide⟩).gate = .waiting 2 ∧
      ((((Crowd.fresh 2).run overtaking).step ⟨0, by decide⟩).visitors
        ⟨0, by decide⟩).releases[0]? = some 2 ∧
      ((Crowd.fresh 2).run overtaking).Round 0 := by
  have hfew : ((Crowd.fresh 2).run overtaking).arrived < 2 ^ 64 := by decide
  have hround := (Crowd.run_rounds overtaking hfew).2 0 (by decide)
  have hwaits : (((Crowd.fresh 2).run overtaking).visitors ⟨0, by decide⟩).gate = .waiting 2 := by
    decide
  refine ⟨hfew, by decide, hwaits, ?_, hround⟩
  exact (hround.freed ⟨0, by decide⟩ 2 hwaits (by decide)).2 (by decide)

end LatencyGauge
