/-
Turns of a primary and its flusher. In a turn a request is announced, one flush begins and ends, the
request is acknowledged, and it returns; a turn is always somewhere, and every step of either leaves
it there, goes on to what comes next, or begins another turn. With a request pending every step of
the flusher gets closer to its acknowledgement.

Requests count from one, and their numbers are words.
-/
import Mathlib.Algebra.Group.Nat.Defs
import LatencyGauge.Sync.Handshake

namespace LatencyGauge

/-! ## Deeds -/

/-- What a primary and its flusher do, of what others can tell. -/
inductive Deed where
  | announced (number : UInt64)
  | begun
  | flushed
  | acknowledged (number : UInt64)
  | returned (number : UInt64)
deriving DecidableEq, Repr

def Deed.announces : Deed → Bool
  | .announced _ => true
  | _ => false

def Deed.flushes : Deed → Bool
  | .flushed => true
  | _ => false

def Deed.returns : Deed → Bool
  | .returned _ => true
  | _ => false

/-- What is done between two places of a request. -/
def Request.deed? : Request → Request → Option Deed
  | .announcing number, _ => some (.announced number)
  | .waiting _, .ended number => some (.returned number)
  | _, _ => none

/-- What is done between two places of a flusher. -/
def Flushing.deed? : Flushing → Flushing → Option Deed
  | .comparing _, .flushing _ => some .begun
  | .flushing _, _ => some .flushed
  | .acknowledging number, _ => some (.acknowledged number)
  | _, _ => none

/-- All that is done for the request with a number. -/
def turn (number : Nat) : List Deed :=
  [.announced (.ofNat number), .begun, .flushed, .acknowledged (.ofNat number),
    .returned (.ofNat number)]

/-- All that is done for the first requests. -/
def turns (number : Nat) : List Deed := (List.range number).flatMap fun k => turn (k + 1)

theorem turns_succ (k : Nat) : turns (k + 1) = turns k ++ turn (k + 1) := by
  simp [turns, List.range_succ]

/-- What is done once in every turn is done as often as there are turns. -/
theorem countP_turns {p : Deed → Bool} (honce : ∀ k, (turn k).countP p = 1) (k : Nat) :
    (turns k).countP p = k := by
  induction k with
  | zero => rfl
  | succ k ih => rw [turns_succ, List.countP_append, ih, honce]

/-! ## Turns -/

/-- Where the turn after the first `k` stands: the counters, the primary, the flusher, and what was
done in it. -/
inductive Phase (k : Nat) : Handshake → Request → Flusher → List Deed → Prop
  | resting {request : Request} {next : Flushing}
      (hrequest : request = .starting ∨ request = .announcing (.ofNat (k + 1)))
      (hnext : next = .looking ∨ next = .comparing (.ofNat k) ∨ next = .asking ∨ next = .ended) :
      Phase k ⟨.ofNat k, .ofNat k⟩ request ⟨next, k⟩ []
  | announced {next : Flushing}
      (hnext : next = .looking ∨ next = .comparing (.ofNat k) ∨
        next = .comparing (.ofNat (k + 1)) ∨ next = .asking) :
      Phase k ⟨.ofNat (k + 1), .ofNat k⟩ (.waiting (.ofNat (k + 1))) ⟨next, k⟩
        ((turn (k + 1)).take 1)
  | begun :
      Phase k ⟨.ofNat (k + 1), .ofNat k⟩ (.waiting (.ofNat (k + 1)))
        ⟨.flushing (.ofNat (k + 1)), k⟩ ((turn (k + 1)).take 2)
  | flushed :
      Phase k ⟨.ofNat (k + 1), .ofNat k⟩ (.waiting (.ofNat (k + 1)))
        ⟨.acknowledging (.ofNat (k + 1)), k⟩ ((turn (k + 1)).take 3)
  | acknowledged {next : Flushing}
      (hnext : next = .looking ∨ next = .comparing (.ofNat (k + 1)) ∨ next = .asking) :
      Phase k ⟨.ofNat (k + 1), .ofNat (k + 1)⟩ (.waiting (.ofNat (k + 1))) ⟨next, k + 1⟩
        ((turn (k + 1)).take 4)

/-- Where the primary stands after a step of its request: at the next one if it has returned. -/
def Request.next : Request → Request
  | .ended _ => .starting
  | r => r

section Phase

variable {k : Nat} {h : Handshake} {request : Request} {f : Flusher} {deeds : List Deed}

theorem ofNat_lt_succ (hword : k + 1 < 2 ^ 64) : UInt64.ofNat k < UInt64.ofNat (k + 1) := by
  rw [UInt64.lt_iff_toNat_lt, UInt64.toNat_ofNat_of_lt' (Nat.lt_of_succ_lt hword),
    UInt64.toNat_ofNat_of_lt' hword]
  exact Nat.lt_succ_self k

/-- The turn is not over. -/
theorem Phase.proper (hp : Phase k h request f deeds) :
    ∃ done < 5, deeds = (turn (k + 1)).take done := by
  cases hp with
  | resting => exact ⟨0, by decide, rfl⟩
  | announced => exact ⟨1, by decide, rfl⟩
  | begun => exact ⟨2, by decide, rfl⟩
  | flushed => exact ⟨3, by decide, rfl⟩
  | acknowledged => exact ⟨4, by decide, rfl⟩

theorem Request.step_waiting {number : UInt64} (hpending : h.completed < number) :
    Request.step h (.waiting number) = (.waiting number, h) := by
  simp only [Request.step, hpending, if_true]

theorem Request.step_returning {number : UInt64} (hover : ¬ h.completed < number) :
    Request.step h (.waiting number) = (.ended number, h) := by
  simp only [Request.step, hover, if_false]

/-- A step of the primary, while the flusher serves. -/
theorem Phase.primary (hp : Phase k h request f deeds) (hserves : f.next ≠ .ended)
    (hword : k + deeds.countP Deed.announces < 2 ^ 64) :
    ∃ k' deeds', turns k ++ (deeds ++ (request.deed? (request.step h).1).toList) =
        turns k' ++ deeds' ∧
      Phase k' (request.step h).2 (request.step h).1.next f deeds' := by
  cases hp with
  | resting hrequest hnext =>
    obtain rfl | rfl := hrequest
    · have hnumber : UInt64.ofNat k + 1 = UInt64.ofNat (k + 1) := (UInt64.ofNat_add k 1).symm
      exact ⟨k, [], rfl, .resting (.inr (congrArg _ hnumber)) hnext⟩
    · -- the request is announced, and what the flusher has read before is out of date
      refine ⟨k, _, rfl, .announced ?_⟩
      obtain rfl | rfl | rfl | rfl := hnext
      · exact .inl rfl
      · exact .inr (.inl rfl)
      · exact .inr (.inr (.inr rfl))
      · exact absurd rfl hserves
  | announced hnext =>
    rw [Request.step_waiting (ofNat_lt_succ hword)]
    exact ⟨k, _, rfl, .announced hnext⟩
  | begun =>
    rw [Request.step_waiting (ofNat_lt_succ hword)]
    exact ⟨k, _, rfl, .begun⟩
  | flushed =>
    rw [Request.step_waiting (ofNat_lt_succ hword)]
    exact ⟨k, _, rfl, .flushed⟩
  | acknowledged hnext =>
    -- the request returns, and the turn is over
    rw [Request.step_returning (UInt64.lt_irrefl _)]
    refine ⟨k + 1, [], ?_, .resting (.inl rfl) ?_⟩
    · rw [turns_succ, List.append_nil]
      rfl
    · obtain rfl | rfl | rfl := hnext <;> simp

/-- A step of the flusher; the flag is set only while no request is made. -/
theorem Phase.flusher {done : Bool} (hp : Phase k h request f deeds)
    (hdone : done = true → request = .starting)
    (hword : k + deeds.countP Deed.announces < 2 ^ 64) :
    Phase k (f.step done h).2 request (f.step done h).1
      (deeds ++ (f.next.deed? (f.step done h).1.next).toList) := by
  cases hp with
  | resting hrequest hnext =>
    obtain rfl | rfl | rfl | rfl := hnext
    · exact .resting hrequest (.inr (.inl rfl))
    · have hnone : Flusher.step done ⟨.ofNat k, .ofNat k⟩ ⟨.comparing (.ofNat k), k⟩ =
          (⟨.asking, k⟩, ⟨.ofNat k, .ofNat k⟩) := by simp [Flusher.step]
      rw [hnone]
      exact .resting hrequest (.inr (.inr (.inl rfl)))
    · cases done with
      | false => exact .resting hrequest (.inl rfl)
      | true => exact .resting hrequest (.inr (.inr (.inr rfl)))
    · exact .resting hrequest (.inr (.inr (.inr rfl)))
  | announced hnext =>
    have hgoes : done = false := Bool.eq_false_iff.2 fun hset => nomatch hdone hset
    obtain rfl | rfl | rfl | rfl := hnext
    · exact .announced (.inr (.inr (.inl rfl)))
    · -- the request was announced after the flusher had looked
      have hmissed : Flusher.step done ⟨.ofNat (k + 1), .ofNat k⟩ ⟨.comparing (.ofNat k), k⟩ =
          (⟨.asking, k⟩, ⟨.ofNat (k + 1), .ofNat k⟩) := by simp [Flusher.step]
      rw [hmissed]
      exact .announced (.inr (.inr (.inr rfl)))
    · have hseen : Flusher.step done ⟨.ofNat (k + 1), .ofNat k⟩ ⟨.comparing (.ofNat (k + 1)), k⟩ =
          (⟨.flushing (.ofNat (k + 1)), k⟩, ⟨.ofNat (k + 1), .ofNat k⟩) := by
        simp only [Flusher.step, ofNat_lt_succ hword, if_true]
      rw [hseen]
      exact .begun
    · rw [hgoes]
      exact .announced (.inl rfl)
  | begun => exact .flushed
  | flushed => exact .acknowledged (.inl rfl)
  | acknowledged hnext =>
    have hgoes : done = false := Bool.eq_false_iff.2 fun hset => nomatch hdone hset
    obtain rfl | rfl | rfl := hnext
    · exact .acknowledged (.inr (.inl rfl))
    · have hnone : Flusher.step done ⟨.ofNat (k + 1), .ofNat (k + 1)⟩
          ⟨.comparing (.ofNat (k + 1)), k + 1⟩ =
          (⟨.asking, k + 1⟩, ⟨.ofNat (k + 1), .ofNat (k + 1)⟩) := by simp [Flusher.step]
      rw [hnone]
      exact .acknowledged (.inr (.inr rfl))
    · rw [hgoes]
      exact .acknowledged (.inl rfl)

/-- A flusher ends only if the flag is set. -/
theorem Flusher.ended_step {done : Bool} (hended : (f.step done h).1.next = .ended) :
    f.next = .ended ∨ done = true := by
  obtain ⟨next, served⟩ := f
  cases next with
  | ended => exact .inl rfl
  | asking =>
    cases done with
    | true => exact .inr rfl
    | false => cases hended
  | comparing pending =>
    simp only [Flusher.step] at hended
    split at hended <;> cases hended
  | looking | flushing | acknowledging => cases hended

/-- What the counters and the flusher count, against what was done: requests return after they are
acknowledged, are acknowledged after they are flushed for, and at most one is under way. -/
structure Counts (h : Handshake) (f : Flusher) (requests flushes returns : Nat) : Prop where
  requested : h.requested.toNat = requests
  completed : h.completed.toNat = f.served
  returned : returns ≤ f.served
  served : f.served ≤ flushes
  flushed : flushes ≤ requests
  pending : requests ≤ returns + 1

theorem Phase.counts (hp : Phase k h request f deeds)
    (hword : k + deeds.countP Deed.announces < 2 ^ 64) :
    Counts h f (k + deeds.countP Deed.announces) (k + deeds.countP Deed.flushes)
      (k + deeds.countP Deed.returns) := by
  have hk : (UInt64.ofNat k).toNat = k :=
    UInt64.toNat_ofNat_of_lt' (Nat.lt_of_le_of_lt (Nat.le_add_right ..) hword)
  have hle : k ≤ k + 1 := Nat.le_succ k
  cases hp with
  | resting => exact ⟨hk, hk, Nat.le_refl k, Nat.le_refl k, Nat.le_refl k, hle⟩
  | announced | begun =>
    have hsucc : (UInt64.ofNat (k + 1)).toNat = k + 1 := UInt64.toNat_ofNat_of_lt' hword
    exact ⟨hsucc, hk, Nat.le_refl k, Nat.le_refl k, hle, Nat.le_refl (k + 1)⟩
  | flushed =>
    have hsucc : (UInt64.ofNat (k + 1)).toNat = k + 1 := UInt64.toNat_ofNat_of_lt' hword
    exact ⟨hsucc, hk, Nat.le_refl k, hle, Nat.le_refl (k + 1), Nat.le_refl (k + 1)⟩
  | acknowledged =>
    have hsucc : (UInt64.ofNat (k + 1)).toNat = k + 1 := UInt64.toNat_ofNat_of_lt' hword
    exact ⟨hsucc, hsucc, hle, Nat.le_refl (k + 1), Nat.le_refl (k + 1), Nat.le_refl (k + 1)⟩

end Phase

/-! ## How long it takes -/

/-- How many steps a flusher takes before the one that acknowledges a pending request, at most. -/
def Flushing.lag (completed : UInt64) : Flushing → Nat
  | .looking => 3
  | .comparing pending => if completed < pending then 2 else 5
  | .flushing _ => 1
  | .acknowledging _ => 0
  | .asking => 4
  | .ended => 0

theorem Flushing.lag_le (completed : UInt64) (next : Flushing) : next.lag completed ≤ 5 := by
  cases next <;> simp only [Flushing.lag] <;> (try split) <;> decide

/-- How many steps a flusher takes before the one that ends it, at most, when nothing is pending and
the flag is set. -/
def Flushing.rest : Flushing → Nat
  | .looking => 2
  | .comparing _ => 1
  | _ => 0

theorem Flushing.rest_le (next : Flushing) : next.rest ≤ 2 := by
  cases next <;> simp [Flushing.rest]

section Phase

variable {k : Nat} {h : Handshake} {request : Request} {f : Flusher} {deeds : List Deed}

/-- While no request is made the last turn is over. -/
theorem Phase.over (hp : Phase k h .starting f deeds) : deeds = [] ∧ f.served = k := by
  cases hp
  exact ⟨rfl, rfl⟩

/-- With a request pending every step of the flusher gets closer to its acknowledgement. -/
theorem Phase.lag_step {done : Bool} (hp : Phase k h request f deeds)
    (hdone : done = true → request = .starting)
    (hword : k + deeds.countP Deed.announces < 2 ^ 64)
    (hpending : f.served < k + deeds.countP Deed.announces) :
    k + deeds.countP Deed.announces ≤ (f.step done h).1.served ∨
      (f.step done h).1.next.lag (f.step done h).2.completed < f.next.lag h.completed := by
  cases hp with
  | resting => exact absurd hpending (Nat.lt_irrefl k)
  | acknowledged => exact absurd hpending (Nat.lt_irrefl (k + 1))
  | announced hnext =>
    have hgoes : done = false := Bool.eq_false_iff.2 fun hset => nomatch hdone hset
    have hless := ofNat_lt_succ hword
    right
    obtain rfl | rfl | rfl | rfl := hnext
    · simp only [Flusher.step, Flushing.lag, hless, if_true]
      decide
    · simp only [Flusher.step, Flushing.lag, UInt64.lt_irrefl, if_false]
      decide
    · simp only [Flusher.step, Flushing.lag, hless, if_true]
      decide
    · rw [hgoes]
      exact (by decide : 3 < 4)
  | begun => exact .inr Nat.zero_lt_one
  | flushed => exact .inl (Nat.le_refl (k + 1))

/-- With the flag set every step of the flusher gets closer to its end. -/
theorem Phase.rest_step (hp : Phase k h .starting f deeds) :
    (f.step true h).1.next = .ended ∨ (f.step true h).1.next.rest < f.next.rest := by
  cases hp with
  | resting hrequest hnext =>
    obtain rfl | rfl | rfl | rfl := hnext
    · exact .inr Nat.one_lt_two
    · refine .inr ?_
      simp only [Flusher.step, UInt64.lt_irrefl, if_false]
      exact Nat.zero_lt_one
    · exact .inl rfl
    · exact .inl rfl

/-- With the flag set the flusher does nothing more. -/
theorem Phase.deed_done (hp : Phase k h .starting f deeds) :
    f.next.deed? (f.step true h).1.next = none := by
  cases hp with
  | resting hrequest hnext =>
    obtain rfl | rfl | rfl | rfl := hnext
    · rfl
    · simp only [Flusher.step, UInt64.lt_irrefl, if_false]
      rfl
    · rfl
    · rfl

/-- A request that was acknowledged returns by the next step of the primary. -/
theorem Phase.served_le (hp : Phase k h request f deeds) :
    f.served ≤ k + (deeds ++ (request.deed? (request.step h).1).toList).countP Deed.returns := by
  cases hp with
  | resting | announced | begun | flushed => exact Nat.le_add_right k _
  | acknowledged =>
    rw [Request.step_returning (UInt64.lt_irrefl _)]
    exact Nat.le_refl (k + 1)

end Phase

end LatencyGauge
