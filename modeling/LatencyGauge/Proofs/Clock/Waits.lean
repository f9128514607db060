/-
Waits on a clock that can only be read. A wait is over at the first reading that is more than its
cycles after the first one. On a clock that advances by one cycle a reading, wrapping or not, that
is the reading one cycle later than was asked for. No difference of readings is more than the
greatest word, so a wait of that many cycles is never over, and no check of a plan refuses it.
-/
import LatencyGauge.Clock.Playback
import LatencyGauge.Clock.Wait
import LatencyGauge.Plan.Loop
import LatencyGauge.Proofs.Iteration

namespace LatencyGauge

variable {W : Type} {now : W → Cycles × W} {w : W}

/-! ## Readings -/

/-- The world after a clock was read so many times. -/
def afterReadings (now : W → Cycles × W) : Nat → W → W
  | 0, w => w
  | n + 1, w => afterReadings now n (now w).2

/-- The reading that a clock gives after so many others. -/
def readingAfter (now : W → Cycles × W) (n : Nat) (w : W) : Cycles :=
  (now (afterReadings now n w)).1

/-- A clock that shows one cycle more at every reading; after the greatest word it shows zero. -/
def CountsReadings (now : W → Cycles × W) (w : W) : Prop :=
  ∀ n, readingAfter now (n + 1) w = readingAfter now n w + 1

theorem afterReadings_succ (n : Nat) (w : W) :
    afterReadings now (n + 1) w = (now (afterReadings now n w)).2 := by
  induction n generalizing w with
  | zero => rfl
  | succ n ih => exact ih (now w).2

theorem CountsReadings.elapsed (h : CountsReadings now w) (n : Nat) :
    readingAfter now n w = readingAfter now 0 w + UInt64.ofNat n := by
  induction n with
  | zero => exact (UInt64.add_zero _).symm
  | succ n ih => rw [h n, ih, UInt64.add_assoc, ← UInt64.ofNat_one, ← UInt64.ofNat_add]

theorem CountsReadings.elapsed_sub (h : CountsReadings now w) (n : Nat) :
    readingAfter now n w - readingAfter now 0 w = UInt64.ofNat n := by
  rw [h.elapsed n, UInt64.add_comm, UInt64.add_sub_cancel]

/-! ## The end of a wait -/

/-- A wait is over at the first reading that is more than its cycles after the first one. -/
theorem waitFor_eq_some_iff {cycles reading : Cycles} {fuel : Nat} {w' : W} :
    waitFor now cycles fuel w = some (reading, w') ↔
      ∃ n ≤ fuel, readingAfter now (n + 1) w = reading ∧ afterReadings now (n + 2) w = w' ∧
        cycles < reading - readingAfter now 0 w ∧
        ∀ k < n, ¬ cycles < readingAfter now (k + 1) w - readingAfter now 0 w := by
  have hwait : waitFor now cycles fuel w = iterate
      (fun s => overdue (readingAfter now 0 w) cycles s.1) (fun s => now s.2) fuel
      (now (afterReadings now (0 + 1) w)) := rfl
  have hstates : ∀ n, now (afterReadings now (n + 1 + 1) w) =
      now (now (afterReadings now (n + 1) w)).2 := fun n => by rw [afterReadings_succ]
  rw [hwait, iterate_eq_some_iff (fun n => now (afterReadings now (n + 1) w)) hstates]
  constructor
  · rintro ⟨n, hn, heq, hover, hbefore⟩
    have hreading : readingAfter now (n + 1) w = reading := congrArg Prod.fst heq
    have hworld : afterReadings now (n + 2) w = w' := by
      rw [afterReadings_succ]
      exact congrArg Prod.snd heq
    exact ⟨n, hn, hreading, hworld, of_decide_eq_true hover,
      fun k hk => of_decide_eq_false (hbefore k hk)⟩
  · rintro ⟨n, hn, rfl, rfl, hover, hbefore⟩
    exact ⟨n, hn, Prod.ext rfl (afterReadings_succ (n + 1) w).symm, decide_eq_true hover,
      fun k hk => decide_eq_false (hbefore k hk)⟩

theorem le_greatestWord (c : Cycles) : c ≤ greatestWord :=
  UInt64.le_iff_toNat_le.2 (Nat.le_of_lt_succ c.toNat_lt)

/-- No clock ends a wait of as many cycles as a word can count. -/
theorem waitFor_greatestWord (fuel : Nat) (w : W) : waitFor now greatestWord fuel w = none := by
  rw [Option.eq_none_iff_forall_ne_some]
  rintro ⟨reading, w'⟩ h
  obtain ⟨-, -, -, -, hover, -⟩ := waitFor_eq_some_iff.1 h
  exact UInt64.not_lt.2 (le_greatestWord _) hover

/-- Counted in readings, a wait is over once there are more of them than its cycles. -/
theorem CountsReadings.overdue_iff (h : CountsReadings now w) {cycles : Cycles} {n : Nat}
    (hn : n < UInt64.size) :
    cycles < readingAfter now n w - readingAfter now 0 w ↔ cycles.toNat < n := by
  rw [h.elapsed_sub, UInt64.lt_iff_toNat_lt, UInt64.toNat_ofNat_of_lt' hn]

/-- With any other number of cycles, the wait is over one cycle later than was asked for. -/
theorem CountsReadings.waitFor_eq (h : CountsReadings now w) {cycles : Cycles}
    (hcycles : cycles ≠ greatestWord) {fuel : Nat} (hfuel : cycles.toNat ≤ fuel) :
    waitFor now cycles fuel w =
      some (readingAfter now (cycles.toNat + 1) w, afterReadings now (cycles.toNat + 2) w) := by
  have hless : cycles.toNat + 1 < UInt64.size := by
    have hlt := UInt64.lt_iff_toNat_lt.1 (UInt64.lt_of_le_of_ne (le_greatestWord cycles) hcycles)
    have hgreatest : greatestWord.toNat = UInt64.size - 1 := rfl
    omega
  rw [waitFor_eq_some_iff]
  refine ⟨cycles.toNat, hfuel, rfl, rfl, (h.overdue_iff hless).2 (Nat.lt_succ_self _), ?_⟩
  intro k hk
  rw [h.overdue_iff (by omega)]
  omega

/-- A plan may ask for a wait of any number of cycles. -/
theorem LoopPlan.Valid.waits {p : LoopPlan} (h : p.Valid) (cycles : Cycles) :
    (p.store (.settle cycles)).Valid ∧ (p.store (.quiescence cycles)).Valid :=
  ⟨h, h⟩

/-- On a clock that advances by one cycle a reading, whatever it shows first, a wait that a plan may
ask for is over after finitely many readings exactly if it is not for as many cycles as a word can
count. Once it is over, one cycle more has passed since the first reading than was asked for, also
when the readings wrapped meanwhile. -/
theorem CountsReadings.wait_ends_iff (h : CountsReadings now w) (cycles : Cycles) :
    (∀ p : LoopPlan, p.Valid →
      (p.store (.settle cycles)).Valid ∧ (p.store (.quiescence cycles)).Valid) ∧
    ((∃ fuel, (waitFor now cycles fuel w).isSome) ↔ cycles ≠ greatestWord) ∧
    ∀ fuel reading w', waitFor now cycles fuel w = some (reading, w') →
      ∃ elapsed, elapsed = cycles.toNat + 1 ∧ w' = afterReadings now (elapsed + 1) w ∧
        reading = readingAfter now 0 w + UInt64.ofNat elapsed := by
  have hends : ∀ fuel reading w', waitFor now cycles fuel w = some (reading, w') →
      cycles ≠ greatestWord := by
    rintro fuel reading w' hwait rfl
    rw [waitFor_greatestWord] at hwait
    cases hwait
  refine ⟨fun p hp => hp.waits cycles, ⟨?_, fun hcycles => ?_⟩, fun fuel reading w' hwait => ?_⟩
  · rintro ⟨fuel, hsome⟩
    obtain ⟨⟨reading, w'⟩, hwait⟩ := Option.isSome_iff_exists.1 hsome
    exact hends fuel reading w' hwait
  · exact ⟨cycles.toNat, by rw [h.waitFor_eq hcycles (Nat.le_refl _)]; rfl⟩
  · -- more fuel does not change where it ended
    have hlong : waitFor now cycles (fuel + cycles.toNat) w = some (reading, w') :=
      iterate_mono hwait (Nat.le_add_right _ _)
    rw [h.waitFor_eq (hends fuel reading w' hwait) (Nat.le_add_left _ _)] at hlong
    cases hlong
    exact ⟨cycles.toNat + 1, rfl, rfl, h.elapsed _⟩

/-- A clock that strides by one cycle. -/
def Striding.single (start : Cycles) : Striding := ⟨start, [1], 0⟩

theorem Striding.single_counts (start : Cycles) :
    CountsReadings Striding.now (Striding.single start) := by
  have hvalue : ∀ n, afterReadings Striding.now n (Striding.single start) =
      ⟨start + UInt64.ofNat n, [1], n⟩ := fun n => by
    induction n with
    | zero => exact congrArg (Striding.mk · [1] 0) (UInt64.add_zero start).symm
    | succ n ih =>
      have hstride : cyclic? [(1 : Cycles)] n = some 1 := by
        rw [cyclic?, List.length_singleton, Nat.mod_one]
        rfl
      rw [afterReadings_succ, ih, Striding.now, hstride, UInt64.ofNat_add, UInt64.ofNat_one,
        ← UInt64.add_assoc]
      rfl
  intro n
  rw [readingAfter, readingAfter, hvalue, hvalue, UInt64.ofNat_add, UInt64.ofNat_one,
    ← UInt64.add_assoc]
  rfl

/-- Three cycles before it wraps, a clock ends a wait of five cycles at its seventh reading, and it
ends no wait of as many cycles as a word can count. -/
theorem CountsReadings.wait_ends_iff_wrapping :
    CountsReadings Striding.now (Striding.single (greatestWord - 2)) ∧
    waitFor Striding.now 5 5 (Striding.single (greatestWord - 2)) = some (3, ⟨4, [1], 7⟩) ∧
    (∃ elapsed, elapsed = (5 : Cycles).toNat + 1 ∧
      ⟨4, [1], 7⟩ = afterReadings Striding.now (elapsed + 1) (Striding.single (greatestWord - 2)) ∧
      3 = readingAfter Striding.now 0 (Striding.single (greatestWord - 2)) + UInt64.ofNat elapsed) ∧
    ¬ ∃ fuel, (waitFor Striding.now greatestWord fuel
      (Striding.single (greatestWord - 2))).isSome := by
  have hcounts := Striding.single_counts (greatestWord - 2)
  have hwait : waitFor Striding.now 5 5 (Striding.single (greatestWord - 2)) =
      some (3, ⟨4, [1], 7⟩) := by decide
  obtain ⟨-, -, hover⟩ := hcounts.wait_ends_iff 5
  obtain ⟨-, hends, -⟩ := hcounts.wait_ends_iff greatestWord
  exact ⟨hcounts, hwait, hover 5 3 _ hwait, fun hsome => hends.1 hsome rfl⟩

end LatencyGauge
