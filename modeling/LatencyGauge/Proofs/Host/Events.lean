/-
Events of a run, seen through the positions of its cores. An event moves one core by a step, loses
one core that is at work, or changes nothing but the timer's ticks.
-/
import Mathlib.Logic.Function.Basic
import LatencyGauge.Host.Machine

namespace LatencyGauge

open Function

variable {p : RunPlan} {m : Machine}

/-- Where a core is; out of range there is none. -/
def Machine.position (m : Machine) (i : Nat) : Position := m.cores.getD i .lost

theorem Machine.position_of_le (m : Machine) {i : Nat} (hi : m.cores.size ≤ i) :
    m.position i = .lost := by
  simp [Machine.position, hi]

theorem Machine.getElem?_cores {i : Nat} {pos : Position} :
    m.cores[i]? = some pos ↔ i < m.cores.size ∧ m.position i = pos := by
  unfold Machine.position
  rw [Array.getElem?_eq_some_iff]
  constructor
  · rintro ⟨hi, rfl⟩
    exact ⟨hi, by simp [hi]⟩
  · rintro ⟨hi, rfl⟩
    exact ⟨hi, by simp [hi]⟩

/-- The machine runs a plan. -/
structure Machine.Runs (m : Machine) (p : RunPlan) : Prop where
  plan : m.plan = p
  size : m.cores.size = p.cores.toNat

theorem Machine.runs_start (p : RunPlan) : (Machine.start p).Runs p :=
  ⟨rfl, by simp [Machine.start]⟩

theorem Machine.position_start {i : Nat} (hi : i < p.cores.toNat) :
    (Machine.start p).position i = (Role.assign p i).opening := by
  simp [Machine.position, Machine.start, hi]

/-- What an event makes of what the cores share and of their positions. -/
inductive Machine.Moved (m : Machine) : Event → Shared → (Nat → Position) → Prop
  | core {i : Nat} {r : Reading} (hi : i < m.cores.size) :
      Moved m (.core i r) ((m.position i).step m.plan i r m.shared).2
        (update m.position i ((m.position i).step m.plan i r m.shared).1)
  | loss {i : Nat} (hi : i < m.cores.size) (hwork : (m.position i).atWork = true) :
      Moved m (.loss i) m.shared (update m.position i .lost)
  | still {e : Event} (t : Tick) (hidle : ∀ i r, e = .core i r → m.cores.size ≤ i) :
      Moved m e { m.shared with ticks := t } m.position

theorem Machine.position_put (m : Machine) {i : Nat} (hi : i < m.cores.size) (s : Shared)
    (pos : Position) :
    Machine.position { m with shared := s, cores := m.cores.setIfInBounds i pos } =
      update m.position i pos := by
  funext c
  rcases eq_or_ne c i with rfl | hne
  · simp [Machine.position, hi]
  · simp [Machine.position, Array.getElem?_setIfInBounds_ne hne.symm, update_of_ne hne]

/-- A step of a core. -/
theorem Machine.step_core (m : Machine) {i : Nat} (hi : i < m.cores.size) (r : Reading) :
    (m.step (.core i r)).shared = ((m.position i).step m.plan i r m.shared).2 ∧
      (m.step (.core i r)).position =
        update m.position i ((m.position i).step m.plan i r m.shared).1 := by
  have hcore := Machine.getElem?_cores.2 ⟨hi, rfl⟩
  have hstep : m.step (.core i r) = { m with
      shared := ((m.position i).step m.plan i r m.shared).2
      cores := m.cores.setIfInBounds i ((m.position i).step m.plan i r m.shared).1 } := by
    simp [Machine.step, Machine.stepCore, hcore]
  rw [hstep, m.position_put hi]
  exact ⟨rfl, rfl⟩

theorem Machine.step_core_of_le (m : Machine) {i : Nat} (hi : m.cores.size ≤ i) (r : Reading) :
    m.step (.core i r) = m := by
  simp [Machine.step, Machine.stepCore, hi]

/-- The loss of a core. -/
theorem Machine.step_loss (m : Machine) {i : Nat} (hi : i < m.cores.size)
    (hwork : (m.position i).atWork = true) : (m.step (.loss i)).shared = m.shared ∧
      (m.step (.loss i)).position = update m.position i .lost := by
  have hcore := Machine.getElem?_cores.2 ⟨hi, rfl⟩
  have hstep : m.step (.loss i) = { m with cores := m.cores.setIfInBounds i .lost } := by
    simp [Machine.step, Machine.lose, hcore, hwork]
  rw [hstep, m.position_put hi m.shared]
  exact ⟨rfl, rfl⟩

theorem Machine.step_moved (m : Machine) (e : Event) :
    m.Moved e (m.step e).shared (m.step e).position := by
  cases e with
  | core i r =>
    rcases Nat.lt_or_ge i m.cores.size with hi | hi
    · obtain ⟨hshared, hposition⟩ := m.step_core hi r
      rw [hshared, hposition]
      exact .core hi
    · rw [m.step_core_of_le hi]
      refine .still m.shared.ticks fun j _ he => ?_
      cases he
      exact hi
  | timer =>
    have hpos : (m.step .timer).position = m.position := rfl
    have hshared : ∃ t, (m.step .timer).shared = { m.shared with ticks := t } := by
      simp only [Machine.step, Machine.stepTimer, Timer.step]
      split
      · exact ⟨m.shared.ticks, rfl⟩
      · exact ⟨m.shared.ticks + 1, rfl⟩
      · exact ⟨m.shared.ticks, rfl⟩
    obtain ⟨t, ht⟩ := hshared
    rw [hpos, ht]
    exact .still t nofun
  | loss i =>
    cases hcore : m.cores[i]? with
    | none =>
      have hstep : m.step (.loss i) = m := by simp [Machine.step, Machine.lose, hcore]
      rw [hstep]
      exact .still m.shared.ticks nofun
    | some pos =>
      obtain ⟨hi, rfl⟩ := Machine.getElem?_cores.1 hcore
      by_cases hwork : (m.position i).atWork = true
      · obtain ⟨hshared, hposition⟩ := m.step_loss hi hwork
        rw [hshared, hposition]
        exact .loss hi hwork
      · -- before its work and after its end nothing can happen to a core
        have hstep : m.step (.loss i) = m := by
          simp [Machine.step, Machine.lose, hcore, hwork]
        rw [hstep]
        exact .still m.shared.ticks nofun

/-- A step that changes neither the core nor what is shared changes nothing. -/
theorem Machine.step_core_still (m : Machine) {i : Nat} (hi : i < m.cores.size) (r : Reading)
    (hstill : (m.position i).step m.plan i r m.shared = (m.position i, m.shared)) :
    m.step (.core i r) = m := by
  have hcore := Machine.getElem?_cores.2 ⟨hi, rfl⟩
  have hsame : m.cores.setIfInBounds i (m.position i) = m.cores := by
    simp [Machine.position, hi, Array.setIfInBounds]
  simp only [Machine.step, Machine.stepCore, hcore, hstill, hsame]

theorem Machine.Runs.step (h : m.Runs p) (e : Event) : (m.step e).Runs p := by
  cases e with
  | core i r =>
    cases hcore : m.cores[i]? <;> simp only [Machine.step, Machine.stepCore, hcore]
    · exact h
    · exact ⟨h.plan, (Array.size_setIfInBounds ..).trans h.size⟩
  | timer => exact ⟨h.plan, h.size⟩
  | loss i =>
    cases hcore : m.cores[i]? <;> simp only [Machine.step, Machine.lose, hcore]
    · exact h
    · split
      · exact ⟨h.plan, (Array.size_setIfInBounds ..).trans h.size⟩
      · exact h

theorem Machine.Runs.run (h : m.Runs p) (events : List Event) : (m.run events).Runs p :=
  List.foldlRecOn (motive := fun m => m.Runs p) events Machine.step h fun _ h e _ => h.step e

end LatencyGauge
