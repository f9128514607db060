/-
Runs in which only cores of the background may be lost. Such a run stays sound, whatever the order
of its events.
-/
import LatencyGauge.Proofs.Host.Events
import LatencyGauge.Proofs.Host.Sound

namespace LatencyGauge

variable {p : RunPlan} {m : Machine} {n : Nat}

/-! ## Requests -/

/-- How many requests to flush an event announces. -/
def Machine.requests (m : Machine) : Event → Nat
  | .core i _ => (m.position i).requests
  | _ => 0

/-- How many requests to flush events in a row announce. -/
def Machine.requestsIn (m : Machine) : List Event → Nat
  | [] => 0
  | e :: events => m.requests e + (m.step e).requestsIn events

/-! ## Sound runs -/

/-- Whether an event loses nobody that others wait for. -/
def Event.Harmless (p : RunPlan) : Event → Prop
  | .loss i => Role.assign p i = p.background.role
  | _ => True

theorem Role.assign_eq_background_iff {i : Nat} : Role.assign p i = p.background.role ↔
    p.primaries.toNat ≤ i ∧ p.sender? i = none ∧
      (p.workload = .response → p.firstFree? ≠ some i) := by
  refine ⟨fun h => ?_, fun ⟨hle, hsender, hfree⟩ => Role.assign_rest hle hsender hfree⟩
  rcases Role.assign_cases p i with
    ⟨-, hrole⟩ | ⟨-, c, -, hrole⟩ | ⟨-, -, hrole⟩ | ⟨hle, hsender, hfree, -⟩
  · rcases p.background.role_eq with hb | hb <;> rw [hrole, hb] at h <;> cases h
  · rcases p.background.role_eq with hb | hb <;> rw [hrole, hb] at h <;> cases h
  · rcases p.background.role_eq with hb | hb <;> rw [hrole, hb] at h <;> cases h
  · exact ⟨hle, hsender, hfree⟩

/-- A machine that runs a plan, soundly. -/
structure Machine.Well (p : RunPlan) (n : Nat) (m : Machine) : Prop where
  runs : m.Runs p
  sound : Sound p n m.shared m.position

theorem Machine.well_start (hfits : p.Fits) : (Machine.start p).Well p 0 :=
  ⟨Machine.runs_start p, sound_start hfits fun _ => Machine.position_start⟩

theorem Machine.Well.step (hfits : p.Fits) (h : m.Well p n) {e : Event}
    (he : e.Harmless p) : (m.step e).Well p (n + m.requests e) := by
  refine ⟨h.runs.step e, ?_⟩
  have hmoved := m.step_moved e
  generalize (m.step e).shared = s' at hmoved
  generalize (m.step e).position = f' at hmoved
  cases hmoved with
  | core hi =>
    rw [h.runs.plan]
    exact h.sound.step hfits (h.runs.size ▸ hi)
  | @loss i hi hwork =>
    obtain ⟨hle, hsender, hfree⟩ := Role.assign_eq_background_iff.1 he
    exact h.sound.loses hfits hwork hle hsender hfree
  | still t hidle =>
    have hquiet : m.requests e = 0 := by
      cases e with
      | core i r =>
        rw [Machine.requests, m.position_of_le (hidle i r rfl)]
        rfl
      | timer | loss => rfl
    rw [hquiet]
    exact h.sound.ticks t

/-- A run in which nobody is lost that others wait for is sound. -/
theorem Machine.Well.run (hfits : p.Fits) (h : m.Well p n) {events : List Event}
    (hharmless : ∀ e ∈ events, e.Harmless p) :
    (m.run events).Well p (n + m.requestsIn events) := by
  induction events generalizing m n with
  | nil => exact h
  | cons e events ih =>
    have hnext := ih (h.step hfits (hharmless e List.mem_cons_self)) fun e' he' =>
      hharmless e' (List.mem_cons_of_mem _ he')
    rw [Nat.add_assoc] at hnext
    exact hnext

end LatencyGauge
