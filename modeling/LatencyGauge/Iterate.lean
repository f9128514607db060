/-
Repeating a step until a condition holds. The number of steps is bounded by fuel, and running out
of it is an outcome of its own; an outcome that was reached does not change with more fuel, and
what every step keeps holds at the end.
-/

namespace LatencyGauge

variable {S : Type}

/-! ## Iteration -/

/-- Repeats `next` until `stop` holds, for at most `fuel` steps. -/
def iterate (stop : S → Bool) (next : S → S) : Nat → S → Option S
  | 0, s => if stop s then some s else none
  | fuel + 1, s => if stop s then some s else iterate stop next fuel (next s)

/-- Where an iteration ends the condition holds. -/
theorem stop_of_iterate {stop : S → Bool} {next : S → S} {fuel : Nat} {s t : S}
    (h : iterate stop next fuel s = some t) : stop t = true := by
  induction fuel generalizing s with
  | zero =>
    simp only [iterate] at h
    split at h
    · cases h; assumption
    · cases h
  | succ n ih =>
    simp only [iterate] at h
    split at h
    · cases h; assumption
    · exact ih h

/-- An iteration keeps what its steps keep. -/
theorem iterate_invariant {stop : S → Bool} {next : S → S} {P : S → Prop}
    (step : ∀ s, stop s = false → P s → P (next s)) {fuel : Nat} {s t : S} (hs : P s)
    (h : iterate stop next fuel s = some t) : P t := by
  induction fuel generalizing s with
  | zero =>
    simp only [iterate] at h
    split at h
    · cases h; exact hs
    · cases h
  | succ n ih =>
    simp only [iterate] at h
    split at h
    · cases h; exact hs
    · rename_i hn; exact ih (step s (by simpa using hn) hs) h

/-- More fuel does not change an outcome. -/
theorem iterate_mono {stop : S → Bool} {next : S → S} {fuel more : Nat} {s t : S}
    (h : iterate stop next fuel s = some t) (le : fuel ≤ more) :
    iterate stop next more s = some t := by
  induction fuel generalizing s more with
  | zero =>
    simp only [iterate] at h
    split at h
    · rename_i hs
      cases more <;> simpa [iterate, hs] using h
    · cases h
  | succ n ih =>
    obtain ⟨m, rfl⟩ : ∃ m, more = m + 1 := ⟨more - 1, by omega⟩
    simp only [iterate] at h ⊢
    split
    · rename_i hs; simpa [hs] using h
    · rename_i hs
      simp only [hs] at h
      exact ih h (by omega)

/-- Steps every core once, from core `core` on. -/
def sweepFrom (step : Nat → S → S) (core : Nat) : Nat → S → S
  | 0, s => s
  | left + 1, s => sweepFrom step (core + 1) left (step core s)

/-- Steps every one of `cores` cores once, in order. -/
def sweep (step : Nat → S → S) (cores : Nat) (s : S) : S := sweepFrom step 0 cores s

end LatencyGauge
