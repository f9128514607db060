/-
Iterations from outside: what they look like through a view that their steps respect, which list
they leave behind when every step adds an item to it, and when they are sure to end. Where several
step in any order, what one of them is sure to reach.
-/
import LatencyGauge.Iterate

namespace LatencyGauge

variable {S : Type}

/-! ## Views -/

/-- Through a view that the steps respect, an iteration is the iteration of the views. -/
theorem iterate_view {T : Type} (view : S → T) (stop : T → Bool) {next : T → T} {next' : S → S}
    (h : ∀ s, view (next' s) = next (view s)) (fuel : Nat) (s : S) :
    (iterate (fun s => stop (view s)) next' fuel s).map view =
      iterate stop next fuel (view s) := by
  induction fuel generalizing s with
  | zero => simp only [iterate]; split <;> rfl
  | succ n ih =>
    simp only [iterate]
    split
    · rfl
    · rw [ih, h]

/-! ## Lists left behind -/

/-- Where every step of an iteration adds an item to a list, the iteration leaves a list behind
that is no longer than the fuel; and no part of the list from its beginning belonged to a state at
which the iteration could have stopped. -/
theorem iterate_trail {A : Type} {stop : S → Bool} {next : S → S} {R : S → List A → Prop}
    (step : ∀ s l, stop s = false → R s l → ∃ a, R (next s) (l ++ [a])) {fuel : Nat} {s t : S}
    {before : List A} (hs : R s before) (h : iterate stop next fuel s = some t) :
    ∃ l, l.length ≤ fuel ∧ R t (before ++ l) ∧
      ∀ k < l.length, ∃ u, stop u = false ∧ R u (before ++ l.take k) := by
  induction fuel generalizing s before with
  | zero =>
    simp only [iterate] at h
    split at h
    · cases h; exact ⟨[], by simp, by simpa using hs, by simp⟩
    · cases h
  | succ n ih =>
    simp only [iterate] at h
    split at h
    · cases h; exact ⟨[], by simp, by simpa using hs, by simp⟩
    · rename_i hstop
      have hgo : stop s = false := by simpa using hstop
      obtain ⟨a, ha⟩ := step s before hgo hs
      obtain ⟨l, hl, ht, hparts⟩ := ih ha h
      refine ⟨a :: l, by simpa using hl, by simpa using ht, fun k hk => ?_⟩
      cases k with
      | zero => exact ⟨s, hgo, by simpa using hs⟩
      | succ k => simpa using hparts k (by simpa using hk)

/-! ## Earlier and later ends -/

/-- Of two iterations of the same steps the one that stops more easily ends first, and the other one
goes on from where it ended, with what is left of the fuel. -/
theorem iterate_earlier {stop later : S → Bool} {next : S → S}
    (hstop : ∀ s, later s = true → stop s = true) {fuel : Nat} {s t : S}
    (h : iterate later next fuel s = some t) :
    ∃ u k, k ≤ fuel ∧ iterate stop next k s = some u ∧
      iterate later next (fuel - k) u = some t := by
  induction fuel generalizing s with
  | zero =>
    have hlater : later s = true := by
      simp only [iterate] at h
      split at h
      · assumption
      · cases h
    exact ⟨s, 0, Nat.le_refl 0, by simp [iterate, hstop s hlater], h⟩
  | succ n ih =>
    by_cases hearly : stop s = true
    · exact ⟨s, 0, Nat.zero_le _, by simp [iterate, hearly], h⟩
    · have hgo : later s = false := Bool.eq_false_iff.2 fun hlater => hearly (hstop s hlater)
      simp only [iterate, hgo, Bool.false_eq_true, if_false] at h
      obtain ⟨u, k, hk, hu, ht⟩ := ih h
      exact ⟨u, k + 1, by omega, by simpa [iterate, hearly] using hu, by simpa using ht⟩

/-- Where the one that stops more easily ends and the other one would stop as well, both end. -/
theorem iterate_late {stop later : S → Bool} {next : S → S}
    (hstop : ∀ s, later s = true → stop s = true) {fuel : Nat} {s t : S}
    (h : iterate stop next fuel s = some t) (ht : later t = true) :
    iterate later next fuel s = some t := by
  induction fuel generalizing s with
  | zero =>
    simp only [iterate] at h ⊢
    split at h
    · cases h; simp [ht]
    · cases h
  | succ n ih =>
    simp only [iterate] at h ⊢
    split at h
    · cases h; simp [ht]
    · rename_i hgo
      rw [if_neg fun hlater => hgo (hstop s hlater)]
      exact ih h

/-! ## Ends -/

/-- An iteration ends at the first of its states at which it can stop, if its fuel gets it there. -/
theorem iterate_eq_some_iff {stop : S → Bool} {next : S → S} {fuel : Nat} {t : S}
    (states : Nat → S) (hnext : ∀ n, states (n + 1) = next (states n)) :
    iterate stop next fuel (states 0) = some t ↔
      ∃ n ≤ fuel, states n = t ∧ stop t = true ∧ ∀ k < n, stop (states k) = false := by
  induction fuel generalizing states with
  | zero =>
    simp only [iterate]
    constructor
    · intro h
      split at h
      · rename_i hstop
        cases h
        exact ⟨0, Nat.le_refl 0, rfl, hstop, fun k hk => absurd hk (Nat.not_lt_zero k)⟩
      · cases h
    · rintro ⟨n, hn, rfl, hstop, -⟩
      obtain rfl : n = 0 := by omega
      rw [if_pos hstop]
  | succ fuel ih =>
    simp only [iterate]
    split
    case isTrue hstop =>
      constructor
      · intro h
        cases h
        exact ⟨0, Nat.zero_le _, rfl, hstop, fun k hk => absurd hk (Nat.not_lt_zero k)⟩
      · rintro ⟨n, -, rfl, -, hbefore⟩
        rcases Nat.eq_zero_or_pos n with rfl | hn
        · rfl
        · rw [hbefore 0 hn] at hstop
          cases hstop
    case isFalse hgo =>
      have hfirst : stop (states 0) = false := by simpa using hgo
      rw [← hnext 0, ih (fun n => states (n + 1)) fun n => hnext (n + 1)]
      constructor
      · rintro ⟨n, hn, rfl, hstop, hbefore⟩
        refine ⟨n + 1, by omega, rfl, hstop, fun k hk => ?_⟩
        cases k with
        | zero => exact hfirst
        | succ k => exact hbefore k (by omega)
      · rintro ⟨n, hn, rfl, hstop, hbefore⟩
        cases n with
        | zero => exact absurd hstop hgo
        | succ n => exact ⟨n, by omega, rfl, hstop, fun k hk => hbefore (k + 1) (by omega)⟩

/-! ## Iterations that need not end -/

/-- Where an iteration stands after at most `fuel` steps; it stops before if the condition holds. -/
def iterateUpTo (stop : S → Bool) (next : S → S) : Nat → S → S
  | 0, s => s
  | fuel + 1, s => if stop s then s else iterateUpTo stop next fuel (next s)

/-- An iteration that ends stands where it ended. -/
theorem iterateUpTo_of_iterate {stop : S → Bool} {next : S → S} {fuel : Nat} {s t : S}
    (h : iterate stop next fuel s = some t) : iterateUpTo stop next fuel s = t := by
  induction fuel generalizing s with
  | zero =>
    simp only [iterate] at h
    split at h
    · cases h; rfl
    · cases h
  | succ n ih =>
    simp only [iterate] at h
    simp only [iterateUpTo]
    split
    · rename_i hs; simpa [hs] using h
    · rename_i hs; exact ih (by simpa [hs] using h)

/-- Where every step of an iteration adds an item to a list, there is a list for where the iteration
stands, with an item for each step at most that its fuel has. -/
theorem iterateUpTo_trail {A : Type} {stop : S → Bool} {next : S → S} {R : S → List A → Prop}
    (step : ∀ s l, stop s = false → R s l → ∃ a, R (next s) (l ++ [a])) (fuel : Nat) {s : S}
    {before : List A} (hs : R s before) :
    ∃ l, l.length ≤ fuel ∧ R (iterateUpTo stop next fuel s) (before ++ l) := by
  induction fuel generalizing s before with
  | zero => exact ⟨[], Nat.le_refl 0, by simpa [iterateUpTo] using hs⟩
  | succ n ih =>
    simp only [iterateUpTo]
    split
    case isTrue => exact ⟨[], Nat.zero_le _, by simpa using hs⟩
    case isFalse hgo =>
      obtain ⟨a, ha⟩ := step s before (by simpa using hgo) hs
      obtain ⟨l, hl, ht⟩ := ih ha
      exact ⟨a :: l, by simpa using hl, by simpa using ht⟩

/-- Of two iterations of the same steps the one that stops less easily goes on from where the other
one stands. -/
theorem iterateUpTo_earlier {stop later : S → Bool} {next : S → S}
    (hstop : ∀ s, later s = true → stop s = true) (fuel : Nat) (s : S) :
    ∃ k ≤ fuel, iterateUpTo later next fuel s =
      iterateUpTo later next k (iterateUpTo stop next fuel s) := by
  induction fuel generalizing s with
  | zero => exact ⟨0, Nat.le_refl 0, rfl⟩
  | succ n ih =>
    by_cases hearly : stop s = true
    · exact ⟨n + 1, Nat.le_refl _, by simp [iterateUpTo, hearly]⟩
    · have hgo : later s = false := Bool.eq_false_iff.2 fun hlater => hearly (hstop s hlater)
      obtain ⟨k, hk, heq⟩ := ih (next s)
      exact ⟨k, by omega, by simpa [iterateUpTo, hearly, hgo] using heq⟩

/-! ## Two at once -/

/-- What held before a step if it holds after it held all the way. -/
theorem iterateUpTo_since {stop : S → Bool} {next : S → S} {P : S → Prop}
    (since : ∀ s, P (next s) → P s) {fuel : Nat} {s : S} (h : P (iterateUpTo stop next fuel s)) :
    P s := by
  induction fuel generalizing s with
  | zero => exact h
  | succ n ih =>
    simp only [iterateUpTo] at h
    split at h
    · exact h
    · exact since s (ih h)

/-- Two iterations whose states belong together end together. It is enough if their steps keep this
where something that does not go away again has not come up on either side, and it has not come up
in the end. -/
theorem iterate_together {T : Type} {stop : S → Bool} {next : S → S} {stop' : T → Bool}
    {next' : T → T} {R : S → T → Prop} {P : S → Prop} {Q : T → Prop}
    (hstop : ∀ s t, R s t → stop s = stop' t)
    (hstep : ∀ s t, R s t → P (next s) → Q (next' t) → R (next s) (next' t))
    (since : ∀ s, P (next s) → P s) (since' : ∀ t, Q (next' t) → Q t) {fuel : Nat} {s : S} {t : T}
    (h : R s t) (hs : P (iterateUpTo stop next fuel s)) (ht : Q (iterateUpTo stop' next' fuel t)) :
    Option.Rel R (iterate stop next fuel s) (iterate stop' next' fuel t) := by
  induction fuel generalizing s t with
  | zero =>
    simp only [iterate, ← hstop s t h]
    split
    · exact .some h
    · exact .none
  | succ n ih =>
    simp only [iterate, iterateUpTo, ← hstop s t h] at hs ht ⊢
    split
    · exact .some h
    · rename_i hgo
      simp only [hgo, Bool.false_eq_true, if_false] at hs ht
      exact ih (hstep s t h (iterateUpTo_since since hs) (iterateUpTo_since since' ht)) hs ht

/-- Ends that belong together are seen alike where belonging together means so. -/
theorem map_eq_of_rel {T A : Type} {R : S → T → Prop} {f : S → A} {g : T → A}
    (h : ∀ s t, R s t → f s = g t) {a : Option S} {b : Option T} (hab : Option.Rel R a b) :
    a.map f = b.map g := by
  cases hab with
  | none => rfl
  | some hst => exact congrArg some (h _ _ hst)

/-! ## Steps of several -/

/-- What one of several gets closer to with each of its own steps, and no step of another puts off,
is reached once it has stepped often enough, whatever the others do in between. -/
theorem foldl_reaches {A : Type} (step : S → A → S) (own : A → Bool) (inv goal : S → Prop)
    (rank : S → Nat) (hkeeps : ∀ s a, inv s → inv (step s a))
    (hstays : ∀ s a, goal s → goal (step s a))
    (hcloser : ∀ s a, own a = true → inv s → goal (step s a) ∨ rank (step s a) < rank s)
    (hothers : ∀ s a, own a = false → rank (step s a) = rank s) {s : S} (h : inv s)
    (acts : List A) (henough : rank s < acts.countP own) : goal (acts.foldl step s) := by
  induction acts generalizing s with
  | nil => exact absurd henough (Nat.not_lt_zero _)
  | cons a rest ih =>
    cases hown : own a with
    | true =>
      rw [List.countP_cons_of_pos hown] at henough
      rcases hcloser s a hown h with hgoal | hless
      · exact List.foldlRecOn (motive := goal) rest step hgoal fun s hs a _ => hstays s a hs
      · exact ih (hkeeps s a h) (by omega)
    | false =>
      rw [List.countP_cons_of_neg (by simp [hown])] at henough
      exact ih (hkeeps s a h) (by rwa [hothers s a hown])

end LatencyGauge
