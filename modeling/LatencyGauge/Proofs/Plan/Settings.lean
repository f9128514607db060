/-
Settings and the check of a plan. A setting is refused by looking at its value alone, a plan by
looking at all its fields; on a plan that breaks no rule the two agree, whatever the value. So
settings in a row stop at the first one whose value would spoil a valid plan, with the rule it would
break, and otherwise make a valid plan in which every field has what it was given last.
-/
import LatencyGauge.Plan.Loop

namespace LatencyGauge

variable {α : Type} {p q : LoopPlan} {settings : List LoopSetting}

/-! ## Fields -/

/-- The fields of a loop plan, with the types of their values. -/
inductive LoopField : Type → Type where
  | samples : LoopField UInt64
  | maxAttempts : LoopField (Option UInt64)
  | warmup : LoopField UInt64
  | baseline : LoopField Cycles
  | ceiling : LoopField Cycles
  | quiescence : LoopField Cycles
  | settle : LoopField Cycles
  | onFailure : LoopField FailurePolicy
  | tolerance : LoopField Float

/-- What a plan has in a field. -/
def LoopField.of (p : LoopPlan) : LoopField α → α
  | .samples => p.samples
  | .maxAttempts => p.maxAttempts
  | .warmup => p.warmup
  | .baseline => p.baseline
  | .ceiling => p.ceiling
  | .quiescence => p.quiescence
  | .settle => p.settle
  | .onFailure => p.onFailure
  | .tolerance => p.tolerance

/-- What a setting gives to a field, if it is a setting of that field. -/
def LoopField.given? : LoopField α → LoopSetting → Option α
  | .samples, .samples n => some n
  | .maxAttempts, .maxAttempts n => some (some n)
  | .warmup, .warmup n => some n
  | .baseline, .baseline c => some c
  | .ceiling, .ceiling c => some c
  | .quiescence, .quiescence c => some c
  | .settle, .settle c => some c
  | .onFailure, .onFailure policy => some policy
  | .tolerance, .tolerance t => some t
  | _, _ => none

/-- What settings in a row give to a field last; without any it keeps a value. -/
def LoopField.last (f : LoopField α) (settings : List LoopSetting) (kept : α) : α :=
  (settings.filterMap f.given?).getLast?.getD kept

/-- A setting changes its own field and no other. -/
theorem LoopField.of_store (f : LoopField α) (p : LoopPlan) (s : LoopSetting) :
    f.of (p.store s) = (f.given? s).getD (f.of p) := by
  cases f <;> cases s <;> rfl

theorem LoopField.of_storeAll (f : LoopField α) (p : LoopPlan) (settings : List LoopSetting) :
    f.of (settings.foldl LoopPlan.store p) = f.last settings (f.of p) := by
  unfold LoopField.last
  induction settings generalizing p with
  | nil => rfl
  | cons s rest ih =>
    rw [List.foldl_cons, ih, f.of_store]
    cases hgiven : f.given? s with
    | none => rw [List.filterMap_cons_none hgiven, Option.getD_none]
    | some a =>
      rw [List.filterMap_cons_some hgiven, List.getLast?_cons, Option.getD_some, Option.getD_some]

/-! ## One setting -/

theorem LoopPreset.plan_valid (preset : LoopPreset) : preset.plan.Valid := by
  cases preset <;> decide +kernel

theorem LoopPlan.standard_valid : LoopPlan.standard.Valid := LoopPreset.plan_valid .standard

/-- A setting whose value may be in a valid plan. -/
def LoopSetting.Suits (s : LoopSetting) : Prop := ∀ q : LoopPlan, q.Valid → (q.store s).Valid

/-- A setting whose value breaks a rule where it is put into a valid plan. -/
def LoopSetting.Spoils (s : LoopSetting) (v : Violation) : Prop :=
  ∀ q : LoopPlan, q.Valid → (q.store s).check = .error v

theorem word_bne_zero (n : UInt64) : (n != 0) = decide (0 < n) := by
  rw [Bool.eq_iff_iff, bne_iff_ne, decide_eq_true_iff, UInt64.lt_iff_toNat_lt, ne_eq,
    ← UInt64.toNat_inj, UInt64.toNat_zero, Nat.pos_iff_ne_zero]

theorem Violation.ok_bind (rest : Unit → Except Violation Unit) :
    ((.ok () : Except Violation Unit) >>= rest) = rest () := rfl

theorem Violation.bind_ok (check : Except Violation Unit) :
    (check >>= fun _ => .ok ()) = check := by
  cases check <;> rfl

/-- In a valid plan, the check of the whole plan comes to the check of the one value put into it. -/
theorem LoopPlan.Valid.check_store (h : q.Valid) (s : LoopSetting) :
    (q.store s).check = s.check := by
  obtain ⟨hsamples, hattempts, hceiling, htolerance⟩ := (LoopPlan.valid_iff q).1 h
  replace hsamples : Violation.unless (q.samples != 0) .noSamples = .ok () := by
    simpa using hsamples
  replace hattempts : Violation.unless (q.maxAttempts != some 0) .noAttempts = .ok () := by
    simpa using hattempts
  replace hceiling : Violation.unless (q.ceiling != 0) .noCeiling = .ok () := by
    simpa using hceiling
  replace htolerance : Violation.unless (toleranceOk q.tolerance) .badTolerance = .ok () := by
    simpa using htolerance
  rw [word_bne_zero] at hsamples hceiling
  unfold LoopPlan.check LoopPlan.store LoopSetting.check
  cases s with
  | samples n =>
    simp only [hattempts, hceiling, htolerance, Violation.bind_ok, word_bne_zero]
  | maxAttempts n =>
    have hsome : (some n != some 0) = (n != 0) := rfl
    simp only [hsamples, hceiling, htolerance, Violation.ok_bind, Violation.bind_ok, hsome,
      word_bne_zero]
  | ceiling c =>
    simp only [hsamples, hattempts, htolerance, Violation.ok_bind, Violation.bind_ok, word_bne_zero]
  | tolerance t => simp only [hsamples, hattempts, hceiling, Violation.ok_bind, word_bne_zero]
  | _ => exact h

/-- A setting is refused exactly if its value would break a rule in a valid plan, and with the rule
that it would break. -/
theorem LoopSetting.check_eq_ok_iff {s : LoopSetting} : s.check = .ok () ↔ s.Suits := by
  constructor
  · intro hcheck q hq
    unfold LoopPlan.Valid
    rw [hq.check_store, hcheck]
  · intro hsuits
    rw [← LoopPlan.standard_valid.check_store s]
    exact hsuits _ LoopPlan.standard_valid

theorem LoopSetting.check_eq_error_iff {s : LoopSetting} {v : Violation} :
    s.check = .error v ↔ s.Spoils v := by
  constructor
  · intro hcheck q hq
    rw [hq.check_store, hcheck]
  · intro hspoils
    rw [← LoopPlan.standard_valid.check_store s]
    exact hspoils _ LoopPlan.standard_valid

/-! ## Settings in a row -/

theorem LoopPlan.setAll_cons_ok {s : LoopSetting} (hs : s.check = .ok ()) :
    p.setAll (s :: settings) = (p.store s).setAll settings := by
  rw [LoopPlan.setAll, List.foldlM_cons, LoopPlan.set, hs]
  rfl

theorem LoopPlan.setAll_cons_error {s : LoopSetting} {v : Violation} (hs : s.check = .error v) :
    p.setAll (s :: settings) = .error v := by
  rw [LoopPlan.setAll, List.foldlM_cons, LoopPlan.set, hs]
  rfl

/-- Settings with values in range are all put into the plan. -/
theorem LoopPlan.setAll_eq_ok (h : ∀ s ∈ settings, s.check = .ok ()) :
    p.setAll settings = .ok (settings.foldl LoopPlan.store p) := by
  induction settings generalizing p with
  | nil => rfl
  | cons s rest ih =>
    rw [LoopPlan.setAll_cons_ok (h s List.mem_cons_self),
      ih fun t ht => h t (List.mem_cons_of_mem s ht)]
    rfl

/-- Settings stop at the first one out of range, and nothing after it matters. -/
theorem LoopPlan.setAll_eq_error {before after : List LoopSetting} {s : LoopSetting} {v : Violation}
    (hbefore : ∀ t ∈ before, t.check = .ok ()) (hs : s.check = .error v) :
    p.setAll (before ++ s :: after) = .error v := by
  induction before generalizing p with
  | nil => exact LoopPlan.setAll_cons_error hs
  | cons t rest ih =>
    rw [List.cons_append, LoopPlan.setAll_cons_ok (hbefore t List.mem_cons_self)]
    exact ih fun u hu => hbefore u (List.mem_cons_of_mem t hu)

/-- Either all values are in range, or there is a first one that is not. -/
theorem LoopSetting.all_or_first (settings : List LoopSetting) :
    (∀ s ∈ settings, s.check = .ok ()) ∨
      ∃ before s after v, settings = before ++ s :: after ∧ (∀ t ∈ before, t.check = .ok ()) ∧
        s.check = .error v := by
  induction settings with
  | nil => exact .inl (List.forall_mem_nil _)
  | cons s rest ih =>
    cases hs : s.check with
    | error v => exact .inr ⟨[], s, rest, v, rfl, List.forall_mem_nil _, hs⟩
    | ok _ =>
      rcases ih with hall | ⟨before, t, after, v, rfl, hbefore, ht⟩
      · exact .inl (List.forall_mem_cons.2 ⟨hs, hall⟩)
      · exact .inr ⟨s :: before, t, after, v, rfl, List.forall_mem_cons.2 ⟨hs, hbefore⟩, ht⟩

/-- What is put into a valid plan leaves it valid. -/
theorem LoopPlan.Valid.storeAll (h : q.Valid) (hsuits : ∀ s ∈ settings, s.Suits) :
    (settings.foldl LoopPlan.store q).Valid := by
  induction settings generalizing q with
  | nil => exact h
  | cons s rest ih =>
    exact ih (hsuits s List.mem_cons_self q h) fun t ht => hsuits t (List.mem_cons_of_mem s ht)

/-- Settings in a row, on any preset. Either each of them has a value that may be in a valid plan,
and they make a valid plan in which every field has what it was given last, or the value of the
preset; or there is a first one whose value would break a rule where it is put into a valid plan,
the settings before it are taken, and it is refused with that rule, whatever comes after it. -/
theorem LoopPreset.setAll_agrees (preset : LoopPreset) (settings : List LoopSetting) :
    ((∀ s ∈ settings, s.Suits) ∧ ∃ p, preset.plan.setAll settings = .ok p ∧ p.Valid ∧
      ∀ (α : Type) (f : LoopField α), f.of p = f.last settings (f.of preset.plan)) ∨
    ∃ before s after v, settings = before ++ s :: after ∧ (∀ t ∈ before, t.Suits) ∧ s.Spoils v ∧
      preset.plan.setAll settings = .error v ∧
      ∃ p, preset.plan.setAll before = .ok p ∧ p.Valid ∧ p.set s = .error v := by
  have hvalid := preset.plan_valid
  rcases LoopSetting.all_or_first settings with hall | ⟨before, s, after, v, rfl, hbefore, hs⟩
  · have hsuits : ∀ s ∈ settings, s.Suits := fun s hs => LoopSetting.check_eq_ok_iff.1 (hall s hs)
    exact .inl ⟨hsuits, _, LoopPlan.setAll_eq_ok hall, hvalid.storeAll hsuits,
      fun α f => f.of_storeAll preset.plan settings⟩
  · have hsuits : ∀ t ∈ before, t.Suits := fun t ht => LoopSetting.check_eq_ok_iff.1 (hbefore t ht)
    refine .inr ⟨before, s, after, v, rfl, hsuits, LoopSetting.check_eq_error_iff.1 hs,
      LoopPlan.setAll_eq_error hbefore hs, _, LoopPlan.setAll_eq_ok hbefore,
      hvalid.storeAll hsuits, ?_⟩
    rw [LoopPlan.set, hs]
    rfl

/-- A negative zero is a tolerance; what is not a number is none, and neither is an infinity. -/
example : toleranceOk (-0.0) = true ∧ toleranceOk (0.0 / 0.0) = false ∧
    toleranceOk (1.0 / 0.0) = false := by
  decide +kernel

end LatencyGauge
