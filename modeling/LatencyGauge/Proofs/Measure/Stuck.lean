/-
Loops over a pair whose reverse half may refuse. If failures are retried, a reverse call that is
refused is retried like any other sample, by another forward call, and nothing takes the state back
in between. So a forward call after the warm-up finds the state on exactly if the warm-up left it on
or a reverse call of an earlier turn was refused; from then on every forward call fails and no
reverse half is called, and without a bound on the attempts the loop has no end.
-/
import LatencyGauge.Proofs.Measure.Restore

namespace LatencyGauge

variable {W : Type}

/-! ## Halves that may refuse -/

/-- A pair whose halves switch a state, forward from off to on and reverse from on to off. A half
returns zero exactly if it switched the state, and leaves the state as it was if it refuses. -/
structure Pair.Toggles (op : Pair W) (on : W → Bool) : Prop where
  forward : ∀ w, (op.forward w).1 = 0 ↔ on w = false ∧ on (op.forward w).2 = true
  reverse : ∀ w, (op.reverse w).1 = 0 ↔ on w = true ∧ on (op.reverse w).2 = false
  declined : ∀ w, (op.forward w).1 ≠ 0 → on (op.forward w).2 = on w
  refused : ∀ w, (op.reverse w).1 ≠ 0 → on (op.reverse w).2 = on w

theorem Pair.Toggles.forward_on_iff {op : Pair W} {on : W → Bool} (ho : op.Toggles on) (w : W) :
    on (op.forward w).2 = true ↔ on w = true ∨ (op.forward w).1 = 0 := by
  by_cases hcode : (op.forward w).1 = 0
  · simp [hcode, ((ho.forward w).1 hcode).2]
  · simp [hcode, ho.declined w hcode]

theorem Pair.Toggles.reverse_on_iff {op : Pair W} {on : W → Bool} (ho : op.Toggles on) (w : W) :
    on (op.reverse w).2 = true ↔ on w = true ∧ (op.reverse w).1 ≠ 0 := by
  by_cases hcode : (op.reverse w).1 = 0
  · simp [hcode, ((ho.reverse w).1 hcode).2]
  · simp [hcode, ho.refused w hcode]

/-- A turn whose reverse call, measured or not, was refused. -/
def Turn.Refused (x : Turn W) : Prop := ∃ c, x.back? = some c ∧ c.code ≠ 0

theorem Turn.refused_undone_iff (f : Attempt W) (v : Call W) :
    (Turn.undone f v).Refused ↔ v.code ≠ 0 := by
  simp [Turn.Refused, Turn.back?]

theorem Turn.refused_followed_iff (f g : Attempt W) :
    (Turn.followed f g).Refused ↔ g.call.code ≠ 0 := by
  simp [Turn.Refused, Turn.back?]

theorem Turn.not_refused_left (f : Attempt W) : ¬ (Turn.left f).Refused := by
  rintro ⟨c, ⟨⟩, -⟩

/-! ## Turns -/

section Turns

variable {r : Rig W} {plan : LoopPlan} {op : Pair W} {on : W → Bool} (hr : r.Leaves on)
  (ho : op.Toggles on)

include hr ho

/-- A forward attempt fails on a state that is on, and leaves it on if it was or if it succeeded. -/
theorem Rig.Leaves.tried_forward {w v : W} {f : Attempt W}
    (h : r.tried plan op.forward w = (f, v)) :
    (on w = true → f.call.code ≠ 0) ∧ (on v = true ↔ on w = true ∨ f.call.code = 0) := by
  obtain ⟨hworld, hcode, hafter⟩ := hr.tried h
  rw [hafter, ← hworld, hcode]
  refine ⟨fun hon hzero => ?_, ho.forward_on_iff _⟩
  have hoff := ((ho.forward _).1 hzero).1
  rw [hon] at hoff
  cases hoff

theorem Rig.Leaves.tried_reverse {w v : W} {g : Attempt W}
    (h : r.tried plan op.reverse w = (g, v)) :
    on v = true ↔ on w = true ∧ g.call.code ≠ 0 := by
  obtain ⟨hworld, hcode, hafter⟩ := hr.tried h
  rw [hafter, ← hworld, hcode]
  exact ho.reverse_on_iff _

/-- If failures are retried, a turn finds the state as the last one left it. On a state that is on
its forward call fails and nothing follows it; and the state is on after the turn if it was on
before, or if the reverse call of the turn was refused. -/
theorem Rig.Takes.toggled (hp : plan.onFailure = .retry) {w w' : W} {x : Turn W}
    (h : r.Takes plan op w x w') :
    on x.forward.call.world = on w ∧
      (on w = true → x.forward.call.code ≠ 0 ∧ x.back? = none) ∧
      (on w' = true ↔ on w = true ∨ x.Refused) := by
  cases h with
  | @left f v tried failed _ =>
    obtain ⟨-, hstate⟩ := hr.tried_forward ho tried
    refine ⟨(hr.tried tried).1, fun _ => ⟨failed, rfl⟩, ?_⟩
    rw [hr.recover, hstate]
    simp [failed, Turn.not_refused_left]
  | @undone f v tried done _ =>
    obtain ⟨hfails, hstate⟩ := hr.tried_forward ho tried
    have hoff : ¬ on w = true := fun hon => hfails hon done
    refine ⟨(hr.tried tried).1, fun hon => absurd hon hoff, ?_⟩
    rw [hr.recover, ho.reverse_on_iff, Turn.refused_undone_iff]
    simp [hstate, done, hoff]
  | @followed f g v u tried fit back =>
    obtain ⟨hfails, hstate⟩ := hr.tried_forward ho tried
    have done : f.call.code = 0 := by
      rcases fit.2.1 with hcode | hignore
      · exact hcode
      · rw [hp] at hignore; cases hignore
    have hoff : ¬ on w = true := fun hon => hfails hon done
    refine ⟨(hr.tried tried).1, fun hon => absurd hon hoff, ?_⟩
    rw [hr.recover, hr.tried_reverse ho back, Turn.refused_followed_iff]
    simp [hstate, done, hoff]

/-- A turn that completes an iteration has switched the state off. -/
theorem Rig.Takes.off_of_completes (hp : plan.onFailure = .retry) {w w' : W} {x : Turn W}
    (h : r.Takes plan op w x w') (hdone : x.completes plan = true) : on w' = false := by
  have huncounted : ∀ s : Sample, ¬ s.CountedFailure plan := by
    rintro s ⟨-, -, hpolicy⟩
    rw [hp] at hpolicy; cases hpolicy
  rw [Turn.completes, Verdict.completes_iff] at hdone
  have hfit : x.last.sample.Accepted plan := hdone.resolve_right (huncounted _)
  cases h with
  | left _ _ unfit => exact absurd hfit unfit
  | undone _ _ unfit => exact absurd hfit unfit
  | @followed f g v u _ _ back =>
    have hcode : g.call.code = 0 := by
      rcases hfit.2.1 with hcode | hignore
      · exact hcode
      · rw [hp] at hignore; cases hignore
    rw [hr.recover, Bool.eq_false_iff, Ne, hr.tried_reverse ho back]
    rintro ⟨-, hrefused⟩
    exact hrefused hcode

/-- A step that leaves the state on has not completed the last of the iterations. -/
theorem Rig.pairStep_unfinished (hp : plan.onFailure = .retry)
    {s : PairTally × (W × List (Note W))} (hgo : s.1.goesOn plan = true)
    (hon : on (r.recorded.pairStep plan op.recorded s).2.1 = true) :
    (r.recorded.pairStep plan op.recorded s).1.iterations < plan.samples.toNat := by
  obtain ⟨t, v, record⟩ := s
  obtain ⟨x, u, htakes, hstep⟩ := r.pairStep_recorded plan op t v record
  rw [hstep] at hon ⊢
  have hwanted : t.iterations < plan.samples.toNat := by
    simp only [PairTally.goesOn, Bool.and_eq_true, decide_eq_true_eq] at hgo
    exact hgo.1
  cases hdone : x.completes plan with
  | false => simpa [PairTally.take, hdone] using hwanted
  | true =>
    have hoff : on u = false := htakes.off_of_completes hr ho hp hdone
    exact absurd hon (by simp [hoff])

/-- Turns in a row leave the state on if it was on before them or a reverse call was refused. -/
theorem Rig.TakesAll.on_iff (hp : plan.onFailure = .retry) {w w' : W} {turns : List (Turn W)}
    (h : r.TakesAll plan op w turns w') :
    on w' = true ↔ on w = true ∨ ∃ y ∈ turns, y.Refused := by
  induction h with
  | nil => simp
  | snoc _ last ih =>
    obtain ⟨-, -, hstate⟩ := last.toggled hr ho hp
    rw [hstate, ih]
    simp only [List.mem_append, List.mem_singleton, or_assoc, or_and_right, exists_or,
      exists_eq_left]

end Turns

/-- A turn among others was taken in the world that those before it led to. -/
theorem Rig.TakesAll.split {r : Rig W} {plan : LoopPlan} {op : Pair W} {w w' : W}
    {turns : List (Turn W)} (h : r.TakesAll plan op w turns w') {before after : List (Turn W)}
    {x : Turn W} (heq : turns = before ++ x :: after) :
    ∃ v u, r.TakesAll plan op w before v ∧ r.Takes plan op v x u := by
  induction h generalizing after with
  | nil => simp at heq
  | @snoc l y v u hbefore last ih =>
    -- the turn looked for is the last one, or it is among those before the last
    rcases List.eq_nil_or_concat after with rfl | ⟨after, z, rfl⟩
    · obtain ⟨rfl, hy⟩ := List.append_inj' heq rfl
      cases hy
      exact ⟨v, u, hbefore, last⟩
    · have heq' : l ++ [y] = (before ++ x :: after) ++ [z] := by simpa using heq
      exact ih (List.append_inj' heq' rfl).1

/-! ## Runs -/

/-- Without a bound on the attempts, a run that has an end leaves the state off. -/
theorem Rig.runPair_off_of_unbounded {r : Rig W} {plan : LoopPlan} {name : String}
    {reverseBaseline : Cycles} {op : Pair W} {fuel : Nat} {w w' : W} {report : PairReport}
    {on : W → Bool} (hr : r.Leaves on) (ho : op.Toggles on) (hp : plan.onFailure = .retry)
    (hsamples : plan.samples ≠ 0) (hmost : plan.maxAttempts = none)
    (h : r.runPair plan name reverseBaseline op fuel w = some (report, w')) : on w' = false := by
  obtain ⟨record, hrun⟩ := Rig.exists_record_of_runPair h
  simp only [Rig.runPair, Option.map_eq_some_iff] at hrun
  obtain ⟨⟨t, v, record'⟩, hloop, heq⟩ := hrun
  obtain ⟨rfl, rfl⟩ : v = w' ∧ record' = record := by simpa using (congrArg Prod.snd heq)
  -- as long as the state is on, iterations are missing
  have hmissing : on v = true → t.iterations < plan.samples.toNat :=
    iterate_invariant (P := fun s => on s.2.1 = true → s.1.iterations < plan.samples.toNat)
      (fun s hgo _ => Rig.pairStep_unfinished hr ho hp (by simpa using hgo))
      (fun _ => UInt64.pos_iff_ne_zero.2 hsamples) hloop
  have hstop : t.goesOn plan = false := by simpa using stop_of_iterate hloop
  have hfull : ¬ t.iterations < plan.samples.toNat := by
    simpa [PairTally.goesOn, LoopPlan.allows, hmost] using hstop
  exact Bool.eq_false_iff.2 fun hon => hfull (hmissing hon)

/-- If failures are retried, a forward call after the warm-up finds the state on exactly if the
warm-up left it on or a reverse call of an earlier turn was refused; then it fails, and no reverse
call follows it. This holds as far as the run has come; a plan without a bound on the attempts does
not come to its end once that has happened. -/
theorem Rig.runPair_finds_on_iff {plan : LoopPlan} (hp : plan.onFailure = .retry) (r : Rig W)
    (reverseBaseline : Cycles) (op : Pair W) (fuel : Nat) (w : W) :
    ∃ (rounds : List (Rehearsal W)) (turns : List (Turn W)),
      r.pairNotes plan reverseBaseline op fuel w =
        rounds.flatMap Rehearsal.notes ++ turns.flatMap (Turn.notes plan) ∧
      r.pairCallsMade plan reverseBaseline op fuel w =
        rounds.flatMap Rehearsal.calls ++ turns.flatMap Turn.calls ∧
      rounds.length = plan.warmup.toNat ∧
      (∀ on : W → Bool, r.Leaves on → op.Toggles on →
        ∀ before x after, turns = before ++ x :: after →
          (on x.forward.call.world = true ↔
            on (op.warmUp plan.warmup.toNat w) = true ∨ ∃ y ∈ before, y.Refused) ∧
          (on x.forward.call.world = true → x.forward.call.code ≠ 0 ∧ x.back? = none)) ∧
      ∀ name report w', r.runPair plan name reverseBaseline op fuel w = some (report, w') →
        r.recorded.runPair plan name reverseBaseline op.recorded fuel (w, []) =
          some (report, (w', r.pairNotes plan reverseBaseline op fuel w)) ∧
        ∀ on : W → Bool, r.Leaves on → op.Toggles on → plan.Valid → plan.maxAttempts = none →
          ∀ x ∈ turns, on x.forward.call.world = false ∧ ¬ x.Refused := by
  obtain ⟨rounds, turns, hlength, -, hturned⟩ := r.pairSoFar_turned plan reverseBaseline op fuel w
  have hfinds : ∀ on : W → Bool, r.Leaves on → op.Toggles on →
      ∀ before x after, turns = before ++ x :: after →
        (on x.forward.call.world = true ↔
          on (op.warmUp plan.warmup.toNat w) = true ∨ ∃ y ∈ before, y.Refused) ∧
        (on x.forward.call.world = true → x.forward.call.code ≠ 0 ∧ x.back? = none) := by
    intro on hr ho before x after heq
    obtain ⟨v, u, hbefore, hx⟩ := hturned.taken.split heq
    obtain ⟨hworld, hfails, -⟩ := hx.toggled hr ho hp
    rw [hworld]
    exact ⟨hbefore.on_iff hr ho hp, hfails⟩
  refine ⟨rounds, turns, hturned.record, Rig.pairCallsMade_of_turned hturned, hlength, hfinds, ?_⟩
  intro name report w' h
  obtain ⟨hrun, hworld⟩ := Rig.runPair_soFar h
  refine ⟨hrun, fun on hr ho hvalid hmost x hx => ?_⟩
  have hoff := Rig.runPair_off_of_unbounded hr ho hp (plan.valid_iff.1 hvalid).1 hmost h
  rw [← hworld, Bool.eq_false_iff, Ne, hturned.taken.on_iff hr ho hp, not_or] at hoff
  obtain ⟨hstart, hnone⟩ := hoff
  refine ⟨?_, fun hrefused => hnone ⟨x, hx, hrefused⟩⟩
  obtain ⟨before, after, heq⟩ := List.append_of_mem hx
  rw [Bool.eq_false_iff, Ne, (hfinds on hr ho before x after heq).1, not_or]
  refine ⟨hstart, ?_⟩
  rintro ⟨y, hy, hrefused⟩
  exact hnone ⟨y, by rw [heq]; exact List.mem_append_left _ hy, hrefused⟩

/-! ## A reverse call that is refused -/

/-- An operation that switches a state to `target` if it succeeds, and refuses on a state that is
there already. -/
def Operation.switching (op : Operation W) (target : Bool) : Operation (W × Bool) := fun s =>
  let (code, w) := op s.1
  if s.2 = target then (if code = 0 then -1 else code, (w, s.2))
  else (code, (w, if code = 0 then target else s.2))

/-- A pair that switches a state on and off whenever it succeeds. -/
def Pair.switching (op : Pair W) : Pair (W × Bool) where
  forward := Operation.switching op.forward true
  reverse := Operation.switching op.reverse false

theorem Operation.switching_code (op : Operation W) (target : Bool) (s : W × Bool) :
    (Operation.switching op target s).1 = 0 ↔
      s.2 = !target ∧ (Operation.switching op target s).2.2 = target := by
  obtain ⟨w, on⟩ := s
  unfold Operation.switching
  by_cases hcode : (op w).1 = 0 <;> cases on <;> cases target <;> simp [hcode]

theorem Operation.switching_refused (op : Operation W) (target : Bool) (s : W × Bool)
    (h : (Operation.switching op target s).1 ≠ 0) :
    (Operation.switching op target s).2.2 = s.2 := by
  obtain ⟨w, on⟩ := s
  unfold Operation.switching at h ⊢
  by_cases hcode : (op w).1 = 0 <;> cases on <;> cases target <;> simp_all

theorem Pair.switching_toggles (op : Pair W) : op.switching.Toggles Prod.snd where
  forward := Operation.switching_code op.forward true
  reverse := Operation.switching_code op.reverse false
  declined := Operation.switching_refused op.forward true
  refused := Operation.switching_refused op.reverse false

/-- One sample and two attempts, with failures retried. -/
def stubbornPlan : LoopPlan :=
  { LoopPlan.standard with
    samples := 1, maxAttempts := some 2, ceiling := 1000, onFailure := .retry }

/-- A reverse call is refused, and the forward call that retries it finds the state on. -/
theorem Rig.runPair_finds_on_refused :
    let r : Rig (Stage × Bool) := (Stage.rig (Stage.observe (.counter 0))).beside
    let op := (Script.pair [⟨none, 10, 0, 0⟩, ⟨none, 10, 0, -1⟩]
      [⟨none, 5, 0, -1⟩, ⟨none, 5, 0, 0⟩]).switching
    let calls := r.pairCallsMade stubbornPlan 5 op 2 (.at 100, false)
    (r.runPair stubbornPlan "stubborn" 5 op 2 (.at 100, false)).isSome ∧
    calls.map Prod.fst = [.forward, .reverse, .forward] ∧
    ∃ turns : List (Turn (Stage × Bool)), calls = turns.flatMap Turn.calls ∧
      ∃ before x after, turns = before ++ x :: after ∧ x.forward.call.world.2 = true ∧
        x.forward.call.code ≠ 0 ∧ x.back? = none ∧ ∃ y ∈ before, y.Refused := by
  intro r op calls
  have hends : (r.runPair stubbornPlan "stubborn" 5 op 2 (.at 100, false)).isSome := by
    decide +kernel
  have hcalled : calls.map (fun c => (c.1, c.2.world.2)) =
      [(.forward, false), (.reverse, true), (.forward, true)] := by decide +kernel
  have hp : stubbornPlan.onFailure = .retry := rfl
  obtain ⟨rounds, turns, -, hcalls, hlength, hfinds, -⟩ :=
    Rig.runPair_finds_on_iff hp r 5 op 2 (.at 100, false)
  have hhalves : calls.map Prod.fst = [.forward, .reverse, .forward] := by
    have h := congrArg (List.map Prod.fst) hcalled
    rwa [List.map_map] at h
  -- no round was rehearsed, so a turn made the call that found the state on
  have hnone : rounds = [] := List.length_eq_zero_iff.1 hlength
  rw [hnone, List.flatMap_nil, List.nil_append] at hcalls
  change calls = turns.flatMap Turn.calls at hcalls
  have hmem : (Half.forward, true) ∈ calls.map fun c => (c.1, c.2.world.2) := by
    rw [hcalled]; decide
  obtain ⟨⟨half, c⟩, hc, hon⟩ := List.mem_map.1 hmem
  obtain ⟨rfl, hworld⟩ := Prod.mk.inj hon
  rw [hcalls] at hc
  obtain ⟨x, hx, hcall⟩ := List.mem_flatMap.1 hc
  have hforward : c = x.forward.call := by simpa [Turn.calls] using hcall
  have hfound : x.forward.call.world.2 = true := by rw [← hforward]; exact hworld
  obtain ⟨before, after, heq⟩ := List.append_of_mem hx
  obtain ⟨hiff, hfails⟩ := hfinds Prod.snd (Stage.rig (Stage.observe (.counter 0))).beside_leaves
    (Script.pair _ _).switching_toggles before x after heq
  obtain ⟨hcode, hback⟩ := hfails hfound
  have hoff : (op.warmUp stubbornPlan.warmup.toNat (Stage.at 100, false)).2 = false := rfl
  have hrefused := (hiff.1 hfound).resolve_left (by simp [hoff])
  exact ⟨hends, hhalves, turns, hcalls, before, x, after, heq, hfound, hcode, hback, hrefused⟩

end LatencyGauge
