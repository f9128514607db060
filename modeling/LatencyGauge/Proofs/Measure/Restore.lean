/-
What a loop over a pair leaves behind. Unless codes are ignored, a turn takes its forward call back
exactly if the call succeeded. So a state that the pair switches on and off is off before every
forward call, on before every reverse call of a turn, and off at the end. If codes are ignored, a
forward call that failed is taken back if its sample is accepted and left behind if not.
-/
import LatencyGauge.Host.Primary
import LatencyGauge.Measure.Logged
import LatencyGauge.Proofs.Measure.Ledger
import LatencyGauge.Proofs.Measure.Underway

namespace LatencyGauge

variable {W : Type}

/-! ## What a turn takes back -/

/-- A turn takes back its forward call exactly if that succeeded, and it measures this exactly if
the forward sample was accepted. -/
def Turn.Restores (plan : LoopPlan) : Turn W → Prop
  | .left f => f.call.code ≠ 0
  | .undone f _ => f.call.code = 0 ∧ ¬ f.sample.Accepted plan
  | .followed f _ => f.call.code = 0 ∧ f.sample.Accepted plan

/-- What every turn has that a loop can take, all turns of a loop have. -/
theorem Rig.TakesAll.forall_mem {r : Rig W} {plan : LoopPlan} {op : Pair W} {w v : W}
    {turns : List (Turn W)} {P : Turn W → Prop} (h : r.TakesAll plan op w turns v)
    (each : ∀ x u u', r.Takes plan op u x u' → P x) : ∀ x ∈ turns, P x := by
  induction h with
  | nil => intro x hx; cases hx
  | snoc _ last ih =>
    intro x hx
    rcases List.mem_append.1 hx with hx | hx
    · exact ih x hx
    · rw [List.mem_singleton.1 hx]
      exact each _ _ _ last

theorem Rig.Takes.restores {r : Rig W} {plan : LoopPlan} {op : Pair W} {w w' : W} {x : Turn W}
    (hp : plan.onFailure ≠ .ignore) (h : r.Takes plan op w x w') : x.Restores plan := by
  cases h with
  | left _ failed _ => exact failed
  | undone _ done unfit => exact ⟨done, unfit⟩
  | followed _ fit _ =>
    rcases fit.2.1 with hcode | hignore
    · exact ⟨hcode, fit⟩
    · exact absurd hignore hp

/-- A turn takes nothing back exactly if its forward call failed and was not accepted. -/
theorem Rig.Takes.back?_eq_none_iff {r : Rig W} {plan : LoopPlan} {op : Pair W} {w w' : W}
    {x : Turn W} (h : r.Takes plan op w x w') :
    x.back? = none ↔ x.forward.call.code ≠ 0 ∧ ¬ x.forward.sample.Accepted plan := by
  cases h with
  | left _ failed unfit => exact ⟨fun _ => ⟨failed, unfit⟩, fun _ => rfl⟩
  | undone _ done _ =>
    constructor
    · intro hback; cases hback
    · rintro ⟨failed, -⟩; exact absurd done failed
  | followed _ fit _ =>
    constructor
    · intro hback; cases hback
    · rintro ⟨-, unfit⟩; exact absurd fit unfit

/-! ## States that are switched on and off -/

/-- A rig that leaves a state alone. -/
structure Rig.Leaves (r : Rig W) (on : W → Bool) : Prop where
  now : ∀ w, on (r.now w).2 = on w
  wait : ∀ c w, on (r.wait c w) = on w
  observe : ∀ w, on (r.observe w).2 = on w

/-- A pair that switches a state: a forward call returns zero exactly if it turned the state on, and
may refuse to; a reverse call turns off a state that is on, returning zero, and leaves it off
otherwise. -/
structure Pair.Switches (op : Pair W) (on : W → Bool) : Prop where
  forward : ∀ w, (op.forward w).1 = 0 ↔ on w = false ∧ on (op.forward w).2 = true
  reverse : ∀ w, on w = true → (op.reverse w).1 = 0 ∧ on (op.reverse w).2 = false
  idle : ∀ w, on w = false → on (op.reverse w).2 = false

theorem pages_switches : pages.Switches id := by
  constructor
  · rintro (_ | _) <;> decide
  · rintro (_ | _) <;> decide
  · rintro (_ | _) <;> decide

/-- A pair that acts on a page switches it. -/
theorem Pair.Seen.switches {op : Pair W} {held : W → Bool} (h : op.Seen held pages) :
    op.Switches held := by
  constructor
  · intro w
    have hpages := pages_switches.forward (held w)
    rw [h.forward w] at hpages
    exact hpages
  · intro w hw
    have hpages := pages_switches.reverse (held w) hw
    rw [h.reverse w] at hpages
    exact hpages
  · intro w hw
    have hpages := pages_switches.idle (held w) hw
    rw [h.reverse w] at hpages
    exact hpages

theorem Pair.Switches.off {op : Pair W} {on : W → Bool} (h : op.Switches on) (w : W) :
    on (op.reverse w).2 = false := by
  cases hw : on w with
  | false => exact h.idle w hw
  | true => exact (h.reverse w hw).2

section Leaves

variable {r : Rig W} {on : W → Bool} (hr : r.Leaves on)

include hr

theorem Rig.Leaves.pause (c : Cycles) (w : W) : on (r.pause c w) = on w := by
  unfold Rig.pause
  split
  · rfl
  · exact hr.wait c w

theorem Rig.Leaves.recover (plan : LoopPlan) (v : Verdict) (w : W) :
    on (r.recover plan v w) = on w := by
  unfold Rig.recover
  split
  · exact hr.pause _ w
  · rfl

/-- An attempt calls its operation once, and nothing else in it touches the state. -/
theorem Rig.Leaves.tried {plan : LoopPlan} {op : Operation W} {w v : W} {a : Attempt W}
    (h : r.tried plan op w = (a, v)) :
    on a.call.world = on w ∧ a.call.code = (op a.call.world).1 ∧
      on v = on (op a.call.world).2 := by
  unfold Rig.tried at h
  cases h
  refine ⟨?_, rfl, ?_⟩
  · show on (r.now (r.observe w).2).2 = on w
    rw [hr.now, hr.observe]
  · rw [hr.observe, hr.pause, hr.now]

/-- A forward attempt that succeeded has turned the state on. -/
theorem Rig.Leaves.turned_on {plan : LoopPlan} {op : Pair W} {w v : W} {f : Attempt W}
    (ho : op.Switches on) (h : r.tried plan op.forward w = (f, v)) (done : f.call.code = 0) :
    on v = true := by
  obtain ⟨-, hcode, hafter⟩ := hr.tried h
  rw [hafter]
  exact ((ho.forward f.call.world).1 (hcode ▸ done)).2

/-- A forward attempt that failed on a state that was off has not turned it on. -/
theorem Rig.Leaves.stayed_off {plan : LoopPlan} {op : Pair W} {w v : W} {f : Attempt W}
    (ho : op.Switches on) (h : r.tried plan op.forward w = (f, v)) (failed : f.call.code ≠ 0)
    (hw : on w = false) : on v = false := by
  obtain ⟨hworld, hcode, hafter⟩ := hr.tried h
  rw [hafter]
  -- a state that had been turned on would have made the code zero
  cases hstate : on (op.forward f.call.world).2 with
  | false => rfl
  | true =>
    have hdone := (ho.forward f.call.world).2 ⟨hworld.trans hw, hstate⟩
    exact absurd (hcode.trans hdone) failed

/-- A turn that begins with the state off calls the forward half on it, takes back what succeeded
from a state that is on, and ends with the state off. -/
theorem Rig.Takes.switched {plan : LoopPlan} {op : Pair W} {w w' : W} {x : Turn W}
    (hp : plan.onFailure ≠ .ignore) (ho : op.Switches on) (h : r.Takes plan op w x w')
    (hw : on w = false) :
    on x.forward.call.world = false ∧ (∀ c, x.back? = some c → on c.world = true ∧ c.code = 0) ∧
      on w' = false := by
  have hrestores := h.restores hp
  cases h with
  | left tried failed _ =>
    refine ⟨(hr.tried tried).1.trans hw, ?_, ?_⟩
    · rintro c ⟨⟩
    · rw [hr.recover]
      exact hr.stayed_off ho tried failed hw
  | undone tried done _ =>
    have hstate := hr.turned_on ho tried done
    refine ⟨(hr.tried tried).1.trans hw, ?_, ?_⟩
    · rintro c ⟨⟩
      exact ⟨hstate, (ho.reverse _ hstate).1⟩
    · rw [hr.recover]
      exact ho.off _
  | followed tried _ back =>
    have hstate := hr.turned_on ho tried hrestores.1
    obtain ⟨hworld, hcode, hafter⟩ := hr.tried back
    refine ⟨(hr.tried tried).1.trans hw, ?_, ?_⟩
    · rintro c ⟨⟩
      exact ⟨hworld.trans hstate, hcode.trans (ho.reverse _ (hworld.trans hstate)).1⟩
    · rw [hr.recover, hafter]
      exact ho.off _

/-- Turns that begin with the state off switch it on and off, one after the other. -/
theorem Rig.TakesAll.switched {plan : LoopPlan} {op : Pair W} {w w' : W} {turns : List (Turn W)}
    (hp : plan.onFailure ≠ .ignore) (ho : op.Switches on) (h : r.TakesAll plan op w turns w')
    (hw : on w = false) :
    (∀ x ∈ turns, on x.forward.call.world = false ∧
      ∀ c, x.back? = some c → on c.world = true ∧ c.code = 0) ∧ on w' = false := by
  induction h with
  | nil => exact ⟨by rintro x ⟨⟩, hw⟩
  | snoc _ last ih =>
    obtain ⟨hbefore, hoff⟩ := ih
    obtain ⟨hforward, hback, hend⟩ := Rig.Takes.switched hr hp ho last hoff
    refine ⟨fun x hx => ?_, hend⟩
    rcases List.mem_append.1 hx with hx | hx
    · exact hbefore x hx
    · rw [List.mem_singleton.1 hx]
      exact ⟨hforward, hback⟩

end Leaves

/-- A warm-up that begins with the state off calls the forward half on nothing else. -/
theorem Pair.Rehearses.switched {op : Pair W} {on : W → Bool} (ho : op.Switches on) {w v : W}
    {rounds : List (Rehearsal W)} (h : op.Rehearses w rounds v) (hw : on w = false) :
    (∀ x ∈ rounds, on x.forward.world = false) ∧ on v = false := by
  induction h with
  | nil => exact ⟨by rintro x ⟨⟩, hw⟩
  | cons _ ih =>
    obtain ⟨hrest, hend⟩ := ih (ho.off _)
    refine ⟨fun x hx => ?_, hend⟩
    rcases List.mem_cons.1 hx with rfl | hx
    · exact hw
    · exact hrest x hx

/-! ## Pages -/

/-- Where no operation failed no failure is reported. -/
theorem Tally.report_spotless (plan : LoopPlan) (baseline : Cycles) (name : String)
    (iterations : Nat) {samples : List Sample} (codes : ∀ s ∈ samples, s.window.code = 0) :
    let report := (Tally.of baseline (samples.map (Sample.verdict · plan))).report name plan
      iterations
    report.failed = 0 ∧ report.rejected.failed = 0 := by
  have hfailed : (samples.map (Sample.verdict · plan)).count .failed = 0 := by
    rw [count_failed_verdict, List.countP_eq_zero]
    intro s hs hcounted
    exact Sample.not_countedFailure (.inl (codes s hs)) (of_decide_eq_true hcounted)
  have hretried : (samples.map (Sample.verdict · plan)).count (.reject .failed) = 0 := by
    rw [count_reject_verdict, List.countP_eq_zero]
    intro s hs hrejected
    obtain ⟨-, hfirst⟩ := of_decide_eq_true hrejected
    have hviolates : s.violates plan .failed = true := List.find?_some hfirst
    simp [Sample.violates, codes s hs] at hviolates
  simp only [Tally.report, Tally.rejected, Tally.of, hfailed, hretried]
  exact ⟨rfl, rfl⟩

theorem Rig.Takes.forward_code {r : Rig W} {plan : LoopPlan} {op : Pair W} {w w' : W} {x : Turn W}
    (h : r.Takes plan op w x w') :
    x.forward.call.code = (op.forward x.forward.call.world).1 := by
  cases h with
  | left tried _ _ => unfold Rig.tried at tried; cases tried; rfl
  | undone tried _ _ => unfold Rig.tried at tried; cases tried; rfl
  | followed tried _ _ => unfold Rig.tried at tried; cases tried; rfl

theorem Turn.back?_of_reverse? {x : Turn W} {g : Attempt W} (h : x.reverse? = some g) :
    x.back? = some g.call := by
  cases x with
  | left f => cases h
  | undone f v => cases h
  | followed f v => cases h; rfl

/-- Turns that begin with no page held call neither half in vain. -/
theorem Rig.TakesAll.pages_codes {r : Rig W} {plan : LoopPlan} {op : Pair W} {w w' : W}
    {turns : List (Turn W)} {held : W → Bool} (hr : r.Leaves held) (hp : plan.onFailure ≠ .ignore)
    (ho : op.Seen held pages) (h : r.TakesAll plan op w turns w') (hw : held w = false) :
    (∀ s ∈ forwardSamples turns, s.window.code = 0) ∧
      ∀ s ∈ reverseSamples turns, s.window.code = 0 := by
  obtain ⟨hswitched, -⟩ := Rig.TakesAll.switched hr hp ho.switches h hw
  constructor
  · intro s hs
    obtain ⟨x, hx, rfl⟩ := List.mem_map.1 hs
    have hfree : held x.forward.call.world = false := (hswitched x hx).1
    have hcode := h.forall_mem (fun y u u' hy => Rig.Takes.forward_code hy) x hx
    have hpages := ho.forward x.forward.call.world
    rw [hfree] at hpages
    show x.forward.call.code = 0
    rw [hcode, ← congrArg Prod.fst hpages]
    rfl
  · intro s hs
    obtain ⟨x, hx, hsome⟩ := List.mem_filterMap.1 hs
    obtain ⟨g, hg, rfl⟩ := Option.map_eq_some_iff.1 hsome
    exact ((hswitched x hx).2 g.call (Turn.back?_of_reverse? hg)).2

/-- A run over a pair that acts on a page, with none held before it, reports no failure. -/
theorem Rig.runPair_spotless {r : Rig W} {plan : LoopPlan} {name : String}
    {reverseBaseline : Cycles} {op : Pair W} {fuel : Nat} {w w' : W} {report : PairReport}
    {held : W → Bool} (hr : r.Leaves held) (hp : plan.onFailure ≠ .ignore)
    (ho : op.Seen held pages) (hw : held w = false)
    (h : r.runPair plan name reverseBaseline op fuel w = some (report, w')) (half : Half) :
    (report.of half).failed = 0 ∧ (report.of half).rejected.failed = 0 := by
  obtain ⟨hrun, -⟩ := Rig.runPair_soFar h
  obtain ⟨rounds, turns, -, -, hruns, rfl⟩ := Rig.runPair_recorded hrun
  obtain ⟨-, hv⟩ := Pair.Rehearses.switched ho.switches hruns.rehearsed hw
  obtain ⟨hahead, hback⟩ := Rig.TakesAll.pages_codes hr hp ho hruns.taken hv
  cases half with
  | forward => exact Tally.report_spotless plan plan.baseline _ _ hahead
  | reverse => exact Tally.report_spotless plan reverseBaseline _ _ hback

/-! ## Runs -/

/-- The forward calls of a run are those of its rounds and those of its turns. -/
theorem forward_mem_calls {rounds : List (Rehearsal W)} {turns : List (Turn W)} {c : Call W}
    (h : (.forward, c) ∈ rounds.flatMap Rehearsal.calls ++ turns.flatMap Turn.calls) :
    (∃ x ∈ rounds, c = x.forward) ∨ ∃ x ∈ turns, c = x.forward.call := by
  rcases List.mem_append.1 h with h | h
  · obtain ⟨x, hx, hc⟩ := List.mem_flatMap.1 h
    exact .inl ⟨x, hx, by simpa [Rehearsal.calls] using hc⟩
  · obtain ⟨x, hx, hc⟩ := List.mem_flatMap.1 h
    exact .inr ⟨x, hx, by simpa [Turn.calls] using hc⟩

theorem reverse_mem_calls {turns : List (Turn W)} {c : Call W}
    (h : (.reverse, c) ∈ turns.flatMap Turn.calls) : ∃ x ∈ turns, x.back? = some c := by
  obtain ⟨x, hx, hc⟩ := List.mem_flatMap.1 h
  exact ⟨x, hx, by simpa [Turn.calls] using hc⟩

/-- Unless codes are ignored, a run over a pair calls both halves in every round of its warm-up, and
then takes turns, each of which takes its forward call back exactly if that succeeded. So if the
pair switches a state that begins off, no forward half is called while it is on, and no reverse half
of a turn is called while it is off. All this holds as far as the run has come, whether or not it
comes to an end. If it does, the state is off, and if the state is a page that is held or not,
neither report shows a failure. -/
theorem Rig.runPair_restores {plan : LoopPlan} (hp : plan.onFailure ≠ .ignore) (r : Rig W)
    (reverseBaseline : Cycles) (op : Pair W) (fuel : Nat) (w : W) :
    ∃ (rounds : List (Rehearsal W)) (turns : List (Turn W)),
      r.pairNotes plan reverseBaseline op fuel w =
        rounds.flatMap Rehearsal.notes ++ turns.flatMap (Turn.notes plan) ∧
      r.pairCallsMade plan reverseBaseline op fuel w =
        rounds.flatMap Rehearsal.calls ++ turns.flatMap Turn.calls ∧
      rounds.length = plan.warmup.toNat ∧
      (∀ x ∈ turns, x.Restores plan) ∧
      (∀ on : W → Bool, r.Leaves on → op.Switches on → on w = false →
        (∀ c, (.forward, c) ∈ r.pairCallsMade plan reverseBaseline op fuel w →
          on c.world = false) ∧
        ∀ c, (.reverse, c) ∈ turns.flatMap Turn.calls → on c.world = true) ∧
      ∀ name report w', r.runPair plan name reverseBaseline op fuel w = some (report, w') →
        r.recorded.runPair plan name reverseBaseline op.recorded fuel (w, []) =
          some (report, (w', r.pairNotes plan reverseBaseline op fuel w)) ∧
        (∀ on : W → Bool, r.Leaves on → op.Switches on → on w = false → on w' = false) ∧
        ∀ held : W → Bool, r.Leaves held → op.Seen held pages → held w = false →
          ∀ half, (report.of half).failed = 0 ∧ (report.of half).rejected.failed = 0 := by
  obtain ⟨rounds, turns, hlength, hrounds, hturned⟩ :=
    r.pairSoFar_turned plan reverseBaseline op fuel w
  have hcalls := Rig.pairCallsMade_of_turned hturned
  have hswitched : ∀ on : W → Bool, r.Leaves on → op.Switches on → on w = false →
      (∀ x ∈ rounds, on x.forward.world = false) ∧
      (∀ x ∈ turns, on x.forward.call.world = false ∧
        ∀ c, x.back? = some c → on c.world = true ∧ c.code = 0) ∧
      on (r.pairSoFar plan reverseBaseline op fuel w).2.1 = false := by
    intro on hr ho hw
    obtain ⟨hwarm, hv⟩ := Pair.Rehearses.switched ho hrounds hw
    exact ⟨hwarm, Rig.TakesAll.switched hr hp ho hturned.taken hv⟩
  refine ⟨rounds, turns, hturned.record, hcalls, hlength, ?_, ?_, ?_⟩
  · exact hturned.taken.forall_mem fun x u u' hx => hx.restores hp
  · intro on hr ho hw
    obtain ⟨hwarm, htaken, -⟩ := hswitched on hr ho hw
    refine ⟨fun c hc => ?_, fun c hc => ?_⟩
    · rw [hcalls] at hc
      rcases forward_mem_calls hc with ⟨x, hx, rfl⟩ | ⟨x, hx, rfl⟩
      · exact hwarm x hx
      · exact (htaken x hx).1
    · obtain ⟨x, hx, hback⟩ := reverse_mem_calls hc
      exact ((htaken x hx).2 c hback).1
  · intro name report w' h
    obtain ⟨hrun, hworld⟩ := Rig.runPair_soFar h
    refine ⟨hrun, fun on hr ho hw => ?_, fun held hr ho hw half => ?_⟩
    · rw [← hworld]
      exact (hswitched on hr ho hw).2.2
    · exact Rig.runPair_spotless hr hp ho hw h half

/-! ## A page in a troubled run -/

/-- The pair that takes a page and gives it back, playing scripts for nothing but their time. -/
def Script.paging (forward reverse : Script) : Pair (Stage × Bool) where
  forward s := ((pages.forward s.2).1, ((forward.operation s.1).2, (pages.forward s.2).2))
  reverse s := ((pages.reverse s.2).1, ((reverse.second s.1).2, (pages.reverse s.2).2))

theorem Rig.beside_leaves (r : Rig W) : (r.beside : Rig (W × Bool)).Leaves Prod.snd :=
  ⟨fun _ => rfl, fun _ _ => rfl, fun _ => rfl⟩

theorem Script.paging_seen (forward reverse : Script) :
    (Script.paging forward reverse).Seen Prod.snd pages :=
  ⟨fun _ => rfl, fun _ => rfl⟩

/-- In the troubled run a page is taken six times and given back as often. One attempt before its end
it has taken the page and given it back five times. -/
theorem Rig.runPair_restores_page :
    let r : Rig (Stage × Bool) := (Stage.rig (Stage.observe (.counter 0))).beside
    let op := Script.paging troubledScript troubledReverse
    (∃ report w,
      r.runPair troubledPlan "page" 20 op 8 (.at 20, false) = some (report, w) ∧
      (r.pairCallsMade troubledPlan 20 op 8 (.at 20, false)).map Prod.fst = backAndForth 6 ∧
      (∀ c, (.forward, c) ∈ r.pairCallsMade troubledPlan 20 op 8 (.at 20, false) →
        c.world.2 = false) ∧
      w.2 = false ∧ ∀ half, (report.of half).failed = 0 ∧ (report.of half).rejected.failed = 0) ∧
    r.runPair troubledPlan "page" 20 op 4 (.at 20, false) = none ∧
      (r.pairCallsMade troubledPlan 20 op 4 (.at 20, false)).map Prod.fst = backAndForth 5 ∧
      ∀ c, (.forward, c) ∈ r.pairCallsMade troubledPlan 20 op 4 (.at 20, false) →
        c.world.2 = false := by
  intro r op
  have hends : (r.runPair troubledPlan "page" 20 op 8 (.at 20, false)).isSome := by decide +kernel
  have hnever : r.runPair troubledPlan "page" 20 op 4 (.at 20, false) = none :=
    Option.isNone_iff_eq_none.1 (by decide +kernel)
  have hleaves := (Stage.rig (Stage.observe (.counter 0))).beside_leaves
  have hseen := Script.paging_seen troubledScript troubledReverse
  have hp : troubledPlan.onFailure ≠ .ignore := by decide
  obtain ⟨⟨report, w⟩, h⟩ := Option.isSome_iff_exists.1 hends
  obtain ⟨_, _, -, -, -, -, hstate, hlast⟩ := Rig.runPair_restores hp r 20 op 8 (.at 20, false)
  obtain ⟨_, _, -, -, -, -, hstate', -⟩ := Rig.runPair_restores hp r 20 op 4 (.at 20, false)
  obtain ⟨-, hoff, hclean⟩ := hlast "page" report w h
  refine ⟨⟨report, w, h, by decide +kernel, (hstate Prod.snd hleaves hseen.switches rfl).1,
    hoff Prod.snd hleaves hseen.switches rfl, hclean Prod.snd hleaves hseen rfl⟩, hnever,
    by decide +kernel, (hstate' Prod.snd hleaves hseen.switches rfl).1⟩

/-! ## Codes that are ignored -/

/-- A sample that nothing disturbed, whatever its operation returned. -/
def Sample.Undisturbed (plan : LoopPlan) (s : Sample) : Prop :=
  s.before = s.after ∧ s.window.start ≤ s.window.stop ∧
    s.window.stop - s.window.start ≤ plan.ceiling

instance (plan : LoopPlan) (s : Sample) : Decidable (s.Undisturbed plan) :=
  inferInstanceAs (Decidable (_ ∧ _))

theorem Sample.accepted_iff_undisturbed {plan : LoopPlan} (hp : plan.onFailure = .ignore)
    (s : Sample) : s.Accepted plan ↔ s.Undisturbed plan := by
  constructor
  · rintro ⟨hticks, -, hwindow⟩
    exact ⟨hticks, hwindow⟩
  · rintro ⟨hticks, hwindow⟩
    exact ⟨hticks, .inr hp, hwindow⟩

/-- If codes are ignored, a turn of a run still takes back nothing if its forward call returned
another code than zero and its sample was disturbed. So the calls of the run, as far as it has come,
go back and forth exactly if there is no such turn. -/
theorem Rig.runPair_alternates_iff {plan : LoopPlan} (hp : plan.onFailure = .ignore) (r : Rig W)
    (reverseBaseline : Cycles) (op : Pair W) (fuel : Nat) (w : W) :
    ∃ (rounds : List (Rehearsal W)) (turns : List (Turn W)),
      r.pairNotes plan reverseBaseline op fuel w =
        rounds.flatMap Rehearsal.notes ++ turns.flatMap (Turn.notes plan) ∧
      r.pairCallsMade plan reverseBaseline op fuel w =
        rounds.flatMap Rehearsal.calls ++ turns.flatMap Turn.calls ∧
      rounds.length = plan.warmup.toNat ∧
      (∀ x ∈ turns, x.back? = none ↔
        x.forward.call.code ≠ 0 ∧ ¬ x.forward.sample.Undisturbed plan) ∧
      ((∃ n, (r.pairCallsMade plan reverseBaseline op fuel w).map Prod.fst = backAndForth n) ↔
        ∀ x ∈ turns, x.forward.call.code = 0 ∨ x.forward.sample.Undisturbed plan) ∧
      ∀ name report w', r.runPair plan name reverseBaseline op fuel w = some (report, w') →
        r.recorded.runPair plan name reverseBaseline op.recorded fuel (w, []) =
          some (report, (w', r.pairNotes plan reverseBaseline op fuel w)) := by
  obtain ⟨rounds, turns, hlength, -, hturned⟩ := r.pairSoFar_turned plan reverseBaseline op fuel w
  have hback : ∀ x ∈ turns, x.back? = none ↔
      x.forward.call.code ≠ 0 ∧ ¬ x.forward.sample.Undisturbed plan := by
    refine hturned.taken.forall_mem fun x u u' hx => ?_
    rw [hx.back?_eq_none_iff, Sample.accepted_iff_undisturbed hp]
  have htaken : ∀ x ∈ turns, x.back?.isSome ↔
      x.forward.call.code = 0 ∨ x.forward.sample.Undisturbed plan := by
    intro x hx
    rw [Option.isSome_iff_ne_none, Ne, hback x hx, Decidable.or_iff_not_imp_left, not_and,
      Decidable.not_not]
  have halternates : (∃ n, (r.pairCallsMade plan reverseBaseline op fuel w).map Prod.fst =
      backAndForth n) ↔ ∀ x ∈ turns, x.back?.isSome := by
    rw [← halvesIn_run_iff plan rounds turns, ← hturned.record]
    rfl
  refine ⟨rounds, turns, hturned.record, Rig.pairCallsMade_of_turned hturned, hlength, hback, ?_,
    fun name report w' h => (Rig.runPair_soFar h).1⟩
  rw [halternates]
  constructor
  · intro hall x hx
    exact (htaken x hx).1 (hall x hx)
  · intro hall x hx
    exact (htaken x hx).2 (hall x hx)

/-- One sample, with codes ignored. -/
def carelessPlan : LoopPlan := { LoopPlan.standard with samples := 1, onFailure := .ignore }

/-- A forward call that fails while an interrupt passes is left behind, and the next forward call
follows it at once. -/
theorem Rig.runPair_alternates_iff_disturbed :
    let r := Stage.rig (Stage.observe (.counter 0))
    let op := Script.pair [⟨none, 10, 1, -1⟩, ⟨none, 10, 0, 0⟩] [⟨none, 5, 0, 0⟩]
    let calls := r.pairCallsMade carelessPlan 5 op 2 (.at 100)
    (r.runPair carelessPlan "careless" 5 op 2 (.at 100)).isSome ∧
    calls.map Prod.fst = [.forward, .forward, .reverse] ∧
    (∀ n, calls.map Prod.fst ≠ backAndForth n) ∧
    ∃ turns : List (Turn Stage), calls = turns.flatMap Turn.calls ∧
      ∃ x ∈ turns, x.back? = none ∧ x.forward.call.code ≠ 0 ∧
        ¬ x.forward.sample.Undisturbed carelessPlan := by
  intro r op calls
  have hends : (r.runPair carelessPlan "careless" 5 op 2 (.at 100)).isSome := by decide +kernel
  have hcalled : calls.map Prod.fst = [.forward, .forward, .reverse] := by decide +kernel
  have hp : carelessPlan.onFailure = .ignore := rfl
  obtain ⟨rounds, turns, -, hcalls, hlength, hback, halternates, -⟩ :=
    Rig.runPair_alternates_iff hp r 5 op 2 (.at 100)
  have hnone : rounds = [] := List.length_eq_zero_iff.1 hlength
  rw [hnone, List.flatMap_nil, List.nil_append] at hcalls
  have hnever : ∀ n, calls.map Prod.fst ≠ backAndForth n := by
    intro n hn
    have hforward := count_backAndForth .forward n
    have hreverse := count_backAndForth .reverse n
    rw [← hn, hcalled] at hforward hreverse
    exact absurd (hforward.trans hreverse.symm) (by decide)
  refine ⟨hends, hcalled, hnever, turns, hcalls, Classical.byContradiction fun hno => ?_⟩
  have hall : ∀ x ∈ turns, x.forward.call.code = 0 ∨
      x.forward.sample.Undisturbed carelessPlan := by
    intro x hx
    by_cases hcode : x.forward.call.code = 0
    · exact .inl hcode
    · refine .inr (Decidable.byContradiction fun hdisturbed => hno ?_)
      exact ⟨x, hx, (hback x hx).2 ⟨hcode, hdisturbed⟩, hcode, hdisturbed⟩
  obtain ⟨n, hn⟩ := halternates.2 hall
  exact hnever n hn

end LatencyGauge
