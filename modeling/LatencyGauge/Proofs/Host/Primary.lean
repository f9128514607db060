/-
One step of a primary: what it leaves as it is, what it does to the count of primaries and to the
flag, and what keeps a primary in order. A primary in order has met no fault and does what belongs
to the workload of its plan.
-/
import Mathlib.Tactic.SplitIfs
import LatencyGauge.Host.Primary
import LatencyGauge.Proofs.Host.Layout
import LatencyGauge.Proofs.Sync.Meeting

namespace LatencyGauge

variable {p : RunPlan} {i : Nat} {r : Reading} {x : Primary} {s : Shared}

/-! ## What it leaves as it is -/

section Observe

variable (s : Shared) (marker : Option String) (r : Reading)

@[simp] theorem Shared.observe_barrier : (s.observe marker r).2.barrier = s.barrier := by
  cases marker <;> rfl

@[simp] theorem Shared.observe_boxes : (s.observe marker r).2.boxes = s.boxes := by
  cases marker <;> rfl

@[simp] theorem Shared.observe_done : (s.observe marker r).2.done = s.done := by
  cases marker <;> rfl

@[simp] theorem Shared.observe_handshake : (s.observe marker r).2.handshake = s.handshake := by
  cases marker <;> rfl

@[simp] theorem Shared.observe_primariesLeft :
    (s.observe marker r).2.primariesLeft = s.primariesLeft := by
  cases marker <;> rfl

end Observe

/-- Whether a primary has not left yet. -/
def Duty.stays : Duty → Bool
  | .announcing | .ended => false
  | _ => true

/-- Whether a primary is past its last window. -/
def Duty.spent : Duty → Bool
  | .averaging _ | .leaving | .announcing | .ended => true
  | _ => false

theorem Primary.windowed_fault (w : Window) : (x.windowed w).fault = x.fault := by
  unfold Primary.windowed
  split <;> rfl

theorem Primary.judge_fault (after : Tick) : (x.judge p after).fault = x.fault := by
  unfold Primary.judge
  dsimp only
  split
  · split
    · unfold Primary.judgeForward
      split <;> rfl
    · rfl
  · rfl

theorem Primary.step_barrier : (x.step p i r s).2.barrier = s.barrier := by
  unfold Primary.step
  split <;> try simp [Shared.leave, Shared.complete]
  · split <;> rfl
  · split <;> (try split) <;> rfl

theorem Primary.step_done (hduty : x.duty ≠ .announcing) :
    (x.step p i r s).2.done = s.done := by
  unfold Primary.step
  split <;> simp_all [Shared.leave]
  · split <;> rfl
  · split <;> (try split) <;> rfl

theorem Primary.step_primariesLeft (hduty : x.duty ≠ .leaving) :
    (x.step p i r s).2.primariesLeft = s.primariesLeft := by
  unfold Primary.step
  split <;> simp_all [Shared.complete]
  · split <;> rfl
  · split <;> (try split) <;> rfl

/-- A primary raises no flag, and there are as many mailboxes as before. -/
theorem Primary.step_boxes : (x.step p i r s).2.boxes.slots.size = s.boxes.slots.size ∧
    (x.step p i r s).2.boxes.ready = s.boxes.ready := by
  unfold Primary.step
  split <;> try simp [Shared.leave, Shared.complete]
  · split <;> exact ⟨rfl, rfl⟩
  · split <;> (try split) <;> simp [Mailboxes.write]
  · rename_i q _ _
    cases q <;> simp [Sender.step, Mailboxes.write]

/-- Of the mailboxes a primary touches only those of its own link. -/
theorem Primary.step_touched : s.boxes.Touched (p.link i) (x.step p i r s).2.boxes := by
  unfold Primary.step
  split <;> try simp only [Shared.observe_boxes, Shared.leave, Shared.complete]
  case h_1 =>
    split <;> exact .nothing
  case h_3 =>
    split
    · split <;> exact .reply 0
    · exact .nothing
  case h_10 q _ hduty =>
    cases q with
    | posting start => exact .request (postable start)
    | starting | polling | ending | ended => exact .nothing
  all_goals exact .nothing

theorem Request.step_completed (q : Request) (h : Handshake) :
    (q.step h).2.completed = h.completed := by
  cases q <;> rfl

/-- A primary acknowledges nothing. -/
theorem Primary.step_completed :
    (x.step p i r s).2.handshake.completed = s.handshake.completed := by
  unfold Primary.step
  split <;> try simp only [Shared.observe_handshake, Shared.leave, Shared.complete]
  case h_1 =>
    split <;> rfl
  case h_3 =>
    split
    · split <;> rfl
    · rfl
  case h_5 => exact Request.step_completed ..

/-- The step that leaves. -/
theorem Primary.step_leaving (hduty : x.duty = .leaving) :
    (x.step p i r s).1.duty = (if s.primariesLeft = 1 then .announcing else .ended) ∧
      (x.step p i r s).2 = { s with primariesLeft := s.primariesLeft - 1 } := by
  simp [Primary.step, hduty, Shared.leave]

/-- The step that announces completion. -/
theorem Primary.step_announcing (hduty : x.duty = .announcing) :
    x.step p i r s = ({ x with duty := .ended }, s.complete) := by
  simp [Primary.step, hduty]

theorem Verdict.duty_cases (v : Verdict) : v.duty = .recovering ∨ v.duty = .choosing := by
  unfold Verdict.duty
  split
  · exact .inl rfl
  · exact .inr rfl

theorem Primary.windowed_duty (w : Window) :
    (x.windowed w).duty = .choosing ∨ (x.windowed w).duty = .settling := by
  unfold Primary.windowed
  split
  · exact .inl rfl
  · exact .inr rfl

theorem RunPlan.windowDuty_cases (p : RunPlan) :
    p.windowDuty = .exchanging .starting ∨ p.windowDuty = .starting := by
  unfold RunPlan.windowDuty
  split
  · exact .inl rfl
  · exact .inr rfl

theorem Primary.prepared_duty : (x.prepared p).duty = .opening ∨
    (x.prepared p).duty = .exchanging .starting ∨ (x.prepared p).duty = .starting := by
  unfold Primary.prepared
  split
  · exact .inr p.windowDuty_cases
  · exact .inl rfl

theorem Primary.judge_duty (after : Tick) : (x.judge p after).duty = .recovering ∨
    (x.judge p after).duty = .choosing ∨ (x.judge p after).duty = .opening ∨
      ∃ v, (x.judge p after).duty = .restoring v := by
  unfold Primary.judge
  dsimp only
  generalize Sample.verdict _ p.loop = v
  split
  · split
    · unfold Primary.judgeForward
      split
      · dsimp only
        split
        · exact .inr (.inr (.inr ⟨_, rfl⟩))
        · exact (Verdict.duty_cases _).imp_right .inl
      · exact .inr (.inl rfl)
      · exact .inr (.inr (.inl rfl))
    · exact v.duty_cases.imp_right .inl
  · exact v.duty_cases.imp_right .inl

/-- Whether a duty belongs to the workload of a plan. -/
def Duty.Suits (p : RunPlan) : Duty → Prop
  | .connecting | .exchanging _ => p.needsReceivers = true
  | .requesting _ => p.workload = .response
  | _ => True

/-- A primary in order has met no fault, has done its warm-up when it is past its windows, and does
what belongs to its workload. -/
structure Primary.Fit (p : RunPlan) (x : Primary) : Prop where
  fault : x.fault = none
  spent : x.duty.spent = true → x.warmups = 0
  suits : x.duty.Suits p

theorem Primary.fit_start (p : RunPlan) : (Primary.start p).Fit p where
  fault := rfl
  spent := by
    unfold Primary.start
    dsimp only
    split <;> exact nofun
  suits := by
    unfold Primary.start
    dsimp only
    split
    case isTrue hneeds => exact hneeds
    case isFalse => trivial

/-- What follows a step that goes on measuring. -/
theorem Primary.Fit.of_measuring {x' : Primary} (hfault : x'.fault = none)
    (hduty : x'.duty.spent = false ∧ x'.duty.Suits p) : x'.Fit p where
  fault := hfault
  spent hspent := by
    rw [hduty.1] at hspent
    contradiction
  suits := hduty.2

theorem Primary.Fit.windowed (hfault : x.fault = none) (w : Window) : (x.windowed w).Fit p := by
  refine .of_measuring ((Primary.windowed_fault w).trans hfault) ?_
  rcases x.windowed_duty w with hd | hd <;> rw [hd] <;> exact ⟨rfl, trivial⟩

theorem RunPlan.windowDuty_suits (p : RunPlan) :
    p.windowDuty.spent = false ∧ p.windowDuty.Suits p := by
  unfold RunPlan.windowDuty
  split
  case isTrue hneeds => exact ⟨rfl, hneeds⟩
  case isFalse => exact ⟨rfl, trivial⟩

theorem Primary.Fit.prepared (hfault : x.fault = none) : (x.prepared p).Fit p := by
  refine .of_measuring hfault ?_
  unfold Primary.prepared
  dsimp only
  split
  · exact p.windowDuty_suits
  · exact ⟨rfl, trivial⟩

/-- A step of a primary in order leaves it in order. -/
theorem Primary.Fit.step (h : x.Fit p)
    (hhosts : p.needsReceivers = true → s.boxes.Hosts (p.link i)) :
    (x.step p i r s).1.Fit p := by
  have hsuits := h.suits
  cases hduty : x.duty with
  | connecting =>
    rw [hduty] at hsuits
    have hlink : s.boxes.link i p.signalOffset p.payload = .ok (p.link i) :=
      (hhosts hsuits).link_eq rfl
    simp only [Primary.step, hduty, hlink]
    split
    · exact .of_measuring h.fault ⟨rfl, trivial⟩
    · exact h
  | choosing =>
    -- it goes on to its end only with no warm-up left
    simp only [Primary.step, hduty, Primary.choose]
    split_ifs with hwarm
    · refine .of_measuring h.fault ?_
      show x.duty.spent = false ∧ x.duty.Suits p
      rw [hduty]
      exact ⟨rfl, trivial⟩
    · exact .of_measuring h.fault ⟨rfl, trivial⟩
    · exact .of_measuring h.fault ⟨rfl, trivial⟩
    · exact ⟨h.fault, fun _ => Nat.eq_zero_of_not_pos hwarm, trivial⟩
    · exact ⟨h.fault, fun _ => Nat.eq_zero_of_not_pos hwarm, trivial⟩
  | clearing =>
    simp only [Primary.step, hduty]
    split_ifs with _ hresponse
    · exact .of_measuring h.fault ⟨rfl, hresponse⟩
    · exact .prepared h.fault
    · exact .prepared h.fault
  | requesting q =>
    rw [hduty] at hsuits
    cases q with
    | ended number =>
      simp only [Primary.step, hduty]
      exact .prepared h.fault
    | _ =>
      simp only [Primary.step, hduty]
      exact .of_measuring h.fault ⟨rfl, hsuits⟩
  | opening =>
    simp only [Primary.step, hduty]
    exact .of_measuring h.fault p.windowDuty_suits
  | starting | settling | recovering =>
    simp only [Primary.step, hduty]
    exact .of_measuring h.fault ⟨rfl, trivial⟩
  | working start =>
    simp only [Primary.step, hduty]
    exact .windowed (by exact h.fault) _
  | exchanging q =>
    rw [hduty] at hsuits
    cases q with
    | ended w =>
      simp only [Primary.step, hduty]
      exact .windowed h.fault w
    | _ =>
      simp only [Primary.step, hduty]
      exact .of_measuring h.fault ⟨rfl, hsuits⟩
  | closing =>
    simp only [Primary.step, hduty]
    refine .of_measuring ((Primary.judge_fault _).trans h.fault) ?_
    rcases x.judge_duty (p := p) (s.observe p.marker r).1 with hd | hd | hd | ⟨v, hd⟩ <;>
      rw [hd] <;> exact ⟨rfl, trivial⟩
  | restoring v =>
    simp only [Primary.step, hduty]
    refine .of_measuring h.fault ?_
    rcases v.duty_cases with hd | hd <;> rw [hd] <;> exact ⟨rfl, trivial⟩
  | averaging start =>
    have hspent := h.spent (by rw [hduty]; rfl)
    cases start <;> simp only [Primary.step, hduty] <;> exact ⟨h.fault, fun _ => hspent, trivial⟩
  | leaving =>
    have hspent := h.spent (by rw [hduty]; rfl)
    simp only [Primary.step, hduty]
    exact ⟨h.fault, fun _ => hspent, by dsimp only; split <;> trivial⟩
  | announcing =>
    have hspent := h.spent (by rw [hduty]; rfl)
    simp only [Primary.step, hduty]
    exact ⟨h.fault, fun _ => hspent, trivial⟩
  | ended =>
    simp only [Primary.step, hduty]
    exact h

/-- A step that is neither the one that leaves nor one after it does not leave. -/
theorem Primary.step_stays (hstays : x.duty.stays = true) (hduty : x.duty ≠ .leaving) :
    (x.step p i r s).1.duty.stays = true := by
  unfold Primary.step
  split
  case h_1 =>
    split
    · rfl
    · dsimp only
      split
      · rfl
      · exact hstays
  case h_2 hd =>
    unfold Primary.choose
    split_ifs
    · exact hstays
    all_goals rfl
  case h_3 =>
    have hprepared : (x.prepared p).duty.stays = true := by
      rcases x.prepared_duty (p := p) with hd | hd | hd <;> rw [hd] <;> rfl
    split_ifs
    · rfl
    · exact hprepared
    · exact hprepared
  case h_4 => rcases x.prepared_duty (p := p) with hd | hd | hd <;> rw [hd] <;> rfl
  case h_6 => rcases p.windowDuty_cases with hd | hd <;> simp only [hd] <;> rfl
  case h_8 start _ =>
    rcases Primary.windowed_duty (x := { x with held := (x.operate p).2 })
      ⟨start, r.cycles, (x.operate p).1⟩ with hd | hd <;> simp only [hd] <;> rfl
  case h_9 w _ => rcases x.windowed_duty w with hd | hd <;> simp only [hd] <;> rfl
  case h_12 =>
    rcases x.judge_duty (p := p) (s.observe p.marker r).1 with hd | hd | hd | ⟨v, hd⟩ <;>
      simp only [hd] <;> rfl
  case h_13 v _ => rcases v.duty_cases with hd | hd <;> simp only [hd] <;> rfl
  case h_17 hd => exact absurd hd hduty
  case h_18 hd => rw [hd] at hstays; contradiction
  case h_19 hd => rw [hd] at hstays; contradiction
  all_goals rfl

end LatencyGauge
