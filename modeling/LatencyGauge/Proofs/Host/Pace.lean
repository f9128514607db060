/-
How far a primary is. Every step of it that is no look at a word goes forward, in an order in which
windows that are over come first; and as long as the word stays, a primary that looks at it stays.
-/
import LatencyGauge.Proofs.Host.Primary
import LatencyGauge.Proofs.Sync.Turns

namespace LatencyGauge

variable {p : RunPlan} {i : Nat} {r : Reading} {x : Primary} {s : Shared}

/-- The order in which a primary takes its steps between two samples. -/
def Duty.rank : Duty → Int
  | .restoring _ => 0
  | .connecting | .recovering => 1
  | .choosing => 2
  | .clearing => 3
  | .requesting .starting => 4
  | .requesting (.announcing _) => 5
  | .requesting (.waiting _) => 6
  | .requesting (.ended _) => 7
  | .opening => 8
  | .starting | .exchanging .starting => 9
  | .working _ | .exchanging (.posting _) => 10
  | .exchanging (.polling _) => 11
  | .exchanging (.ending _ _) => 12
  | .exchanging (.ended _) => 13
  | .settling => 14
  | .closing => 15
  | .averaging none => 16
  | .averaging (some _) => 17
  | .leaving => 18
  | .announcing => 19
  | .ended => 20

/-- How far a primary is: samples and windows of the warm-up come first. -/
def Primary.pace (x : Primary) : Int :=
  32 * (x.tally.forward.attempts + x.tally.reverse.attempts - x.warmups) + x.duty.rank

/-- Whether a primary looks at a word that has to change before it can go on. -/
def Primary.Waits (p : RunPlan) (i : Nat) (x : Primary) (s : Shared) : Prop :=
  match x.duty with
  | .connecting => ∃ l, s.boxes.link i p.signalOffset p.payload = .ok l ∧
      s.boxes.flag l.receiver = false
  | .requesting (.waiting number) => s.handshake.completed < number
  | .exchanging (.polling _) => s.boxes.peek i = 0
  | _ => False

/-- As long as the word stays, a primary that looks at it stays too. -/
theorem Primary.Waits.step (h : x.Waits p i s) : x.step p i r s = (x, s) := by
  unfold Primary.Waits at h
  split at h
  case h_1 hduty =>
    obtain ⟨l, hlink, hflag⟩ := h
    simp [Primary.step, hduty, hlink, hflag]
  case h_2 number hduty =>
    simp only [Primary.step, hduty, Request.step_waiting h]
    rw [← hduty]
  case h_3 start hduty =>
    simp only [Primary.step, hduty, Sender.step, RunPlan.link, h, if_true]
    rw [← hduty]
  case h_4 => exact h.elim

theorem Primary.pace_lt {x' : Primary} {d d' : Duty} (hduty : x.duty = d) (hduty' : x'.duty = d')
    (hwarmups : x'.warmups = x.warmups) (htally : x'.tally = x.tally) (hrank : d.rank < d'.rank) :
    x.pace < x'.pace := by
  subst hduty hduty'
  simp only [Primary.pace, hwarmups, htally]
  omega

theorem Primary.choose_pace (hduty : x.duty = .choosing) : x.pace < (x.choose p).pace := by
  unfold Primary.choose
  split_ifs with hwarm
  · simp only [Primary.pace, Primary.warm]
    omega
  all_goals exact Primary.pace_lt hduty rfl rfl rfl (by simp [Duty.rank])

theorem Primary.prepared_pace (hrank : x.duty.rank < 8) : x.pace < (x.prepared p).pace := by
  rcases x.prepared_duty (p := p) with hd | hd | hd <;>
    exact Primary.pace_lt rfl hd rfl rfl (Int.lt_of_lt_of_le hrank (by decide))

theorem Primary.windowed_pace (hrank : x.duty.rank < 14) (w : Window) :
    x.pace < (x.windowed w).pace := by
  unfold Primary.windowed
  split
  case isTrue hwarm =>
    have hchoosing : Duty.choosing.rank = 2 := rfl
    simp only [Primary.pace]
    omega
  case isFalse => exact Primary.pace_lt rfl rfl rfl rfl hrank

theorem Verdict.duty_rank (v : Verdict) : 0 < v.duty.rank := by
  rcases v.duty_cases with hd | hd <;> rw [hd] <;> decide

/-- A sample that is counted outweighs all that follows it. -/
theorem Primary.judge_pace (hduty : x.duty = .closing) (after : Tick) :
    x.pace < (x.judge p after).pace := by
  unfold Primary.judge
  dsimp only
  generalize Sample.verdict _ p.loop = v
  have hv := v.duty_rank
  have hclosing : x.duty.rank = 15 := by rw [hduty]; rfl
  have hchoosing : Duty.choosing.rank = 2 := rfl
  have hopening : Duty.opening.rank = 8 := rfl
  have hrestoring : ∀ v, (Duty.restoring v).rank = 0 := fun _ => rfl
  -- one attempt more outweighs the ranks, of which none is as great as its weight
  simp only [Primary.pace, hclosing]
  split
  · split
    · unfold Primary.judgeForward
      split
      · dsimp only
        split <;> simp only [Tally.take_attempts, hrestoring] <;> omega
      · simp only [Tally.take_attempts]
        omega
      · simp only [Tally.take_attempts]
        omega
    · simp only [Primary.judgeReverse, Tally.take_attempts]
      omega
  · simp only [Primary.judgeSingle, Tally.take_attempts]
    omega

/-- A step of a primary goes forward, or it waits or has ended and nothing changes. -/
theorem Primary.step_pace : x.pace < (x.step p i r s).1.pace ∨
    (x.step p i r s = (x, s) ∧ (x.duty = .ended ∨ x.Waits p i s)) := by
  cases hduty : x.duty with
  | connecting =>
    cases hlink : s.boxes.link i p.signalOffset p.payload with
    | error f =>
      simp only [Primary.step, hduty, hlink]
      exact .inl (Primary.pace_lt hduty rfl rfl rfl (by simp [Duty.rank]))
    | ok l =>
      cases hflag : s.boxes.flag l.receiver with
      | true =>
        simp only [Primary.step, hduty, hlink, hflag, if_true]
        exact .inl (Primary.pace_lt hduty rfl rfl rfl (by simp [Duty.rank]))
      | false =>
        have hwaits : x.Waits p i s := by
          simp only [Primary.Waits, hduty]
          exact ⟨l, hlink, hflag⟩
        exact .inr ⟨hwaits.step, .inr hwaits⟩
  | choosing =>
    simp only [Primary.step, hduty]
    exact .inl (Primary.choose_pace hduty)
  | clearing =>
    have hprepared : x.pace < (x.prepared p).pace :=
      Primary.prepared_pace (by rw [hduty]; decide)
    simp only [Primary.step, hduty]
    split_ifs
    · exact .inl (Primary.pace_lt hduty rfl rfl rfl (by simp [Duty.rank]))
    · exact .inl hprepared
    · exact .inl hprepared
  | requesting q =>
    cases q with
    | ended number =>
      simp only [Primary.step, hduty]
      exact .inl (Primary.prepared_pace (by rw [hduty]; exact (by decide : (7 : Int) < 8)))
    | waiting number =>
      by_cases hpending : s.handshake.completed < number
      · have hwaits : x.Waits p i s := by
          simp only [Primary.Waits, hduty]
          exact hpending
        exact .inr ⟨hwaits.step, .inr hwaits⟩
      · simp only [Primary.step, hduty, Request.step_returning hpending]
        exact .inl (Primary.pace_lt hduty rfl rfl rfl (by simp [Duty.rank]))
    | starting | announcing number =>
      simp only [Primary.step, hduty, Request.step]
      exact .inl (Primary.pace_lt hduty rfl rfl rfl (by simp [Duty.rank]))
  | opening =>
    simp only [Primary.step, hduty]
    rcases p.windowDuty_cases with hd | hd <;>
      exact .inl (Primary.pace_lt hduty hd rfl rfl (by decide))
  | working start =>
    simp only [Primary.step, hduty]
    refine .inl (Int.lt_of_le_of_lt (Int.le_of_eq ?_) (Primary.windowed_pace ?_ _))
    · simp only [Primary.pace, hduty]
    · exact (by decide : (10 : Int) < 14)
  | exchanging q =>
    cases q with
    | ended w =>
      simp only [Primary.step, hduty]
      exact .inl (Primary.windowed_pace (by rw [hduty]; exact (by decide : (13 : Int) < 14)) w)
    | polling start =>
      by_cases hempty : s.boxes.peek i = 0
      · have hwaits : x.Waits p i s := by
          simp only [Primary.Waits, hduty]
          exact hempty
        exact .inr ⟨hwaits.step, .inr hwaits⟩
      · simp only [Primary.step, hduty, Sender.step, RunPlan.link, hempty, if_false]
        exact .inl (Primary.pace_lt hduty rfl rfl rfl (by simp [Duty.rank]))
    | starting | posting start | ending start answer =>
      simp only [Primary.step, hduty, Sender.step]
      exact .inl (Primary.pace_lt hduty rfl rfl rfl (by simp [Duty.rank]))
  | closing =>
    simp only [Primary.step, hduty]
    exact .inl (Primary.judge_pace hduty _)
  | restoring v =>
    simp only [Primary.step, hduty]
    exact .inl (Primary.pace_lt hduty rfl rfl rfl v.duty_rank)
  | averaging start =>
    cases start <;> simp only [Primary.step, hduty] <;>
      exact .inl (Primary.pace_lt hduty rfl rfl rfl (by simp [Duty.rank]))
  | leaving =>
    simp only [Primary.step, hduty]
    refine .inl (Primary.pace_lt hduty rfl rfl rfl ?_)
    dsimp only
    split <;> decide
  | ended =>
    simp only [Primary.step, hduty]
    exact .inr ⟨trivial, .inl trivial⟩
  | starting | settling | recovering | announcing =>
    simp only [Primary.step, hduty]
    exact .inl (Primary.pace_lt hduty rfl rfl rfl (by simp [Duty.rank]))

end LatencyGauge
