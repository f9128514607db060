/-
One step of a primary as its partners see it. To its receiver it is a sender that connects,
measures round trips and finishes; to the core that flushes it makes one request for every window.
With every step the windows that are over, and the requests that have returned, agree with the
windows of the warm-up that are left and the attempts that were counted.
-/
import LatencyGauge.Proofs.Host.Primary
import LatencyGauge.Proofs.Sync.Turns

namespace LatencyGauge

variable {p : RunPlan} {i n : Nat} {r : Reading} {x x' : Primary} {s : Shared}

/-! ## Counts -/

/-- Whether a window is over that is not counted yet. -/
def Duty.closed : Duty → Nat
  | .starting | .working _ | .exchanging (.ended _) | .settling | .closing => 1
  | _ => 0

/-- Whether a request has returned whose window is not counted yet. -/
def Duty.asked : Duty → Nat
  | .requesting (.ended _) | .opening | .starting | .working _ | .exchanging _ | .settling
  | .closing => 1
  | _ => 0

/-- So many windows, of the warm-up and of attempts, with those ahead of what is counted. -/
def Primary.Counts (p : RunPlan) (ahead : Duty → Nat) (x : Primary) (n : Nat) : Prop :=
  n + x.warmups = p.loop.warmup.toNat + x.tally.forward.attempts + ahead x.duty

section Counts

variable {ahead : Duty → Nat}

theorem Primary.Counts.congr (h : x.Counts p ahead n) (hwarmups : x'.warmups = x.warmups)
    (hattempts : x'.tally.forward.attempts = x.tally.forward.attempts)
    (hahead : ahead x'.duty = ahead x.duty) : x'.Counts p ahead n := by
  rw [Primary.Counts, hwarmups, hattempts, hahead]
  exact h

/-- A window that is over is counted in the warm-up at once, and else when its sample is. -/
theorem Primary.Counts.windowed (h : x.Counts p ahead n) (hahead : ahead x.duty = 1)
    (hsettling : ahead .settling = 1) (hchoosing : ahead .choosing = 0) (w : Window) :
    (x.windowed w).Counts p ahead n := by
  rw [Primary.Counts, hahead] at h
  unfold Primary.windowed Primary.Counts
  split
  case isTrue hwarm =>
    dsimp only
    rw [hchoosing]
    omega
  case isFalse =>
    dsimp only
    rw [hsettling]
    exact h

theorem Primary.Counts.judged (h : x.Counts p ahead n) (hahead : ahead x.duty = 1) (v : Verdict)
    (hv : ahead v.duty = 0) : (x.judgeSingle v).Counts p ahead n := by
  rw [Primary.Counts, hahead] at h
  simp only [Primary.Counts, Primary.judgeSingle, Tally.take_attempts, hv]
  exact h

end Counts

/-! ## To its receiver -/

/-- A primary as a sender. -/
def Duty.asker (l : Link) : Duty → Asker
  | .connecting => .connecting l
  | .requesting _ | .opening => .measuring l .starting
  | .exchanging (.ended _) => .resting l
  | .exchanging q => .measuring l q
  | .announcing | .ended => .finished
  | _ => .resting l

def Entry.closes : Entry → Bool
  | .closed _ _ => true
  | _ => false

theorem RunPlan.not_paired (hneeds : p.needsReceivers = true) : p.workload.isPaired = false := by
  unfold RunPlan.needsReceivers at hneeds
  cases hw : p.workload <;> rw [hw] at hneeds <;> first | rfl | cases hneeds

theorem Primary.judge_single (hneeds : p.needsReceivers = true) (after : Tick) :
    x.judge p after = x.judgeSingle (Sample.verdict ⟨x.window, x.before, after⟩ p.loop) := by
  simp [Primary.judge, RunPlan.not_paired hneeds]

/-- What a step of a primary is to its receiver: a step of a sender, or nothing, or its last. -/
inductive Primary.Sends (p : RunPlan) (i : Nat) (reading : Cycles) (x : Primary)
    (m : Mailboxes) : Primary → Mailboxes → Prop
  | asks (entries : List Entry) {x' : Primary} {m' : Mailboxes}
      (hstep : (x.duty.asker (p.link i)).step i p.signalOffset p.payload reading m =
        (x'.duty.asker (p.link i), m', entries))
      (hclosed : ∀ n, x.Counts p Duty.closed n →
        x'.Counts p Duty.closed (n + entries.countP Entry.closes)) :
      Sends p i reading x m x' m'
  | rests {x' : Primary}
      (hasker : x'.duty.asker (p.link i) = x.duty.asker (p.link i))
      (hclosed : ∀ n, x.Counts p Duty.closed n → x'.Counts p Duty.closed n) :
      Sends p i reading x m x' m
  | finishes {x' : Primary}
      (hasker : x'.duty.asker (p.link i) = (x.duty.asker (p.link i)).finish)
      (hclosed : ∀ n, x.Counts p Duty.closed n → x'.Counts p Duty.closed n) :
      Sends p i reading x m x' m

section Sends

variable {reading : Cycles} {m : Mailboxes} {d d' : Duty} (hduty : x.duty = d)
include hduty

/-- A primary takes up another duty, and its receiver learns nothing. -/
theorem Primary.Sends.takesUp (hduty' : x'.duty = d')
    (hasker : d'.asker (p.link i) = d.asker (p.link i)) (hclosed : d'.closed = d.closed)
    (hwarmups : x'.warmups = x.warmups)
    (hattempts : x'.tally.forward.attempts = x.tally.forward.attempts) :
    Primary.Sends p i reading x m x' m := by
  subst hduty hduty'
  exact .rests hasker fun n h => h.congr hwarmups hattempts hclosed

/-- It makes a step of a sender, which closes no window. -/
theorem Primary.Sends.takesUp_asking (hduty' : x'.duty = d') {entries : List Entry} {m' : Mailboxes}
    (hstep : (d.asker (p.link i)).step i p.signalOffset p.payload reading m =
      (d'.asker (p.link i), m', entries)) (hnone : entries.countP Entry.closes = 0)
    (hclosed : d'.closed = d.closed) (hwarmups : x'.warmups = x.warmups)
    (hattempts : x'.tally.forward.attempts = x.tally.forward.attempts) :
    Primary.Sends p i reading x m x' m' := by
  subst hduty hduty'
  refine .asks entries hstep fun n h => ?_
  rw [hnone]
  exact h.congr hwarmups hattempts hclosed

end Sends

theorem Primary.choose_sends (hpaired : p.workload.isPaired = false) (hduty : x.duty = .choosing)
    (reading : Cycles) (m : Mailboxes) : Primary.Sends p i reading x m (x.choose p) m := by
  unfold Primary.choose
  simp only [hpaired, Bool.false_eq_true, if_false]
  split_ifs <;> exact .takesUp hduty rfl rfl rfl rfl rfl

theorem Primary.windowed_asker (w : Window) (l : Link) :
    (x.windowed w).duty.asker l = .resting l := by
  unfold Primary.windowed
  split <;> rfl

theorem Verdict.duty_asker (v : Verdict) (l : Link) : v.duty.asker l = .resting l := by
  unfold Verdict.duty
  split <;> rfl

theorem Verdict.duty_closed (v : Verdict) : v.duty.closed = 0 := by
  unfold Verdict.duty
  split <;> rfl

theorem Primary.prepared_asker (hneeds : p.needsReceivers = true) (x : Primary) (l : Link) :
    (x.prepared p).duty.asker l = .measuring l .starting ∧ (x.prepared p).duty.closed = 0 := by
  unfold Primary.prepared RunPlan.windowDuty
  simp only [hneeds, if_true]
  split <;> exact ⟨rfl, rfl⟩

/-- A measurement of a window is one of a sender. -/
theorem Primary.exchanging_sends {q : Sender} (hduty : x.duty = .exchanging q)
    (hq : ∀ w, q ≠ .ended w) (reading : Cycles) (m : Mailboxes) :
    Primary.Sends p i reading x m
      { x with duty := .exchanging (q.step (p.link i) reading m).1 }
      (q.step (p.link i) reading m).2 := by
  cases q with
  | ended w => exact absurd rfl (hq w)
  | starting | posting => exact .takesUp_asking hduty rfl rfl rfl rfl rfl rfl
  | polling start =>
    by_cases hempty : m.peek i = 0
    · have hpolls : Sender.step (p.link i) reading m (.polling start) = (.polling start, m) := by
        simp [Sender.step, RunPlan.link, hempty]
      rw [hpolls]
      exact .takesUp hduty rfl rfl rfl rfl rfl
    · have hreceives : Sender.step (p.link i) reading m (.polling start) =
          (.ending start (m.peek i), m) := by simp [Sender.step, RunPlan.link, hempty]
      rw [hreceives]
      have hstep : (Duty.asker (p.link i) (.exchanging (.polling start))).step i
          p.signalOffset p.payload reading m =
          (Duty.asker (p.link i) (.exchanging (.ending start (m.peek i))), m,
            [.received (m.peek i)]) := by
        show Asker.step _ _ _ _ _ (.measuring (p.link i) (.polling start)) = _
        simp only [Asker.step, hreceives]
        rfl
      exact .takesUp_asking hduty rfl hstep rfl rfl rfl rfl
  | ending start answer =>
    -- the step that closes the window
    refine .asks [.closed _ reading] (by rw [hduty]; rfl) fun n h => ?_
    rw [Primary.Counts, hduty] at h
    change n + x.warmups = p.loop.warmup.toNat + x.tally.forward.attempts + 0 at h
    show n + 1 + x.warmups = p.loop.warmup.toNat + x.tally.forward.attempts + 1
    omega

theorem Primary.sends (hneeds : p.needsReceivers = true) (hhosts : s.boxes.Hosts (p.link i)) :
    Primary.Sends p i r.cycles x s.boxes (x.step p i r s).1 (x.step p i r s).2.boxes := by
  have hpaired := RunPlan.not_paired hneeds
  have hlink : s.boxes.link i p.signalOffset p.payload = .ok (p.link i) :=
    hhosts.link_eq rfl
  have hwindow : p.windowDuty = .exchanging .starting := by simp [RunPlan.windowDuty, hneeds]
  obtain ⟨hprepared, hnone⟩ := Primary.prepared_asker hneeds x (p.link i)
  cases hduty : x.duty with
  | connecting =>
    have hstep : Primary.Sends p i r.cycles x s.boxes
        (if s.boxes.flag (p.link i).receiver then { x with duty := .choosing } else x) s.boxes := by
      split
      case isTrue hready =>
        have hconnects : (Duty.asker (p.link i) .connecting).step i p.signalOffset p.payload
            r.cycles s.boxes = (Duty.asker (p.link i) .choosing, s.boxes, []) := by
          simp [Duty.asker, Asker.step, hready]
        exact .takesUp_asking hduty rfl hconnects rfl rfl rfl rfl
      case isFalse => exact .rests rfl fun n h => h
    simpa only [Primary.step, hduty, hlink] using hstep
  | choosing =>
    simp only [Primary.step, hduty]
    exact Primary.choose_sends hpaired hduty _ _
  | clearing =>
    have hprepares : ∀ d' : Duty, d'.asker (p.link i) = .measuring (p.link i) .starting →
        (Duty.asker (p.link i) .clearing).step i p.signalOffset p.payload r.cycles s.boxes =
          (d'.asker (p.link i), s.boxes.write i 0, [.prepared]) := by
      intro d' hasker
      rw [hasker]
      rfl
    simp only [Primary.step, hduty, hneeds, if_true]
    split
    · exact .takesUp_asking hduty rfl (hprepares _ rfl) rfl rfl rfl rfl
    · exact .takesUp_asking hduty rfl (hprepares _ hprepared) rfl hnone rfl rfl
  | requesting q =>
    cases q with
    | ended number =>
      simp only [Primary.step, hduty]
      exact .takesUp hduty rfl hprepared hnone rfl rfl
    | _ =>
      simp only [Primary.step, hduty]
      exact .takesUp hduty rfl rfl rfl rfl rfl
  | opening =>
    simp only [Primary.step, hduty, hwindow, Shared.observe_boxes]
    exact .takesUp hduty rfl rfl rfl rfl rfl
  | starting | settling | recovering | announcing =>
    simp only [Primary.step, hduty]
    exact .takesUp hduty rfl rfl rfl rfl rfl
  | working start =>
    simp only [Primary.step, hduty]
    refine .rests (by rw [Primary.windowed_asker, hduty]; rfl) fun n h => ?_
    have hheld : Primary.Counts p Duty.closed { x with held := (x.operate p).2 } n := h
    exact hheld.windowed (by rw [hduty]; rfl) rfl rfl _
  | exchanging q =>
    cases q with
    | ended w =>
      simp only [Primary.step, hduty]
      exact .rests (by rw [Primary.windowed_asker, hduty]; rfl) fun n h =>
        h.windowed (by rw [hduty]; rfl) rfl rfl w
    | _ =>
      simp only [Primary.step, hduty]
      exact Primary.exchanging_sends hduty (by rintro _ ⟨⟩) _ _
  | closing =>
    simp only [Primary.step, hduty, Shared.observe_boxes, Primary.judge_single hneeds]
    -- the window that was ahead of the attempts is counted with them now
    refine .rests ?_ fun n h => h.judged (by rw [hduty]; rfl) _ (Verdict.duty_closed _)
    rw [hduty]
    exact Verdict.duty_asker _ _
  | restoring v =>
    simp only [Primary.step, hduty]
    exact .takesUp hduty rfl (v.duty_asker _) v.duty_closed rfl rfl
  | averaging start =>
    cases start <;> simp only [Primary.step, hduty] <;> exact .takesUp hduty rfl rfl rfl rfl rfl
  | leaving =>
    simp only [Primary.step, hduty]
    refine .finishes ?_ fun n h => h.congr rfl rfl ?_
    · rw [hduty]
      dsimp only
      split <;> rfl
    · rw [hduty]
      dsimp only
      split <;> rfl
  | ended =>
    simp only [Primary.step, hduty]
    exact .rests rfl fun n h => h

/-! ## To the core that flushes -/

/-- Where a primary's request stands. -/
def Duty.request : Duty → Request
  | .requesting q => q.next
  | _ => .starting

/-- How many requests the next step of one announces. -/
def Request.announcements : Request → Nat
  | .announcing _ => 1
  | _ => 0

/-- What a step of a primary is to the core that flushes: a step of a request, or nothing. -/
inductive Primary.Requests (p : RunPlan) (x : Primary) (h : Handshake) :
    Primary → Handshake → Prop
  | asks {x' : Primary} (hrequest : x'.duty.request = (x.duty.request.step h).1.next)
      (hasked : ∀ k, x.Counts p Duty.asked k → x'.Counts p Duty.asked
        (k + (x.duty.request.deed? (x.duty.request.step h).1).toList.countP Deed.returns)) :
      Requests p x h x' (x.duty.request.step h).2
  | rests {x' : Primary} (hrequest : x'.duty.request = x.duty.request)
      (hquiet : x.duty.request.announcements = 0)
      (hasked : ∀ k, x.Counts p Duty.asked k → x'.Counts p Duty.asked k) :
      Requests p x h x' h

/-- A primary takes up another duty, and the core that flushes learns nothing. -/
theorem Primary.Requests.takesUp {h : Handshake} {d d' : Duty} (hduty : x.duty = d)
    (hduty' : x'.duty = d') (hrequest : d'.request = d.request)
    (hquiet : d.request.announcements = 0) (hasked : d'.asked = d.asked)
    (hwarmups : x'.warmups = x.warmups)
    (hattempts : x'.tally.forward.attempts = x.tally.forward.attempts) :
    Primary.Requests p x h x' h := by
  subst hduty hduty'
  exact .rests hrequest hquiet fun k hk => hk.congr hwarmups hattempts hasked

theorem Primary.windowed_request (w : Window) : (x.windowed w).duty.request = .starting := by
  unfold Primary.windowed
  split <;> rfl

theorem Verdict.duty_request (v : Verdict) : v.duty.request = .starting := by
  unfold Verdict.duty
  split <;> rfl

theorem Verdict.duty_asked (v : Verdict) : v.duty.asked = 0 := by
  unfold Verdict.duty
  split <;> rfl

theorem Primary.prepared_request (x : Primary) (p : RunPlan) :
    (x.prepared p).duty.request = .starting ∧ (x.prepared p).duty.asked = 1 := by
  unfold Primary.prepared RunPlan.windowDuty
  split_ifs <;> exact ⟨rfl, rfl⟩

theorem Primary.requesting_requests {q : Request} (hduty : x.duty = .requesting q)
    (hq : ∀ k, q ≠ .ended k) (h : Handshake) :
    Primary.Requests p x h { x with duty := .requesting (q.step h).1 } (q.step h).2 := by
  have hrequest : x.duty.request = q := by
    rw [hduty]
    cases q with
    | ended k => exact absurd rfl (hq k)
    | _ => rfl
  rw [← hrequest]
  refine .asks rfl fun k hk => ?_
  rw [hrequest]
  rw [Primary.Counts, hduty] at hk
  simp only [Primary.Counts]
  cases q with
  | ended k => exact absurd rfl (hq k)
  | starting | announcing number => exact hk
  | waiting number =>
    by_cases hpending : h.completed < number
    · rw [Request.step_waiting hpending]
      exact hk
    · -- the step that returns
      rw [Request.step_returning hpending]
      change k + x.warmups = p.loop.warmup.toNat + x.tally.forward.attempts + 0 at hk
      show k + 1 + x.warmups = p.loop.warmup.toNat + x.tally.forward.attempts + 1
      omega

theorem Primary.requests (hresponse : p.workload = .response) :
    Primary.Requests p x s.handshake (x.step p i r s).1 (x.step p i r s).2.handshake := by
  have hneeds := RunPlan.needsReceivers_of_response hresponse
  have hpaired := RunPlan.not_paired hneeds
  have hwindow : p.windowDuty = .exchanging .starting := by simp [RunPlan.windowDuty, hneeds]
  cases hduty : x.duty with
  | connecting =>
    simp only [Primary.step, hduty]
    split
    · exact .takesUp hduty rfl rfl rfl rfl rfl rfl
    · split
      · exact .takesUp hduty rfl rfl rfl rfl rfl rfl
      · exact .rests rfl (by rw [hduty]; rfl) fun k hk => hk
  | choosing =>
    simp only [Primary.step, hduty, Primary.choose, hpaired, Bool.false_eq_true, if_false]
    split_ifs <;> exact .takesUp hduty rfl rfl rfl rfl rfl rfl
  | clearing =>
    simp only [Primary.step, hduty, hneeds, hresponse, if_true]
    exact .takesUp hduty rfl rfl rfl rfl rfl rfl
  | requesting q =>
    cases q with
    | ended number =>
      obtain ⟨hrequest, hasked⟩ := Primary.prepared_request x p
      simp only [Primary.step, hduty]
      exact .takesUp hduty rfl hrequest rfl hasked rfl rfl
    | _ =>
      simp only [Primary.step, hduty]
      exact Primary.requesting_requests hduty (by rintro _ ⟨⟩) _
  | opening =>
    simp only [Primary.step, hduty, hwindow, Shared.observe_handshake]
    exact .takesUp hduty rfl rfl rfl rfl rfl rfl
  | starting | settling | recovering | announcing =>
    simp only [Primary.step, hduty]
    exact .takesUp hduty rfl rfl rfl rfl rfl rfl
  | working start =>
    simp only [Primary.step, hduty]
    refine .rests (by rw [Primary.windowed_request, hduty]; rfl) (by rw [hduty]; rfl)
      fun k hk => ?_
    have hheld : Primary.Counts p Duty.asked { x with held := (x.operate p).2 } k := hk
    exact hheld.windowed (by rw [hduty]; rfl) rfl rfl _
  | exchanging q =>
    cases q with
    | ended w =>
      simp only [Primary.step, hduty]
      exact .rests (by rw [Primary.windowed_request, hduty]; rfl) (by rw [hduty]; rfl) fun k hk =>
        hk.windowed (by rw [hduty]; rfl) rfl rfl w
    | _ =>
      simp only [Primary.step, hduty]
      exact .takesUp hduty rfl rfl rfl rfl rfl rfl
  | closing =>
    simp only [Primary.step, hduty, Shared.observe_handshake, Primary.judge_single hneeds]
    refine .rests ?_ (by rw [hduty]; rfl) fun k hk =>
      hk.judged (by rw [hduty]; rfl) _ (Verdict.duty_asked _)
    rw [hduty]
    exact Verdict.duty_request _
  | restoring v =>
    simp only [Primary.step, hduty]
    exact .takesUp hduty rfl v.duty_request rfl v.duty_asked rfl rfl
  | averaging start =>
    cases start <;> simp only [Primary.step, hduty] <;> exact .takesUp hduty rfl rfl rfl rfl rfl rfl
  | leaving =>
    simp only [Primary.step, hduty]
    refine .rests ?_ (by rw [hduty]; rfl) fun k hk => hk.congr rfl rfl ?_
    · rw [hduty]
      dsimp only
      split <;> rfl
    · rw [hduty]
      dsimp only
      split <;> rfl
  | ended =>
    simp only [Primary.step, hduty]
    exact .rests rfl (by rw [hduty]; rfl) fun k hk => hk

end LatencyGauge
