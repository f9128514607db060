/-
Where a core of a role can be, and what one of its steps does from there. A step before the start
barrier is one of the core's gate; a step at work is one of the machine that the role names; the
step after the last gives away what the machine has counted. A core without an error stays without
one.
-/
import LatencyGauge.Host.Machine
import LatencyGauge.Proofs.Host.Partners

namespace LatencyGauge

variable {p : RunPlan} {i : Nat} {r : Reading} {s : Shared} {pos : Position}

/-! ## Positions of a role -/

/-- Where a primary core is, and its primary, which is in order. -/
inductive Position.Measures (p : RunPlan) (i : Nat) : Position → Primary → Prop
  | before (g : Gate) : Measures p i (.entering g) (.start p)
  | during {x : Primary} (h : x.Fit p) : Measures p i (.measuring x) x
  | after {x : Primary} (h : x.Fit p) (hended : x.duty = .ended) :
      Measures p i (.exited (.ok (.measured (x.measurement p i)))) x

/-- Where the receiver of a link is, and what it is to its sender. -/
inductive Position.Serves (l : Link) : Position → Answerer → Prop
  | binding : Serves l (.binding l.sender) .outside
  | marking : Serves l (.marking l) (.marking l)
  | before (g : Gate) : Serves l (.entering g) (.serving l .fresh)
  | during (x : Receiver) : Serves l (.answering l x) (.serving l x)
  | after (k : Nat) : Serves l (.exited (.ok (.served (.ofNat k)))) (.serving l ⟨.ended, k⟩)

inductive Position.Flushes : Position → Flusher → Prop
  | before (g : Gate) : Flushes (.entering g) .fresh
  | during (f : Flusher) : Flushes (.flushing f) f
  | after (k : Nat) : Flushes (.exited (.ok (.flushed (.ofNat k)))) ⟨.ended, k⟩

inductive Position.Loads : Position → Prop
  | before (g : Gate) : Loads (.entering g)
  | noting : Loads .noting
  | during {l : Load} (x : Round) (h : ∀ e, l.next = .edge e → e.over = false) :
      Loads (.interfering l x)
  | after (n : Rounds) : Loads (.exited (.ok (.interfered n)))

inductive Position.Idles : Position → Prop
  | before (g : Gate) : Idles (.entering g)
  | during : Idles .idling
  | after : Idles (.exited (.ok .idle))

/-- Where a core of a role can be. -/
inductive Position.Fills (p : RunPlan) (i : Nat) : Role → Position → Prop
  | primary {pos : Position} {x : Primary} (h : pos.Measures p i x) : Fills p i .primary pos
  | receiver {pos : Position} {a : Answerer} {sender : UInt64}
      (h : pos.Serves (p.link sender.toNat) a) : Fills p i (.receiver sender) pos
  | flusher {pos : Position} {f : Flusher} (h : pos.Flushes f) : Fills p i .flusher pos
  | interferer {pos : Position} (h : pos.Loads) : Fills p i .interferer pos
  | idle {pos : Position} (h : pos.Idles) : Fills p i .idle pos
  | lost {role : Role} : Fills p i role .lost

theorem Position.fills_opening (p : RunPlan) (i : Nat) (role : Role) :
    role.opening.Fills p i role := by
  cases role with
  | primary => exact .primary (.before .outside)
  | receiver sender => exact .receiver .binding
  | flusher => exact .flusher (.before .outside)
  | interferer => exact .interferer (.before .outside)
  | idle => exact .idle (.before .outside)

section Fills

theorem Position.Fills.measures (h : pos.Fills p i .primary) :
    pos = .lost ∨ ∃ x, pos.Measures p i x := by
  cases h with
  | primary h => exact .inr ⟨_, h⟩
  | lost => exact .inl rfl

theorem Position.Fills.serves {sender : UInt64} (h : pos.Fills p i (.receiver sender)) :
    pos = .lost ∨ ∃ a, pos.Serves (p.link sender.toNat) a := by
  cases h with
  | receiver h => exact .inr ⟨_, h⟩
  | lost => exact .inl rfl

theorem Position.Fills.flushes (h : pos.Fills p i .flusher) :
    pos = .lost ∨ ∃ f, pos.Flushes f := by
  cases h with
  | flusher h => exact .inr ⟨_, h⟩
  | lost => exact .inl rfl

theorem Position.Fills.loads (h : pos.Fills p i .interferer) : pos = .lost ∨ pos.Loads := by
  cases h with
  | interferer h => exact .inr h
  | lost => exact .inl rfl

theorem Position.Fills.idles (h : pos.Fills p i .idle) : pos = .lost ∨ pos.Idles := by
  cases h with
  | idle h => exact .inr h
  | lost => exact .inl rfl

end Fills

/-! ## Gates -/

/-- Where a core stands with respect to the start barrier. -/
def Position.gate : Position → Gate
  | .binding _ | .marking _ => .outside
  | .entering g => g
  | _ => .inside

theorem Role.work_gate (role : Role) : (role.work p).gate = .inside := by
  cases role <;> rfl

/-- What a step does that is one of a gate or none at all. -/
structure Position.Passes (p : RunPlan) (pos : Position) (s : Shared) (pos' : Position)
    (s' : Shared) : Prop where
  gate : pos.gate.step p.cores s.barrier = (pos'.gate, s'.barrier)
  shared : s' = { s with barrier := s'.barrier }

theorem Position.Passes.still {pos' : Position} (hgate : pos.gate = .inside)
    (hgate' : pos'.gate = .inside) : pos.Passes p s pos' s where
  gate := by
    rw [hgate, hgate']
    rfl
  shared := rfl

/-- A step of a core that has not begun its work. -/
theorem Position.step_entering (g : Gate) :
    (entering g).Passes p s ((entering g).step p i r s).1 ((entering g).step p i r s).2 ∧
      (((entering g).step p i r s).1 = (Role.assign p i).work p ∨
        ∃ g', ((entering g).step p i r s).1 = entering g') := by
  cases g with
  | inside => exact ⟨.still rfl (Role.work_gate _), .inl rfl⟩
  | outside | waiting => exact ⟨⟨rfl, rfl⟩, .inr ⟨_, rfl⟩⟩

/-! ## Ends -/

/-- Whether a primary core has not finished yet; the last one finishes when it has announced
completion. -/
def Position.pending : Position → Nat
  | .binding _ | .marking _ | .entering _ => 1
  | .measuring x => if x.duty = .ended then 0 else 1
  | _ => 0

/-- Whether a primary core is about to announce completion. -/
def Position.announcing : Position → Bool
  | .measuring x => x.duty = .announcing
  | _ => false

/-- Whether a core that is no primary has come to the end of its work. -/
def Position.ending : Position → Bool
  | .answering _ x => x.next = .ended
  | .flushing f => f.next = .ended
  | .interfering l _ => l.next = .ended
  | .exited _ => true
  | _ => false

/-- How many requests the next step of a core announces. -/
def Position.requests : Position → Nat
  | .measuring x =>
    match x.duty with
    | .requesting (.announcing _) => 1
    | _ => 0
  | _ => 0

theorem Position.requests_measuring (x : Primary) :
    (measuring x).requests = x.duty.request.announcements := by
  cases hduty : x.duty with
  | requesting q => cases q <;> simp [Position.requests, hduty, Duty.request, Request.next,
      Request.announcements]
  | _ => simp [Position.requests, hduty, Duty.request, Request.announcements]

theorem Primary.start_duty (p : RunPlan) :
    (Primary.start p).duty = .connecting ∨ (Primary.start p).duty = .choosing := by
  unfold Primary.start
  dsimp only
  split
  · exact .inl rfl
  · exact .inr rfl

theorem Position.Measures.pending_eq {x : Primary} (h : pos.Measures p i x) :
    pos.pending = if x.duty = .ended then 0 else 1 := by
  cases h with
  | before g => rcases Primary.start_duty p with hd | hd <;> rw [hd] <;> rfl
  | during => rfl
  | after h hended => rw [hended]; rfl

theorem Position.Measures.announcing_eq {x : Primary} (h : pos.Measures p i x) :
    pos.announcing = decide (x.duty = .announcing) := by
  cases h with
  | before g => rcases Primary.start_duty p with hd | hd <;> rw [hd] <;> rfl
  | during => rfl
  | after h hended => rw [hended]; rfl

theorem Position.Serves.ending_iff {l : Link} {a : Answerer} (h : pos.Serves l a) :
    pos.ending = true ↔ ∃ k, a = .serving l ⟨.ended, k⟩ := by
  cases h with
  | during x =>
    obtain ⟨next, served⟩ := x
    simp [Position.ending]
  | binding | marking | before | after => simp [Position.ending, Receiver.fresh]

theorem Position.Flushes.ending_iff {f : Flusher} (h : pos.Flushes f) :
    pos.ending = true ↔ f.next = .ended := by
  cases h <;> simp [Position.ending, Flusher.fresh]

/-! ## Steps of the roles -/

theorem Position.step_measuring {x : Primary} (hended : x.duty ≠ .ended) :
    (measuring x).step p i r s = (.measuring (x.step p i r s).1, (x.step p i r s).2) :=
  if_neg hended

theorem Position.step_answering {l : Link} {x : Receiver} (hended : x.next ≠ .ended) :
    (answering l x).step p i r s =
      (.answering l (x.step l s.done.isSet r.cycles s.boxes).1,
        { s with boxes := (x.step l s.done.isSet r.cycles s.boxes).2 }) := if_neg hended

theorem Position.step_flushing {q : Flusher} (hended : q.next ≠ .ended) :
    ∃ lines, (flushing q).step p i r s = (.flushing (q.step s.done.isSet s.handshake).1,
      { s with handshake := (q.step s.done.isSet s.handshake).2, lines := lines }) := by
  simp only [Position.step, hended, if_false]
  split
  · exact ⟨_, rfl⟩
  · exact ⟨_, rfl⟩

/-- A step of a primary core. -/
theorem Position.Measures.step {x : Primary} (h : pos.Measures p i x)
    (hrole : Role.assign p i = .primary)
    (hhosts : p.needsReceivers = true → s.boxes.Hosts (p.link i)) :
    (pos.Passes p s (pos.step p i r s).1 (pos.step p i r s).2 ∧ pos.requests = 0 ∧
        (pos.step p i r s).1.Measures p i x) ∨
      (pos = .measuring x ∧ x.duty ≠ .ended ∧
        pos.step p i r s = (.measuring (x.step p i r s).1, (x.step p i r s).2) ∧
        (x.step p i r s).1.Fit p) := by
  cases h with
  | before g =>
    obtain ⟨hpasses, hwork | ⟨g', hg'⟩⟩ := Position.step_entering (p := p) (i := i) g
    · refine .inl ⟨hpasses, rfl, ?_⟩
      rw [hwork, hrole]
      exact .during (Primary.fit_start p)
    · exact .inl ⟨hpasses, rfl, hg' ▸ .before g'⟩
  | during h =>
    by_cases hended : x.duty = .ended
    · -- without a fault its result is its measurement
      have hstep : (measuring x).step p i r s = (.exited (x.result p i), s) := if_pos hended
      rw [hstep, Primary.result, h.fault]
      exact .inl ⟨.still rfl rfl, by rw [Position.requests_measuring, hended]; rfl, .after h hended⟩
    · exact .inr ⟨rfl, hended, Position.step_measuring hended, h.step hhosts⟩
  | after h hended => exact .inl ⟨.still rfl rfl, rfl, .after h hended⟩

theorem Receiver.step_touched (l : Link) (done : Bool) (reading : Cycles) (m : Mailboxes)
    (x : Receiver) : m.Touched l (x.step l done reading m).2 := by
  obtain ⟨next, served⟩ := x
  cases next with
  | taking =>
    simp only [Receiver.step]
    split
    · exact .nothing
    · exact .request 0
  | posting answer => exact .reply answer
  | answering | asking | ended => exact .nothing

/-- A step of the receiver of a link. -/
theorem Position.Serves.step {l : Link} {a : Answerer} (h : pos.Serves l a)
    (hrole : (Role.assign p i).work p = .answering l .fresh) (hhosts : s.boxes.Hosts l)
    (hl : (UInt64.ofNat l.sender + p.signalOffset).toNat = l.receiver)
    (hpayload : l.payload = p.payload) :
    (pos.Passes p s (pos.step p i r s).1 (pos.step p i r s).2 ∧
        (pos.step p i r s).1.Serves l a) ∨
      (∃ boxes entries a',
        a.step l.sender p.signalOffset l.payload s.done.isSet r.cycles s.boxes =
          (a', boxes, entries) ∧
        (pos.step p i r s).2 = { s with boxes := boxes } ∧ s.boxes.Touched l boxes ∧
        (pos.step p i r s).1.gate = pos.gate ∧ (pos.step p i r s).1.Serves l a') := by
  cases h with
  | binding =>
    right
    have hstep : (Position.binding l.sender).step p i r s =
        (Position.marking l, { s with boxes := s.boxes.write l.receiver 0 }) := by
      simp only [Position.step, ← hpayload, hhosts.claim_eq hl]
    rw [hstep]
    refine ⟨s.boxes.write l.receiver 0, [], .marking l, ?_, rfl, .request 0, rfl, .marking⟩
    simp only [Answerer.step, hhosts.claim_eq hl]
  | marking =>
    right
    have hstep : (Position.marking l).step p i r s =
        (Position.entering .outside, { s with boxes := s.boxes.raise l.receiver }) := by
      simp only [Position.step, hhosts.markReady_eq]
    rw [hstep]
    refine ⟨s.boxes.raise l.receiver, [], .serving l .fresh, ?_, rfl, .ready, rfl, .before .outside⟩
    simp only [Answerer.step, hhosts.markReady_eq]
  | before g =>
    obtain ⟨hpasses, hwork | ⟨g', hg'⟩⟩ := Position.step_entering (p := p) (i := i) g
    · refine .inl ⟨hpasses, ?_⟩
      rw [hwork, hrole]
      exact .during .fresh
    · exact .inl ⟨hpasses, hg' ▸ .before g'⟩
  | during x =>
    by_cases hended : x.next = .ended
    · have hstep : (answering l x).step p i r s =
          (.exited (.ok (.served (.ofNat x.served))), s) := if_pos hended
      obtain ⟨next, served⟩ := x
      obtain rfl : next = .ended := hended
      rw [hstep]
      exact .inl ⟨.still rfl rfl, .after served⟩
    · rw [Position.step_answering hended]
      exact .inr ⟨_, _, _, rfl, rfl, Receiver.step_touched .., rfl, .during _⟩
  | after k => exact .inl ⟨.still rfl rfl, .after k⟩

/-- A step of the core that flushes. -/
theorem Position.Flushes.step {f : Flusher} (h : pos.Flushes f)
    (hrole : Role.assign p i = .flusher) :
    (pos.Passes p s (pos.step p i r s).1 (pos.step p i r s).2 ∧
        (pos.step p i r s).1.Flushes f) ∨
      (pos = .flushing f ∧ f.next ≠ .ended ∧
        (pos.step p i r s).1 = .flushing (f.step s.done.isSet s.handshake).1 ∧
        ∃ lines, (pos.step p i r s).2 =
          { s with handshake := (f.step s.done.isSet s.handshake).2, lines := lines }) := by
  cases h with
  | before g =>
    obtain ⟨hpasses, hwork | ⟨g', hg'⟩⟩ := Position.step_entering (p := p) (i := i) g
    · refine .inl ⟨hpasses, ?_⟩
      rw [hwork, hrole]
      exact .during .fresh
    · exact .inl ⟨hpasses, hg' ▸ .before g'⟩
  | during =>
    by_cases hended : f.next = .ended
    · have hstep : (flushing f).step p i r s =
          (.exited (.ok (.flushed (.ofNat f.served))), s) := if_pos hended
      obtain ⟨next, served⟩ := f
      obtain rfl : next = .ended := hended
      rw [hstep]
      exact .inl ⟨.still rfl rfl, .after served⟩
    · obtain ⟨lines, hstep⟩ := Position.step_flushing (p := p) (i := i) (r := r) (s := s) hended
      rw [hstep]
      exact .inr ⟨rfl, hended, rfl, lines, rfl⟩
  | after k => exact .inl ⟨.still rfl rfl, .after k⟩

/-- A wait for an edge goes on as long as it is not over, and leaves the world as it is. -/
theorem RunPlan.interferer_edge (p : RunPlan) (e : EdgeWait) (w : Round × Shared) :
    (EdgeWait.step p.interferer.observe p.interferer.done (e, w)).2 = w := by
  cases e with
  | starting => rfl
  | observing first => rfl
  | asking first => rfl
  | ended e => rfl

theorem Interferer.afterEdge_waits {W : Type} {i : Interferer W} {e e' : EdgeWait}
    (h : i.afterEdge e = .edge e') : e'.over = false := by
  cases e with
  | ended edge =>
    cases edge with
    | none => cases h
    | some t =>
      simp only [Interferer.afterEdge] at h
      split at h <;> cases h
  | starting | observing | asking =>
    cases h
    rfl

theorem Interferer.afterEdge_ended {W : Type} {i : Interferer W} {e : EdgeWait}
    (h : i.afterEdge e = .ended) : e = .ended none := by
  cases e with
  | ended edge =>
    cases edge with
    | none => rfl
    | some t =>
      simp only [Interferer.afterEdge] at h
      split at h <;> cases h
  | starting | observing | asking => cases h

/-- A wait for an edge ends without one only if the flag is set. -/
theorem RunPlan.interferer_edge_none (p : RunPlan) {e : EdgeWait} {w : Round × Shared}
    (hwaits : e.over = false)
    (h : (EdgeWait.step p.interferer.observe p.interferer.done (e, w)).1 = .ended none) :
    w.2.done.isSet = true := by
  cases e with
  | starting => cases h
  | observing first =>
    simp only [EdgeWait.step] at h
    split at h <;> cases h
  | asking first =>
    simp only [EdgeWait.step, RunPlan.interferer] at h
    split at h
    case isTrue hset => exact hset
    case isFalse => cases h
  | ended => cases hwaits

/-- An interferer touches nothing that is shared; its waits that are over are forgotten; and it ends
only if the flag is set. -/
theorem RunPlan.interferer_step (p : RunPlan) (l : Load) (x : Round) (s : Shared) :
    (p.interferer.step (l, x, s)).2.2 = s ∧
      ((∀ e, l.next = .edge e → e.over = false) →
        (∀ e, (p.interferer.step (l, x, s)).1.next = .edge e → e.over = false) ∧
        ((p.interferer.step (l, x, s)).1.next = .ended →
          l.next = .ended ∨ s.done.isSet = true)) := by
  obtain ⟨next, rounds, failures⟩ := l
  cases next with
  | asking =>
    have hnext : (p.interferer.step (⟨.asking, rounds, failures⟩, x, s)).1.next =
        if s.done.isSet then .ended else .working := rfl
    refine ⟨rfl, fun _ => ?_⟩
    rw [hnext]
    cases s.done.isSet with
    | true => exact ⟨nofun, fun _ => .inr rfl⟩
    | false => exact ⟨nofun, nofun⟩
  | working =>
    by_cases hresponse : p.workload = .response
    · simp only [Interferer.step, RunPlan.interferer, hresponse, if_true]
      cases hround : x.step s.done.isSet s.handshake with
      | mk code x' =>
        cases code with
        | none => exact ⟨rfl, fun _ => ⟨nofun, nofun⟩⟩
        | some code => exact ⟨rfl, fun _ => ⟨fun e he => by cases he; rfl, nofun⟩⟩
    · simp only [Interferer.step, RunPlan.interferer, hresponse, if_false]
      exact ⟨trivial, fun _ => ⟨fun e he => by cases he; rfl, nofun⟩⟩
  | edge e =>
    refine ⟨congrArg Prod.snd (p.interferer_edge e (x, s)), fun hwaits =>
      ⟨fun e' he' => Interferer.afterEdge_waits he', fun hended => .inr ?_⟩⟩
    exact p.interferer_edge_none (hwaits e rfl) (Interferer.afterEdge_ended hended)
  | pausing => exact ⟨rfl, fun _ => ⟨nofun, nofun⟩⟩
  | ended => exact ⟨rfl, fun h => ⟨h, fun _ => .inl rfl⟩⟩

/-- A step of an interferer. -/
theorem Position.Loads.step (h : pos.Loads) (hrole : Role.assign p i = .interferer) :
    pos.Passes p s (pos.step p i r s).1 (pos.step p i r s).2 ∧
      (pos.step p i r s).1.Loads ∧
      ((pos.step p i r s).1.ending = true → pos.ending = true ∨ s.done.isSet = true) := by
  cases h with
  | before g =>
    obtain ⟨hpasses, hwork | ⟨g', hg'⟩⟩ := Position.step_entering (p := p) (i := i) g
    · refine ⟨hpasses, ?_⟩
      rw [hwork, hrole]
      exact ⟨.noting, nofun⟩
    · exact ⟨hpasses, hg' ▸ .before g', by rw [hg']; exact nofun⟩
  | noting => exact ⟨.still rfl rfl, .during _ nofun, nofun⟩
  | @during l x h =>
    by_cases hended : l.next = .ended
    · have hstep : (interfering l x).step p i r s =
          (.exited (.ok (.interfered ⟨.ofNat l.rounds, .ofNat l.failures⟩)), s) := if_pos hended
      rw [hstep]
      exact ⟨.still rfl rfl, .after _, fun _ => .inl (decide_eq_true hended)⟩
    · have hstep : (interfering l x).step p i r s =
          (.interfering (p.interferer.step (l, x, s)).1 (p.interferer.step (l, x, s)).2.1,
            (p.interferer.step (l, x, s)).2.2) := if_neg hended
      obtain ⟨hshared, hkeeps⟩ := p.interferer_step l x s
      obtain ⟨hwaits, hends⟩ := hkeeps h
      rw [hstep, hshared]
      exact ⟨.still rfl rfl, .during _ hwaits, fun hending =>
        .inr ((hends (of_decide_eq_true hending)).resolve_left hended)⟩
  | after n => exact ⟨.still rfl rfl, .after n, fun _ => .inl rfl⟩

/-- A step of a core that idles. -/
theorem Position.Idles.step (h : pos.Idles) (hrole : Role.assign p i = .idle) :
    pos.Passes p s (pos.step p i r s).1 (pos.step p i r s).2 ∧
      (pos.step p i r s).1.Idles ∧
      ((pos.step p i r s).1.ending = true → pos.ending = true ∨ s.done.isSet = true) := by
  cases h with
  | before g =>
    obtain ⟨hpasses, hwork | ⟨g', hg'⟩⟩ := Position.step_entering (p := p) (i := i) g
    · refine ⟨hpasses, ?_⟩
      rw [hwork, hrole]
      exact ⟨.during, nofun⟩
    · exact ⟨hpasses, hg' ▸ .before g', by rw [hg']; exact nofun⟩
  | during =>
    have hstep : idling.step p i r s =
        (if s.done.isSet then .exited (.ok .idle) else .idling, s) := rfl
    rw [hstep]
    cases s.done.isSet with
    | true => exact ⟨.still rfl rfl, .after, fun _ => .inr rfl⟩
    | false => exact ⟨.still rfl rfl, .during, nofun⟩
  | after => exact ⟨.still rfl rfl, .after, fun _ => .inl rfl⟩

end LatencyGauge
