/-
Nobody waits in vain for ever. Once the flag is set every core goes on; while it is clear some core
does: one that has not passed the start barrier, a primary that has not finished, or else the
receiver or the core that flushes for which this primary waits.
-/
import LatencyGauge.Proofs.Host.Ending
import LatencyGauge.Proofs.Host.Pace

namespace LatencyGauge

open Function

variable {p : RunPlan} {m : Machine} {n i : Nat} {r : Reading} {s : Shared}
  {f : Nat → Position} {pos : Position}

/-! ## Before the start barrier -/

/-- How far a core is on its way to its work. -/
def Position.stage : Position → Nat
  | .binding _ => 0
  | .marking _ => 1
  | .entering .outside => 2
  | .entering (.waiting _) => 3
  | .entering .inside => 4
  | _ => 5

theorem Role.work_stage (role : Role) : (role.work p).stage = 5 := by
  cases role <;> rfl

/-- No step goes back before the start barrier, and the only one that does not go on is a look at a
barrier that is closed. -/
theorem Position.step_stage (pos : Position) :
    pos.stage < (pos.step p i r s).1.stage ∨
      ((pos.step p i r s).1.stage = pos.stage ∧
        (pos.stage = 5 ∨ ∃ release, pos = .entering (.waiting release) ∧
          ¬ release ≤ s.barrier.arrivals)) := by
  cases pos with
  | binding sender =>
    left
    simp only [Position.step]
    split <;> simp [Position.stage]
  | marking l =>
    left
    simp only [Position.step]
    split <;> simp [Position.stage]
  | entering g =>
    cases g with
    | outside => exact .inl (by decide : 2 < 3)
    | waiting release =>
      by_cases hreached : release ≤ s.barrier.arrivals
      · left
        simp [Position.step, Gate.step, Barrier.reached, hreached, Position.stage]
      · right
        refine ⟨?_, .inr ⟨release, rfl, hreached⟩⟩
        simp [Position.step, Gate.step, Barrier.reached, hreached]
    | inside =>
      left
      show 4 < ((Role.assign p i).work p).stage
      rw [Role.work_stage]
      decide
  | measuring | answering | flushing | interfering | idling =>
    right
    simp only [Position.step]
    split <;> exact ⟨rfl, .inl rfl⟩
  | noting | exited | lost => exact .inr ⟨rfl, .inl rfl⟩

/-- A core that has not begun its work does not wait in vain, unless the barrier is closed. -/
theorem Machine.Runs.not_inVain_stage (h : m.Runs p) (hi : i < p.cores.toNat)
    (hstage : (m.position i).stage ≠ 5)
    (hopen : ∀ release, m.position i = .entering (.waiting release) →
      release ≤ m.shared.barrier.arrivals) : ¬ m.InVain i := by
  refine Machine.not_inVain_of_step
    (fun m' => m'.Runs p ∧ (m.position i).stage < (m'.position i).stage) ?_ (fun r => ?_)
    fun hless => Nat.lt_irrefl _ hless.2
  · rintro m' r ⟨hruns, hless⟩
    refine ⟨hruns.step _, ?_⟩
    rw [(hruns.step_core hi r).2]
    rcases Position.step_stage (p := p) (i := i) (r := r) (s := m'.shared) (m'.position i) with
      hmore | ⟨hsame, -⟩
    · exact hless.trans hmore
    · rwa [hsame]
  · refine ⟨h.step _, ?_⟩
    rw [(h.step_core hi r).2]
    rcases Position.step_stage (p := p) (i := i) (r := r) (s := m.shared) (m.position i) with
      hmore | ⟨-, hwork | ⟨release, hwait, hclosed⟩⟩
    · exact hmore
    · exact absurd hwork hstage
    · exact absurd (hopen release hwait) hclosed

/-- While some core has not begun its work such a core goes on. -/
theorem Machine.Well.moves_entering (h : m.Well p n) (hi : i < p.cores.toNat)
    (hstage : (m.position i).stage ≠ 5) :
    ∃ j < p.cores.toNat, ¬ m.InVain j ∧ (m.position j).stage ≠ 5 := by
  have hgates := h.sound.formed.gates
  by_cases hout : ∃ j < p.cores.toNat, (m.position j).gate = .outside
  · obtain ⟨j, hj, hgate⟩ := hout
    have hearly : (m.position j).stage ≠ 5 := fun hfive => by
      generalize m.position j = pos at hgate hfive
      cases pos with
      | entering g =>
        change g = _ at hgate
        rw [hgate] at hfive
        cases hfive
      | binding | marking => cases hfive
      | measuring | answering | flushing | noting | interfering | idling | exited | lost =>
        cases hgate
    refine ⟨j, hj, h.runs.not_inVain_stage hj hearly fun release hwait => ?_, hearly⟩
    rw [hwait] at hgate
    cases hgate
  · -- all have arrived, so the barrier is open
    have hfull := hgates.full fun j hj hgate => hout ⟨j, hj, hgate⟩
    refine ⟨i, hi, h.runs.not_inVain_stage hi hstage fun release hwait => ?_, hstage⟩
    have hrelease : release = p.cores := hgates.waits i hi release (by
      rw [comp_apply, hwait]
      rfl)
    rw [hfull, hrelease]
    exact UInt64.le_refl _

/-! ## At work -/

/-- Where a primary is that does not wait, or has gone further. -/
theorem Machine.Runs.not_inVain_primary (h : m.Runs p) (hi : i < p.cores.toNat) {x : Primary}
    (hx : m.position i = .measuring x) (hended : x.duty ≠ .ended)
    (hgoes : ¬ x.Waits p i m.shared) : ¬ m.InVain i := by
  refine Machine.not_inVain_of_step (fun m' => m'.Runs p ∧
    ((∃ y, m'.position i = .measuring y ∧ x.pace < y.pace) ∨
      (m'.position i).over = true)) ?_ (fun r => ?_) ?_
  · rintro m' r ⟨hruns, ⟨y, hy, hless⟩ | hover⟩
    · refine ⟨hruns.step _, ?_⟩
      rw [(hruns.step_core hi r).2, hy]
      by_cases hlast : y.duty = .ended
      · right
        simp [Position.step, hlast, Position.over]
      · left
        rw [Position.step_measuring hlast]
        refine ⟨(y.step p i r m'.shared).1, rfl, ?_⟩
        rcases Primary.step_pace (p := p) (i := i) (r := r) (x := y) (s := m'.shared) with
          hmore | ⟨hsame, -⟩
        · exact hless.trans hmore
        · rwa [hsame]
    · exact ⟨hruns.step _, .inr (Machine.step_over hover r)⟩
  · refine ⟨h.step _, .inl ⟨(x.step p i r m.shared).1, ?_, ?_⟩⟩
    · rw [(h.step_core hi r).2, hx]
      rw [Position.step_measuring hended]
    · rcases Primary.step_pace (p := p) (i := i) (r := r) (x := x) (s := m.shared) with
        hmore | ⟨-, hlast | hwaits⟩
      · exact hmore
      · exact absurd hlast hended
      · exact absurd hwaits hgoes
  · rintro ⟨-, ⟨y, hy, hless⟩ | hover⟩
    · rw [hx] at hy
      cases hy
      exact Int.lt_irrefl _ hless
    · rw [hx] at hover
      cases hover

/-- A receiver or a core that flushes serves, and goes on to. -/
def Position.Serving (s : Shared) : Position → Prop
  | .answering _ x => x.next ≠ .ended ∧ s.done.isSet = false
  | .flushing q => q.next ≠ .ended ∧ s.done.isSet = false
  | _ => False

/-- What it has served. -/
def Position.served : Position → Nat
  | .answering _ x => x.served
  | .flushing q => q.served
  | _ => 0

/-- Whether there is something for it to serve. -/
def Position.Pending (s : Shared) : Position → Prop
  | .answering l x =>
    match x.next with
    | .taking | .asking => s.boxes.peek l.receiver ≠ 0
    | _ => True
  | .flushing q =>
    match q.next with
    | .looking | .comparing _ | .asking => s.handshake.completed < s.handshake.requested
    | _ => True
  | _ => False

theorem Position.pending_flushing {q : Flusher}
    (hless : s.handshake.completed < s.handshake.requested) : (flushing q).Pending s := by
  obtain ⟨next, served⟩ := q
  cases next <;> first | exact hless | trivial

/-- How many steps it takes before the one that serves, at most. -/
def Position.lag (s : Shared) : Position → Nat
  | .answering _ x => x.next.lag
  | .flushing q => q.next.lag s.handshake.completed
  | _ => 0

/-- A step of a core that serves: it serves on, and with something to serve it gets closer. -/
theorem Position.Serving.step (h : pos.Serving s) :
    (pos.step p i r s).1.Serving (pos.step p i r s).2 ∧
      pos.served ≤ (pos.step p i r s).1.served ∧
      (pos.Pending s → pos.served < (pos.step p i r s).1.served ∨
        ((pos.step p i r s).1.Pending (pos.step p i r s).2 ∧
          (pos.step p i r s).1.lag (pos.step p i r s).2 < pos.lag s)) := by
  cases pos with
  | answering l x =>
    obtain ⟨hended, hclear⟩ := h
    rw [Position.step_answering hended, hclear]
    obtain ⟨next, served⟩ := x
    cases next with
    | taking =>
      by_cases hempty : s.boxes.peek l.receiver = 0
      · simp only [Receiver.step, hempty, if_true]
        exact ⟨⟨by rintro ⟨⟩, hclear⟩, Nat.le_refl _, fun hpending => absurd hempty hpending⟩
      · simp only [Receiver.step, hempty, if_false]
        exact ⟨⟨by rintro ⟨⟩, hclear⟩, Nat.le_refl _, fun _ => .inr ⟨trivial, (by decide : 1 < 2)⟩⟩
    | answering => exact ⟨⟨by rintro ⟨⟩, hclear⟩, Nat.le_refl _, fun _ => .inr ⟨trivial, Nat.zero_lt_one⟩⟩
    | posting answer =>
      exact ⟨⟨by rintro ⟨⟩, hclear⟩, Nat.le_succ _, fun _ => .inl (Nat.lt_succ_self _)⟩
    | asking =>
      exact ⟨⟨by rintro ⟨⟩, hclear⟩, Nat.le_refl _, fun hpending => .inr ⟨hpending, (by decide : 2 < 3)⟩⟩
    | ended => exact absurd rfl hended
  | flushing q =>
    obtain ⟨hended, hclear⟩ := h
    obtain ⟨lines, hstep⟩ := Position.step_flushing (p := p) (i := i) (r := r) (s := s) hended
    rw [hstep, hclear]
    obtain ⟨next, served⟩ := q
    cases next with
    | looking =>
      refine ⟨⟨by rintro ⟨⟩, hclear⟩, Nat.le_refl _, fun hpending => .inr ⟨hpending, ?_⟩⟩
      have hless : s.handshake.completed < s.handshake.requested := hpending
      simp [Flusher.step, Position.lag, Flushing.lag, hless]
    | comparing number =>
      by_cases hless : s.handshake.completed < number
      · simp only [Flusher.step, hless, if_true]
        refine ⟨⟨by rintro ⟨⟩, hclear⟩, Nat.le_refl _, fun _ => .inr ⟨trivial, ?_⟩⟩
        simp [Position.lag, Flushing.lag, hless]
      · simp only [Flusher.step, hless, if_false]
        refine ⟨⟨by rintro ⟨⟩, hclear⟩, Nat.le_refl _, fun hpending => .inr ⟨hpending, ?_⟩⟩
        simp [Position.lag, Flushing.lag, hless]
    | flushing number =>
      exact ⟨⟨by rintro ⟨⟩, hclear⟩, Nat.le_refl _, fun _ => .inr ⟨trivial, Nat.zero_lt_one⟩⟩
    | acknowledging number =>
      exact ⟨⟨by rintro ⟨⟩, hclear⟩, Nat.le_succ _, fun _ => .inl (Nat.lt_succ_self _)⟩
    | asking =>
      exact ⟨⟨by rintro ⟨⟩, hclear⟩, Nat.le_refl _, fun hpending => .inr ⟨hpending, (by decide : 3 < 4)⟩⟩
    | ended => exact absurd rfl hended
  | binding | marking | entering | measuring | noting | interfering | idling | exited | lost =>
    exact h.elim

/-- A core that has something to serve does not wait in vain. -/
theorem Machine.Runs.not_inVain_serving (h : m.Runs p) (hi : i < p.cores.toNat)
    (hserving : (m.position i).Serving m.shared) (hpending : (m.position i).Pending m.shared) :
    ¬ m.InVain i := by
  have hstep : ∀ (m' : Machine) (r : Reading), m'.Runs p → (m'.position i).Serving m'.shared →
      (m'.step (.core i r)).Runs p ∧
        ((m'.step (.core i r)).position i).Serving (m'.step (.core i r)).shared ∧
        (m'.position i).served ≤ ((m'.step (.core i r)).position i).served ∧
        ((m'.position i).Pending m'.shared →
          (m'.position i).served < ((m'.step (.core i r)).position i).served ∨
            (((m'.step (.core i r)).position i).Pending (m'.step (.core i r)).shared ∧
              ((m'.step (.core i r)).position i).lag (m'.step (.core i r)).shared <
                (m'.position i).lag m'.shared)) := fun m' r hruns hserving => by
    rw [(hruns.step_core hi r).1, (hruns.step_core hi r).2]
    exact ⟨hruns.step _, hserving.step⟩
  refine Machine.not_inVain
    (fun m' => m'.Runs p ∧ (m'.position i).Serving m'.shared ∧
      ((m.position i).served < (m'.position i).served ∨
        ((m.position i).served = (m'.position i).served ∧ (m'.position i).Pending m'.shared)))
    (fun m' => m'.Runs p ∧ (m'.position i).Serving m'.shared ∧
      (m.position i).served < (m'.position i).served)
    (fun m' => (m'.position i).lag m'.shared) ?_ ?_ ?_ ⟨h, hserving, .inr ⟨rfl, hpending⟩⟩
    fun hmore => Nat.lt_irrefl _ hmore.2.2
  · -- either it has served more by now, or there is still the same to serve
    rintro m' r ⟨hruns, hserving, hserved⟩
    obtain ⟨hruns', hserving', hle, hcloser⟩ := hstep m' r hruns hserving
    refine ⟨hruns', hserving', ?_⟩
    rcases hserved with hmore | ⟨hsame, hpending⟩
    · exact .inl (by omega)
    · rcases hcloser hpending with hmore | ⟨hpending', -⟩
      · exact .inl (by omega)
      · rcases Nat.eq_or_lt_of_le hle with heq | hlt
        · exact .inr ⟨hsame.trans heq, hpending'⟩
        · exact .inl (by omega)
  · rintro m' r ⟨hruns, hserving, hmore⟩
    obtain ⟨hruns', hserving', hle, -⟩ := hstep m' r hruns hserving
    exact ⟨hruns', hserving', by omega⟩
  · rintro m' r ⟨hruns, hserving, hserved⟩
    obtain ⟨hruns', hserving', hle, hcloser⟩ := hstep m' r hruns hserving
    rcases hserved with hmore | ⟨hsame, hpending⟩
    · exact .inl ⟨hruns', hserving', by omega⟩
    · rcases hcloser hpending with hmore | ⟨-, hless⟩
      · exact .inl ⟨hruns', hserving', by omega⟩
      · exact .inr hless

/-- Past the start barrier and with the flag clear, the receiver of a primary serves. -/
theorem Formed.serving_receiver (hfits : p.Fits) (h : Formed p 0 s f)
    (hclear : s.done.isSet = false) (hneeds : p.needsReceivers = true) {c : Nat}
    (hc : c < p.primaries.toNat) {a : Answerer}
    (ha : (f (c + p.signalOffset.toNat)).Serves (p.link c) a)
    (hstage : (f (c + p.signalOffset.toNat)).stage = 5) :
    ∃ b, f (c + p.signalOffset.toNat) = .answering (p.link c) b ∧ a = .serving (p.link c) b ∧
      b.next ≠ .ended := by
  have hon : ∀ k, a ≠ .serving (p.link c) ⟨.ended, k⟩ := fun k hk => by
    rw [h.done_of_served hfits hneeds hc ha hk] at hclear
    cases hclear
  generalize f (c + p.signalOffset.toNat) = pos at ha hstage
  cases ha with
  | binding | marking => cases hstage
  | before g => cases g <;> cases hstage
  | during b =>
    refine ⟨b, rfl, rfl, fun hended => ?_⟩
    obtain ⟨next, served⟩ := b
    obtain rfl : next = .ended := hended
    exact hon served rfl
  | after k => exact absurd rfl (hon k)

/-- A sender whose receiver serves finds the flag of its receiver set. -/
theorem Meeting.ready {l : Link} {d : Desk} {b : Receiver} {rest : List Entry}
    (h : Meeting l n d (.connecting l) (.serving l b) rest) : d.ready = true := by
  cases h with
  | apart ha hr => exact hr.elim nofun nofun
  | quiet => rfl

/-- While a sender polls without an answer there is something for its receiver to serve. -/
theorem Meeting.pending {l : Link} {m : Mailboxes} {b : Receiver} {start : Cycles}
    {rest : List Entry}
    (h : Meeting l n (m.desk l) (.measuring l (.polling start)) (.serving l b) rest)
    (hboxes : s.boxes = m) (hempty : m.peek l.sender = 0) : (Position.answering l b).Pending s := by
  subst hboxes
  generalize hd : s.boxes.desk l = d at h
  have hrequest : s.boxes.peek l.receiver = d.request := by rw [← hd]; rfl
  have hreply : s.boxes.peek l.sender = d.reply := by rw [← hd]; rfl
  cases h with
  | apart ha => exact ha.elim nofun nofun
  | quiet ha => rcases ha with ha | ha | ha | ha <;> cases ha
  | requested start hnext =>
    have hfull : s.boxes.peek l.receiver ≠ 0 := by
      rw [hrequest]
      exact postable_ne_zero start
    obtain rfl | rfl := hnext <;> exact hfull
  | taken | composed => trivial
  | answered start answered hnext =>
    rw [hreply] at hempty
    exact absurd hempty (l.payload.answer_ne_zero answered)

/-- With the flag clear and all at work, a primary that has not finished has a receiver that serves,
and meets it. -/
theorem Machine.Well.serving_receiver (hfits : p.Fits) (h : m.Well p n)
    (hclear : m.shared.done.isSet = false)
    (hwork : ∀ j < p.cores.toNat, (m.position j).stage = 5) {c : Nat} (hc : c < p.primaries.toNat)
    {x : Primary} (hx : m.position c = .measuring x) (hneeds : p.needsReceivers = true) :
    ∃ b, m.position (c + p.signalOffset.toNat) = .answering (p.link c) b ∧
      (∃ k rest, Meeting (p.link c) k (m.shared.boxes.desk (p.link c)) (x.duty.asker (p.link c))
        (.serving (p.link c) b) rest) ∧ b.next ≠ .ended := by
  obtain ⟨y, a, k, rest, hy, ha, -, hmeeting⟩ := h.sound.pairs hneeds c hc
  rw [hx] at hy
  cases hy
  obtain ⟨b, hb, rfl, hserves⟩ := h.sound.formed.serving_receiver hfits hclear hneeds hc ha
    (hwork _ (hfits.receiver_lt hneeds hc).1)
  exact ⟨b, hb, ⟨k, rest, hmeeting⟩, hserves⟩

/-- The same of the core that flushes, when the primary waits for its request. -/
theorem Machine.Well.serving_flusher (hfits : p.Fits) (h : m.Well p n)
    (hclear : m.shared.done.isSet = false)
    (hwork : ∀ j < p.cores.toNat, (m.position j).stage = 5) (hresponse : p.workload = .response)
    {x : Primary} (hx : m.position 0 = .measuring x) {number : UInt64}
    (hduty : x.duty = .requesting (.waiting number)) :
    ∃ j < p.cores.toNat, Role.assign p j = .flusher ∧ ∃ q, m.position j = .flushing q ∧
      q.next ≠ .ended ∧ m.shared.handshake.requested = number := by
  obtain ⟨hone, hthree, -⟩ := hfits.response hresponse
  obtain ⟨j, hj⟩ := RunPlan.firstFree?_isSome hone hthree
  obtain ⟨hle, hlt, -⟩ := RunPlan.firstFree?_eq_some_iff.1 hj
  obtain ⟨y, q, k, hy, hq, -, hpending, -⟩ := h.sound.lockstep hresponse j hj
  rw [hx] at hy
  cases hy
  have hserves : q.next ≠ .ended := fun hnext => by
    rw [h.sound.formed.ending j hlt hle (hq.ending_iff.2 hnext)] at hclear
    cases hclear
  refine ⟨j, hlt, Role.assign_flusher hresponse hj, q, ?_, hserves,
    hpending number (by rw [hduty]; rfl)⟩
  have hstage := hwork j hlt
  generalize m.position j = pos at hq hstage
  cases hq with
  | before g => cases g <;> cases hstage
  | during => rfl
  | after k => exact absurd rfl hserves

/-- While the flag is clear and all are at work, some core goes on: a primary that has not finished
or the one for which it waits. -/
theorem Machine.Well.moves_working (hfits : p.Fits) (h : m.Well p n)
    (hclear : m.shared.done.isSet = false)
    (hwork : ∀ j < p.cores.toNat, (m.position j).stage = 5) :
    ∃ j < p.cores.toNat, ¬ m.InVain j ∧ Role.assign p j ≠ p.background.role := by
  have hformed := h.sound.formed
  have hsome : ∃ c < p.primaries.toNat, (m.position c).pending ≠ 0 := by
    by_contra hnone
    have hall : ∀ c < p.primaries.toNat, (m.position c).pending = 0 := fun c hc =>
      of_not_not fun hne => hnone ⟨c, hc, hne⟩
    rw [hformed.census.done_iff.2 hall] at hclear
    cases hclear
  obtain ⟨c, hc, hpending⟩ := hsome
  have hcores : c < p.cores.toNat := hc.trans_le hfits.primaries.2
  have hfills := hformed.fills c hcores
  rw [Role.assign_primary hc] at hfills
  obtain ⟨x, hx⟩ := hfills.measures.resolve_left (h.sound.present c hc)
  have hstage := hwork c hcores
  have hended : x.duty ≠ .ended := fun hended => hpending (by rw [hx.pending_eq, if_pos hended])
  obtain ⟨hpos, hfit⟩ : m.position c = .measuring x ∧ x.Fit p := by
    generalize m.position c = pos at hx hstage
    cases hx with
    | before g => cases g <;> cases hstage
    | during hfit => exact ⟨rfl, hfit⟩
    | after hfit hlast => exact absurd hlast hended
  -- a primary that does not wait goes on itself; else the word it looks at says who does
  by_cases hwaits : x.Waits p c m.shared
  swap
  · refine ⟨c, hcores, h.runs.not_inVain_primary hcores hpos hended hwaits, fun hrole => ?_⟩
    exact Nat.not_lt.2 (Role.assign_eq_background_iff.1 hrole).1 hc
  have hsuits := hfit.suits
  unfold Primary.Waits at hwaits
  split at hwaits
  case h_1 hduty =>
    -- the receiver has set its flag before the barrier
    rw [hduty] at hsuits
    obtain ⟨b, -, ⟨k, rest, hmeeting⟩, -⟩ := h.serving_receiver hfits hclear hwork hc hpos hsuits
    obtain ⟨l, hlink, hflag⟩ := hwaits
    have hlink' : m.shared.boxes.link c p.signalOffset p.payload = .ok (p.link c) :=
      (hformed.hosts hfits hsuits hc).link_eq rfl
    cases hlink.symm.trans hlink'
    rw [hduty] at hmeeting
    have hready : m.shared.boxes.flag (p.link c).receiver = true := hmeeting.ready
    rw [hready] at hflag
    cases hflag
  case h_2 number hduty =>
    -- the request is pending
    rw [hduty] at hsuits
    have hresponse : p.workload = .response := hsuits
    obtain rfl : c = 0 := by
      have := (hfits.response hresponse).1
      omega
    obtain ⟨j, hj, hrole, q, hq, hserves, hrequested⟩ :=
      h.serving_flusher hfits hclear hwork hresponse hpos hduty
    have hless : m.shared.handshake.completed < m.shared.handshake.requested :=
      hrequested.symm ▸ hwaits
    refine ⟨j, hj, h.runs.not_inVain_serving hj ?_ ?_, fun hbackground => ?_⟩
    · rw [hq]
      exact ⟨hserves, hclear⟩
    · rw [hq]
      exact Position.pending_flushing hless
    · exact (Role.assign_eq_background_iff.1 hbackground).2.2 hresponse
        (Role.assign_eq_flusher_iff.1 hrole).2
  case h_3 start hduty =>
    -- there is no reply yet, so the receiver has the request or will find it
    rw [hduty] at hsuits
    obtain ⟨b, hb, ⟨k, rest, hmeeting⟩, hserves⟩ :=
      h.serving_receiver hfits hclear hwork hc hpos hsuits
    have hlt := (hfits.receiver_lt hsuits hc).1
    rw [hduty] at hmeeting
    refine ⟨c + p.signalOffset.toNat, hlt, h.runs.not_inVain_serving hlt ?_ ?_, fun hrole => ?_⟩
    · rw [hb]
      exact ⟨hserves, hclear⟩
    · rw [hb]
      exact hmeeting.pending rfl hwaits
    · have hsender := (Role.assign_eq_background_iff.1 hrole).2.1
      rw [RunPlan.sender?_receiver hsuits hc] at hsender
      cases hsender
  case h_4 => exact hwaits.elim

theorem Position.atWork_stage (h : pos.atWork = true) : pos.stage = 5 := by
  cases pos <;> first | rfl | cases h

/-- In a sound run some core goes on until all have come to their ends, and while the flag is clear
it is not one of the background at its work. -/
theorem Machine.Well.moves (hfits : p.Fits) (h : m.Well p n) (hi : i < p.cores.toNat)
    (hgoes : (m.position i).over = false) :
    ∃ j < p.cores.toNat, ¬ m.InVain j ∧ (m.shared.done.isSet = false →
      (m.position j).atWork = true → Role.assign p j ≠ p.background.role) := by
  cases hdone : m.shared.done.isSet with
  | true => exact ⟨i, hi, Machine.Ending.not_inVain hfits hi ⟨⟨n, h⟩, hdone⟩ hgoes, by simp⟩
  | false =>
    by_cases hwork : ∀ j < p.cores.toNat, (m.position j).stage = 5
    · obtain ⟨j, hj, hmoves, hrole⟩ := h.moves_working hfits hdone hwork
      exact ⟨j, hj, hmoves, fun _ _ => hrole⟩
    · obtain ⟨j, hj⟩ := not_forall.1 hwork
      obtain ⟨hlt, hstage⟩ := Classical.not_imp.1 hj
      obtain ⟨k, hk, hmoves, hearly⟩ := h.moves_entering hlt hstage
      exact ⟨k, hk, hmoves, fun _ hatWork => absurd (Position.atWork_stage hatWork) hearly⟩

end LatencyGauge
