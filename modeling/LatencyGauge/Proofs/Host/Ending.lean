/-
Once the flag is set every core that steps alone comes to its end after a few steps. A core waits in
vain if it can step alone and come back to where the run was; so once the flag is set nobody does.
-/
import LatencyGauge.Proofs.Host.Runs
import LatencyGauge.Proofs.Iteration

namespace LatencyGauge

open Function

variable {p : RunPlan} {m : Machine} {n i : Nat} {r : Reading} {s s' : Shared}
  {f : Nat → Position} {pos : Position}

/-! ## Steps that a core takes alone -/

/-- Steps of one core in a row. -/
def Machine.alone (m : Machine) (i : Nat) (rs : List Reading) : Machine := m.run (rs.map (.core i))

/-- A core that steps alone can come back to where the run was. -/
def Machine.InVain (m : Machine) (i : Nat) : Prop := ∃ rs ≠ [], m.alone i rs = m

theorem Machine.alone_eq_foldl (m : Machine) (i : Nat) (rs : List Reading) :
    m.alone i rs = rs.foldl (fun m r => m.step (.core i r)) m :=
  List.foldl_map ..

theorem Machine.alone_append (m : Machine) (i : Nat) (rs rs' : List Reading) :
    m.alone i (rs ++ rs') = (m.alone i rs).alone i rs' := by
  simp only [Machine.alone_eq_foldl, List.foldl_append]

/-- A way back can be taken as often as one likes. -/
theorem Machine.InVain.long (h : m.InVain i) (least : Nat) :
    ∃ rs, least < rs.length ∧ m.alone i rs = m := by
  obtain ⟨rs, hne, hback⟩ := h
  induction least with
  | zero => exact ⟨rs, List.length_pos_iff.2 hne, hback⟩
  | succ least ih =>
    -- the way back is taken once more before the long one
    obtain ⟨long, hlong, hback'⟩ := ih
    refine ⟨rs ++ long, ?_, ?_⟩
    · have := List.length_pos_iff.2 hne
      rw [List.length_append]
      omega
    · rw [Machine.alone_append, hback, hback']

section Reaches

variable (inv goal : Machine → Prop) (rank : Machine → Nat)
  (hkeeps : ∀ m r, inv m → inv (m.step (.core i r)))
  (hstays : ∀ m r, goal m → goal (m.step (.core i r)))
  (hcloser : ∀ m r, inv m → goal (m.step (.core i r)) ∨ rank (m.step (.core i r)) < rank m)
  (h : inv m)
include hkeeps hstays hcloser h

/-- A core that gets closer to something with every step, and never loses it, reaches it alone. -/
theorem Machine.alone_reaches {rs : List Reading} (hlong : rank m < rs.length) :
    goal (m.alone i rs) := by
  rw [Machine.alone_eq_foldl]
  exact foldl_reaches (fun m r => m.step (.core i r)) (fun _ => true) inv goal rank hkeeps hstays
    (fun m r _ => hcloser m r) (fun _ _ hfalse => Bool.noConfusion hfalse) h rs
    (by simpa using hlong)

/-- Such a core does not wait in vain, unless it has reached it before. -/
theorem Machine.not_inVain (hnot : ¬ goal m) : ¬ m.InVain i := fun hvain => by
  -- on a way back that is longer than its rank it would have reached it, and be where it was
  obtain ⟨rs, hlong, hback⟩ := hvain.long (rank m)
  have hgoal := Machine.alone_reaches inv goal rank hkeeps hstays hcloser h hlong
  rw [hback] at hgoal
  exact hnot hgoal

end Reaches

/-- A core does not wait in vain whose next step reaches something that it never loses. -/
theorem Machine.not_inVain_of_step (goal : Machine → Prop)
    (hstays : ∀ m r, goal m → goal (m.step (.core i r)))
    (hreaches : ∀ r, goal (m.step (.core i r))) (hnot : ¬ goal m) : ¬ m.InVain i := by
  refine Machine.not_inVain (fun m' => m' = m ∨ goal m') goal (fun _ => 0) ?_ hstays ?_ (.inl rfl)
    hnot
  · rintro m' r (rfl | hgoal)
    · exact .inr (hreaches r)
    · exact .inr (hstays m' r hgoal)
  · rintro m' r (rfl | hgoal)
    · exact .inl (hreaches r)
    · exact .inl (hstays m' r hgoal)

/-! ## While the flag is set -/

/-- How many steps a follower takes before its round ends, at most, with those of the wait for an
edge after it. -/
def Follower.remaining (h : Handshake) : Follower → Nat
  | .asking _ | .ended none => 5
  | .looking seen => if seen < h.completed then 7 else 6
  | .ended (some _) => 8

/-- The same of an interferer before its last step. -/
def Interfering.remaining (h : Handshake) (x : Round) : Interfering → Nat
  | .ended => 0
  | .asking | .edge (.asking _) => 1
  | .pausing => 2
  | .edge (.observing _) | .edge (.ended _) => 3
  | .edge .starting => 4
  | .working => x.follower.remaining h

/-- The same of a core that flushes. -/
def Flushing.remaining (h : Handshake) : Flushing → Nat
  | .ended => 0
  | .asking => 1
  | .looking => if h.completed < h.requested then 7 else 3
  | .comparing pending =>
    if h.completed < pending then if pending < h.requested then 10 else 6 else 2
  | .flushing pending => if pending < h.requested then 9 else 5
  | .acknowledging pending => if pending < h.requested then 8 else 4

/-- The same of a receiver without a request. -/
def Receiving.remaining : Receiving → Nat
  | .taking => 2
  | .asking => 1
  | _ => 0

/-- How many steps a core takes before its last one, at most. -/
def Position.remaining (h : Handshake) : Position → Nat
  | .entering .inside => 19
  | .entering _ => 20
  | .answering _ x => x.next.remaining
  | .flushing q => q.next.remaining h
  | .noting => 9
  | .interfering l x => l.next.remaining h x
  | _ => 0

theorem Follower.le_remaining (h : Handshake) (x : Follower) :
    5 ≤ x.remaining h ∧ x.remaining h ≤ 8 := by
  cases x with
  | asking => simp [Follower.remaining]
  | looking seen =>
    simp only [Follower.remaining]
    split <;> decide
  | ended number => cases number <;> simp [Follower.remaining]

theorem Interfering.remaining_le (h : Handshake) (x : Round) (next : Interfering) :
    next.remaining h x ≤ 8 := by
  cases next with
  | working => exact (x.follower.le_remaining h).2
  | edge e => cases e <;> simp [Interfering.remaining]
  | asking | pausing | ended => simp [Interfering.remaining]

theorem Flushing.remaining_le (h : Handshake) (next : Flushing) : next.remaining h ≤ 10 := by
  cases next <;> simp only [Flushing.remaining] <;> (repeat' split) <;> decide

theorem Position.remaining_le (h : Handshake) (pos : Position) : pos.remaining h ≤ 20 := by
  cases pos with
  | entering g => cases g <;> simp [Position.remaining]
  | answering l x => cases hn : x.next <;> simp [Position.remaining, Receiving.remaining, hn]
  | flushing q => exact (Flushing.remaining_le h _).trans (by decide)
  | interfering l x => exact (Interfering.remaining_le h x _).trans (by decide)
  | _ => simp [Position.remaining]

theorem Role.work_remaining (h : Handshake) (role : Role) : (role.work p).remaining h < 19 := by
  cases role with
  | flusher =>
    exact Nat.lt_of_le_of_lt (Flushing.remaining_le h .looking) (by decide : 10 < 19)
  | _ => simp [Role.work, Position.remaining, Receiver.fresh, Receiving.remaining]

/-- A round that does not end follows the next number, or goes on as its follower does. -/
theorem Round.step_goes {done : Bool} {h : Handshake} {x : Round}
    (hgoes : (x.step done h).1 = none) :
    (∃ number, x.follower.step done h = .ended (some number) ∧
        (x.step done h).2.follower = .looking number) ∨
      ((x.follower.step done h).over = false ∧
        (x.step done h).2.follower = x.follower.step done h) := by
  cases hfollower : x.follower.step done h with
  | looking | asking =>
    right
    simp only [Round.step, hfollower]
    exact ⟨rfl, trivial⟩
  | ended number =>
    cases number with
    | none => simp [Round.step, hfollower] at hgoes
    | some number =>
      left
      by_cases hfull : unitsPerRound ≤ x.units + 1
      · simp [Round.step, hfollower, hfull] at hgoes
      · simp [Round.step, hfollower, hfull]

/-- A round that does not end gets closer to its end while the flag is set. -/
theorem Round.step_closer {h : Handshake} {x : Round} (hgoes : (x.step true h).1 = none) :
    (x.step true h).2.follower.remaining h < x.follower.remaining h := by
  rcases Round.step_goes hgoes with ⟨number, hnumber, hfollower⟩ | ⟨hwaits, hfollower⟩
  · rw [hfollower]
    cases hx : x.follower with
    | asking seen =>
      rw [hx] at hnumber
      cases hnumber
    | looking seen =>
      rw [hx] at hnumber
      by_cases hless : seen < h.completed
      · simp only [Follower.step, hless, if_true, Follower.ended.injEq,
          Option.some.injEq] at hnumber
        subst hnumber
        simp [Follower.remaining, hless]
      · simp only [Follower.step, hless, if_false, reduceCtorEq] at hnumber
    | ended last =>
      rw [hx] at hnumber
      cases hnumber
      simp only [Follower.remaining]
      split <;> decide
  · rw [hfollower]
    cases hx : x.follower with
    | asking seen =>
      rw [hx] at hwaits
      cases hwaits
    | looking seen =>
      rw [hx] at hwaits
      by_cases hless : seen < h.completed
      · simp [Follower.step, hless, Follower.over] at hwaits
      · simp [Follower.step, hless, Follower.remaining]
    | ended last =>
      rw [hx] at hwaits
      cases hwaits

/-- What an interferer does after an edge is its next round or a pause. -/
theorem Interferer.afterEdge_remaining {W : Type} (i : Interferer W) (h : Handshake) (x : Round)
    (t : Tick) : (i.afterEdge (.ended (some t))).remaining h x ≤ 2 := by
  simp only [Interferer.afterEdge]
  split <;> simp [Interfering.remaining]

theorem RunPlan.interferer_closer {l : Load} {x : Round} (hdone : s.done.isSet = true)
    (hended : l.next ≠ .ended) :
    (p.interferer.step (l, x, s)).1.next.remaining s.handshake (p.interferer.step (l, x, s)).2.1 <
      l.next.remaining s.handshake x := by
  obtain ⟨next, rounds, failures⟩ := l
  cases next with
  | asking =>
    have hnext : (p.interferer.step (⟨.asking, rounds, failures⟩, x, s)).1.next = .ended :=
      if_pos hdone
    rw [hnext]
    exact Nat.zero_lt_one
  | working =>
    have hlast : 4 < (Interfering.working).remaining s.handshake x :=
      (x.follower.le_remaining s.handshake).1
    by_cases hresponse : p.workload = .response
    · simp only [Interferer.step, RunPlan.interferer, hresponse, if_true, hdone]
      cases hround : x.step true s.handshake with
      | mk code x' =>
        cases code with
        | none =>
          have hcloser := Round.step_closer (h := s.handshake) (x := x) (by rw [hround])
          rw [hround] at hcloser
          exact hcloser
        | some code => exact hlast
    · simp only [Interferer.step, RunPlan.interferer, hresponse, if_false]
      exact hlast
  | edge e =>
    have hnext : (p.interferer.step (⟨.edge e, rounds, failures⟩, x, s)).1.next =
        p.interferer.afterEdge (EdgeWait.step p.interferer.observe p.interferer.done (e, x, s)).1 :=
      rfl
    rw [hnext]
    cases e with
    | starting => exact (by decide : 3 < 4)
    | observing first =>
      simp only [EdgeWait.step]
      split
      · exact (by decide : 1 < 3)
      · exact Nat.lt_of_le_of_lt (Interferer.afterEdge_remaining ..) (by decide : 2 < 3)
    | asking first =>
      have hlast : EdgeWait.step p.interferer.observe p.interferer.done (.asking first, x, s) =
          (.ended none, x, s) := by
        simp [EdgeWait.step, RunPlan.interferer, hdone]
      rw [hlast]
      exact Nat.zero_lt_one
    | ended edge =>
      cases edge with
      | none => exact (by decide : 0 < 3)
      | some t => exact Nat.lt_of_le_of_lt (Interferer.afterEdge_remaining ..) (by decide : 2 < 3)
  | pausing => exact (by decide : 1 < 2)
  | ended => exact absurd rfl hended

/-- A core that flushes gets closer to its end while the flag is set, whatever is pending. -/
theorem Flusher.step_closer {h : Handshake} {q : Flusher} (hended : q.next ≠ .ended) :
    (q.step true h).1.next.remaining (q.step true h).2 < q.next.remaining h := by
  obtain ⟨next, served⟩ := q
  cases next with
  | looking =>
    by_cases hpending : h.completed < h.requested <;>
      simp [Flusher.step, Flushing.remaining, hpending]
  | comparing pending =>
    by_cases hpending : h.completed < pending <;> by_cases hless : pending < h.requested <;>
      simp [Flusher.step, Flushing.remaining, hpending, hless]
  | flushing pending | acknowledging pending =>
    by_cases hless : pending < h.requested <;> simp [Flusher.step, Flushing.remaining, hless]
  | asking => exact Nat.zero_lt_one
  | ended => exact absurd rfl hended

/-- While the flag is set everybody has arrived at the start barrier, which is open. -/
theorem Formed.open_of_done (hfits : p.Fits) (h : Formed p 0 s f) (hdone : s.done.isSet = true)
    (hpresent : f 0 ≠ .lost) : s.barrier.arrivals = p.cores := by
  -- the first primary has finished, so it has passed the barrier
  have hpos := hfits.primaries.1
  have hfills := h.fills 0 hfits.cores
  rw [Role.assign_primary hpos] at hfills
  obtain ⟨x, hx⟩ := hfills.measures.resolve_left hpresent
  have hended := h.finished hpos hx hdone
  refine h.gates.passed 0 hfits.cores ?_
  rw [comp_apply]
  generalize f 0 = pos at hx
  cases hx with
  | before g => rcases Primary.start_duty p with hd | hd <;> rw [hd] at hended <;> cases hended
  | during | after => rfl

/-- The flag being set, a core that enters gets closer to its end. -/
theorem Formed.entering_closer (h : Formed p 0 s f) (hi : i < p.cores.toNat)
    (hopen : s.barrier.arrivals = p.cores) {g : Gate} (hg : f i = .entering g) :
    ((f i).step p i r s).1.remaining ((f i).step p i r s).2.handshake <
      (f i).remaining s.handshake := by
  have hgate : (Position.gate ∘ f) i = g := by
    rw [comp_apply, hg]
    rfl
  rw [hg]
  cases g with
  | outside => exact absurd hgate (h.gates.arrived_of_full hopen hi)
  | waiting release =>
    obtain rfl := h.gates.waits i hi release hgate
    have hstep : (Position.entering (.waiting p.cores)).step p i r s =
        (.entering .inside, { s with barrier := s.barrier }) := by
      simp [Position.step, Gate.step, Barrier.reached, hopen]
    rw [hstep]
    exact (by decide : 19 < 20)
  | inside => exact Role.work_remaining _ _

/-- What one step makes of a core while the flag is set. -/
def Closer (p : RunPlan) (i : Nat) (r : Reading) (s : Shared) (pos : Position) : Prop :=
  (pos.step p i r s).1.over = true ∨
    (pos.step p i r s).1.remaining (pos.step p i r s).2.handshake < pos.remaining s.handshake

/-- A receiver whose sender has finished finds no request. -/
theorem Meeting.finished {l : Link} {d : Desk} {x : Receiver} {rest : List Entry}
    (h : Meeting l n d .finished (.serving l x) rest) :
    d.request = 0 ∧ (x.next = .taking ∨ x.next = .asking ∨ x.next = .ended) := by
  cases h with
  | apart ha hr => exact hr.elim nofun nofun
  | quiet ha hnext => exact ⟨rfl, hnext⟩

theorem Sound.closer_receiver (h : Sound p n s f) (hdone : s.done.isSet = true)
    (hopen : s.barrier.arrivals = p.cores) (hi : i < p.cores.toNat) {c : Nat}
    (hc : p.sender? i = some c) : Closer p i r s (f i) := by
  have hneeds := (RunPlan.sender?_eq_some_iff.1 hc).1
  obtain ⟨-, hlt, hi'⟩ := RunPlan.link_role hc
  obtain ⟨x, a, k, rest, hx, ha, -, hmeeting⟩ := h.pairs hneeds c hlt
  have harrived := h.formed.gates.arrived_of_full hopen hi
  rw [h.formed.finished hlt hx hdone] at hmeeting
  rw [← hi'] at ha
  cases hpos : f i with
  | binding | marking =>
    -- it has not arrived, and the barrier would be closed
    rw [comp_apply, hpos] at harrived
    exact absurd rfl harrived
  | entering g => exact .inr (hpos ▸ h.formed.entering_closer hi hopen hpos)
  | answering l b =>
    rw [hpos] at ha
    cases ha
    obtain ⟨hempty, hnext⟩ := hmeeting.finished
    have hpeek : s.boxes.peek (p.link c).receiver = 0 := hempty
    obtain ⟨next, served⟩ := b
    obtain rfl | rfl | rfl : next = .taking ∨ next = .asking ∨ next = .ended := hnext
    · right
      simp [Position.step, Receiver.step, hpeek, Position.remaining, Receiving.remaining]
    · right
      simp [Position.step, Receiver.step, hdone, Position.remaining, Receiving.remaining]
    · exact .inl rfl
  | exited => exact .inl rfl
  | lost => exact .inl rfl
  | measuring | flushing | noting | interfering | idling =>
    rw [hpos] at ha
    cases ha

theorem Sound.closer_flusher (h : Sound p n s f) (hdone : s.done.isSet = true)
    (hopen : s.barrier.arrivals = p.cores) (hi : i < p.cores.toNat)
    (hresponse : p.workload = .response) (hfree : p.firstFree? = some i) :
    Closer p i r s (f i) := by
  obtain ⟨-, q, -, -, hq, -⟩ := h.lockstep hresponse i hfree
  cases hpos : f i with
  | entering g => exact .inr (hpos ▸ h.formed.entering_closer hi hopen hpos)
  | flushing q' =>
    by_cases hended : q'.next = .ended
    · left
      simp [Position.step, hended, Position.over]
    · right
      have hcloser := Flusher.step_closer (h := s.handshake) hended
      rw [← hdone] at hcloser
      obtain ⟨lines, hstep⟩ := Position.step_flushing (p := p) (i := i) (r := r) (s := s) hended
      rw [hstep]
      exact hcloser
  | exited => exact .inl rfl
  | lost => exact .inl rfl
  | binding | marking | answering | measuring | noting | interfering | idling =>
    rw [hpos] at hq
    cases hq

theorem Formed.closer_background (h : Formed p 0 s f) (hdone : s.done.isSet = true)
    (hopen : s.barrier.arrivals = p.cores) (hi : i < p.cores.toNat)
    (hrole : Role.assign p i = p.background.role) : Closer p i r s (f i) := by
  have hfills := h.fills i hi
  have hentering : ∀ g, f i = .entering g → Closer p i r s (f i) := fun g hg =>
    .inr (h.entering_closer hi hopen hg)
  have hlost : f i = .lost → Closer p i r s (f i) := fun hf => by
    rw [hf]
    exact .inl rfl
  rcases p.background.role_eq with hb | hb <;> rw [hb] at hrole <;> rw [hrole] at hfills
  · refine hfills.loads.elim hlost fun hloads => ?_
    generalize f i = pos at hloads hentering
    cases hloads with
    | before g => exact hentering g rfl
    | noting => exact .inr (by decide : 1 < 9)
    | @during l x =>
      by_cases hended : l.next = .ended
      · left
        simp [Position.step, hended, Position.over]
      · right
        have hcloser := RunPlan.interferer_closer (p := p) (x := x) hdone hended
        have hshared := (p.interferer_step l x s).1
        simp only [Position.step, hended, if_false, hshared]
        exact hcloser
    | after => exact .inl rfl
  · refine hfills.idles.elim hlost fun hidles => ?_
    generalize f i = pos at hidles hentering
    cases hidles with
    | before g => exact hentering g rfl
    | during =>
      left
      simp [Position.step, hdone, Position.over]
    | after => exact .inl rfl

/-- The flag being set, every core comes to its end or gets closer to it. -/
theorem Sound.closer (hfits : p.Fits) (h : Sound p n s f) (hdone : s.done.isSet = true)
    (hi : i < p.cores.toNat) : Closer p i r s (f i) := by
  have hopen := h.formed.open_of_done hfits hdone (h.present 0 hfits.primaries.1)
  rcases Role.assign_cases p i with
    ⟨hlt, hrole⟩ | ⟨-, c, hc, -⟩ | ⟨hresponse, hfree, -⟩ | ⟨-, -, -, hrole⟩
  · have hfills := h.formed.fills i hi
    rw [hrole] at hfills
    obtain ⟨x, hx⟩ := hfills.measures.resolve_left (h.present i hlt)
    have hended := h.formed.finished hlt hx hdone
    left
    generalize f i = pos at hx
    cases hx with
    | before g => rcases Primary.start_duty p with hd | hd <;> rw [hd] at hended <;> cases hended
    | during => simp [Position.step, hended, Position.over]
    | after => rfl
  · exact h.closer_receiver hdone hopen hi hc
  · exact h.closer_flusher hdone hopen hi hresponse hfree
  · exact h.formed.closer_background hdone hopen hi hrole

/-- The flag stays set. -/
theorem Position.step_isSet (pos : Position) (hdone : s.done.isSet = true) :
    (pos.step p i r s).2.done.isSet = true := by
  cases pos with
  | measuring x =>
    by_cases hended : x.duty = .ended
    · simpa [Position.step, hended] using hdone
    · rw [Position.step_measuring hended]
      by_cases hannounces : x.duty = .announcing
      · rw [Primary.step_announcing hannounces]
        rfl
      · rw [Primary.step_done hannounces]
        exact hdone
  | flushing q =>
    simp only [Position.step]
    split
    · exact hdone
    · split <;> exact hdone
  | interfering l x =>
    simp only [Position.step]
    split
    · exact hdone
    · rw [(p.interferer_step l x s).1]
      exact hdone
  | binding | marking =>
    simp only [Position.step]
    split <;> exact hdone
  | entering g => cases g <;> exact hdone
  | answering l x =>
    simp only [Position.step]
    split <;> exact hdone
  | noting | idling | exited | lost => exact hdone

theorem Position.step_over (pos : Position) (h : pos.over = true) :
    (pos.step p i r s).1.over = true := by
  cases pos <;> first | exact h | cases h

theorem Machine.Runs.step_core (h : m.Runs p) (hi : i < p.cores.toNat) (r : Reading) :
    (m.step (.core i r)).shared = ((m.position i).step p i r m.shared).2 ∧
      (m.step (.core i r)).position i = ((m.position i).step p i r m.shared).1 := by
  obtain ⟨hshared, hposition⟩ := m.step_core (h.size ▸ hi) r
  rw [h.plan] at hshared hposition
  exact ⟨hshared, by rw [hposition, update_self]⟩

/-- A machine that runs a plan soundly, with the flag set. -/
def Machine.Ending (p : RunPlan) (m : Machine) : Prop :=
  (∃ n, m.Well p n) ∧ m.shared.done.isSet = true

theorem Machine.Ending.step (hfits : p.Fits) (hi : i < p.cores.toNat) (h : m.Ending p)
    (r : Reading) : (m.step (.core i r)).Ending p := by
  obtain ⟨⟨n, hwell⟩, hdone⟩ := h
  refine ⟨⟨_, hwell.step hfits (e := .core i r) trivial⟩, ?_⟩
  rw [(hwell.runs.step_core hi r).1]
  exact Position.step_isSet _ hdone

theorem Machine.Ending.closer (hfits : p.Fits) (hi : i < p.cores.toNat) (h : m.Ending p)
    (r : Reading) : ((m.step (.core i r)).position i).over = true ∨
      ((m.step (.core i r)).position i).remaining (m.step (.core i r)).shared.handshake <
        (m.position i).remaining m.shared.handshake := by
  obtain ⟨⟨n, hwell⟩, hdone⟩ := h
  obtain ⟨hshared, hposition⟩ := hwell.runs.step_core hi r
  rw [hshared, hposition]
  exact hwell.sound.closer hfits hdone hi

/-- Once a core has come to its end it stays there. -/
theorem Machine.step_over (h : (m.position i).over = true) (r : Reading) :
    ((m.step (.core i r)).position i).over = true := by
  rcases Nat.lt_or_ge i m.cores.size with hi | hi
  · rw [(m.step_core hi r).2, update_self]
    exact Position.step_over _ h
  · rw [m.step_core_of_le hi]
    exact h

/-- Once the flag is set every core that steps alone soon comes to its end. -/
theorem Machine.Ending.alone (hfits : p.Fits) (hi : i < p.cores.toNat) (h : m.Ending p)
    {rs : List Reading} (hlong : 20 < rs.length) : ((m.alone i rs).position i).over = true :=
  Machine.alone_reaches (Machine.Ending p) (fun m => (m.position i).over = true)
    (fun m => (m.position i).remaining m.shared.handshake)
    (fun _ r h => h.step hfits hi r) (fun _ r h => Machine.step_over h r)
    (fun _ r h => h.closer hfits hi r) h
    (Nat.lt_of_le_of_lt (Position.remaining_le _ _) hlong)

/-- Once the flag is set no core waits in vain, unless it has come to its end. -/
theorem Machine.Ending.not_inVain (hfits : p.Fits) (hi : i < p.cores.toNat) (h : m.Ending p)
    (hgoes : (m.position i).over = false) : ¬ m.InVain i :=
  Machine.not_inVain (Machine.Ending p) (fun m => (m.position i).over = true)
    (fun m => (m.position i).remaining m.shared.handshake)
    (fun _ r h => h.step hfits hi r) (fun _ r h => Machine.step_over h r)
    (fun _ r h => h.closer hfits hi r) h (by rw [hgoes]; exact Bool.false_ne_true)

end LatencyGauge
