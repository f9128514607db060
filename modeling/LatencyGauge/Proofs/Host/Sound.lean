/-
A run in which no core is lost that others wait for. Every primary stands somewhere in a round trip
with its receiver, whose number is the number of windows that the primary has closed; and with the
core that flushes it stands somewhere in a turn, whose number is the number of requests that have
returned. Both are kept by every step of every core.
-/
import LatencyGauge.Proofs.Host.Formed

namespace LatencyGauge

open Finset Function

variable {p : RunPlan} {r : Reading} {s s' : Shared} {f : Nat → Position} {i c n : Nat}
  {pos : Position}

/-! ## A primary and its receiver -/

/-- A primary and its receiver stand where they are after as many round trips as the primary has
closed windows. -/
def Paired (p : RunPlan) (s : Shared) (f : Nat → Position) (c : Nat) : Prop :=
  ∃ x a n rest, (f c).Measures p c x ∧ (f (c + p.signalOffset.toNat)).Serves (p.link c) a ∧
    x.Counts p Duty.closed n ∧
    Meeting (p.link c) n (s.boxes.desk (p.link c)) (x.duty.asker (p.link c)) a rest

/-- A trip that is not over has closed no window. -/
theorem Meeting.countP_closes {l : Link} {d : Desk} {a : Asker} {b : Answerer} {rest : List Entry}
    (h : Meeting l n d a b rest) : rest.countP Entry.closes = 0 := by
  obtain ⟨last, part, hpart, rfl⟩ := h.proper
  have hearly : ((Trip.entries l.payload last).take 7).countP Entry.closes = 0 := rfl
  exact Nat.le_zero.1 (hearly ▸
    (List.take_sublist_take_left (Nat.le_of_lt_succ hpart)).countP_le)

/-- A pair has as many trips more as windows were closed. -/
theorem Meets.closes {l : Link} {m : Mailboxes} {a : Asker} {b : Answerer} {log : List Entry}
    (h : Meets l n m a b log) :
    ∃ rest, Meeting l (n + log.countP Entry.closes) (m.desk l) a b rest := by
  obtain ⟨trips, rest, rfl, hmeeting⟩ := h
  refine ⟨rest, ?_⟩
  rw [List.countP_append, hmeeting.countP_closes, countP_entries fun _ _ => rfl]
  exact hmeeting

/-- A receiver closes no windows. -/
theorem Answerer.countP_closes (core : Nat) (offset : UInt64) (payload : Payload) (done : Bool)
    (reading : Cycles) (m : Mailboxes) (a : Answerer) :
    (a.step core offset payload done reading m).2.2.countP Entry.closes = 0 := by
  cases a with
  | outside | marking =>
    simp only [Answerer.step]
    split <;> rfl
  | serving l x =>
    obtain ⟨next, served⟩ := x
    cases next with
    | taking =>
      simp only [Answerer.step, Receiver.step]
      split <;> rfl
    | answering | posting | asking | ended => rfl
  | refused => rfl

/-- What a step of a primary makes of its round trip, unless its receiver has ended too early. -/
theorem Primary.Sends.meets {x x' : Primary} {reading : Cycles} {m m' : Mailboxes} {a : Answerer}
    {rest : List Entry} (h : x.Sends p c reading m x' m') (hhosts : m.Hosts (p.link c))
    (hclosed : x.Counts p Duty.closed n)
    (hmeeting : Meeting (p.link c) n (m.desk (p.link c)) (x.duty.asker (p.link c)) a rest)
    (hserves : ∀ k, a = .serving (p.link c) ⟨.ended, k⟩ → x.duty.asker (p.link c) = .finished) :
    m.Touched (p.link c) m' ∧ ∃ n' rest', x'.Counts p Duty.closed n' ∧
      Meeting (p.link c) n' (m'.desk (p.link c)) (x'.duty.asker (p.link c)) a rest' := by
  cases h with
  | asks entries hstep hclosed' =>
    have hkeeps := hmeeting.asker (p.link_receiver c) hhosts reading rfl hserves
    rw [show Asker.step (p.link c).sender p.signalOffset (p.link c).payload reading m
      (x.duty.asker (p.link c)) = _ from hstep] at hkeeps
    obtain ⟨htouched, hmeets⟩ := hkeeps
    obtain ⟨rest', hmeeting'⟩ := hmeets.closes
    rw [List.countP_append, hmeeting.countP_closes, Nat.zero_add] at hmeeting'
    exact ⟨htouched, _, rest', hclosed' n hclosed, hmeeting'⟩
  | rests hasker hclosed' =>
    rw [hasker]
    exact ⟨.nothing, n, rest, hclosed' n hclosed, hmeeting⟩
  | finishes hasker hclosed' =>
    rw [hasker]
    exact ⟨.nothing, n, rest, hclosed' n hclosed, hmeeting.finish⟩

/-- Other cores leave a pair as it is. -/
theorem Paired.congr (h : Paired p s f c) {f' : Nat → Position} (hprimary : f' c = f c)
    (hreceiver : f' (c + p.signalOffset.toNat) = f (c + p.signalOffset.toNat))
    (hdesk : s'.boxes.desk (p.link c) = s.boxes.desk (p.link c)) : Paired p s' f' c := by
  unfold Paired
  rw [hprimary, hreceiver, hdesk]
  exact h

/-- The receiver of a primary is a core, and no primary. -/
theorem RunPlan.Fits.receiver_lt (hfits : p.Fits) (hneeds : p.needsReceivers = true)
    (hc : c < p.primaries.toNat) :
    c + p.signalOffset.toNat < p.cores.toNat ∧ p.primaries.toNat ≤ c + p.signalOffset.toNat := by
  obtain ⟨hoffset, hlast⟩ := hfits.receivers hneeds
  omega

theorem Formed.done_of_served (h : Formed p 0 s f) (hfits : p.Fits)
    (hneeds : p.needsReceivers = true) (hc : c < p.primaries.toNat) {a : Answerer}
    (ha : (f (c + p.signalOffset.toNat)).Serves (p.link c) a) {k : Nat}
    (hk : a = .serving (p.link c) ⟨.ended, k⟩) : s.done.isSet = true := by
  obtain ⟨hlt, hle⟩ := hfits.receiver_lt hneeds hc
  exact h.ending _ hlt hle (ha.ending_iff.2 ⟨k, hk⟩)

/-- While the flag is set all primaries have finished. -/
theorem Formed.finished (h : Formed p 0 s f) (hc : c < p.primaries.toNat) {x : Primary}
    (hx : (f c).Measures p c x) (hdone : s.done.isSet = true) : x.duty = .ended := by
  have hpending := h.census.done_iff.1 hdone c hc
  rw [hx.pending_eq] at hpending
  by_contra hne
  rw [if_neg hne] at hpending
  cases hpending

/-- A step of a primary keeps its pair. -/
theorem Paired.primary (hfits : p.Fits) (hformed : Formed p 0 s f)
    (hneeds : p.needsReceivers = true) (hc : c < p.primaries.toNat) (h : Paired p s f c) :
    s.boxes.Touched (p.link c) ((f c).step p c r s).2.boxes ∧
      Paired p ((f c).step p c r s).2 (update f c ((f c).step p c r s).1) c := by
  obtain ⟨x, a, n, rest, hx, ha, hclosed, hmeeting⟩ := h
  have hhosts := hformed.hosts hfits hneeds hc
  have hne : c + p.signalOffset.toNat ≠ c := by
    have := hfits.offset
    omega
  have hreceiver : (update f c ((f c).step p c r s).1 (c + p.signalOffset.toNat)).Serves
      (p.link c) a := by
    rw [update_of_ne hne]
    exact ha
  rcases hx.step (r := r) (Role.assign_primary hc) fun _ => hhosts with
    ⟨hpasses, -, hx'⟩ | ⟨hpos, hended, hstep, hfit⟩
  · -- it is at its gate or has come to its end, and the trip is where it was
    refine ⟨by rw [hpasses.shared]; exact .nothing, x, a, n, rest, ?_, hreceiver, hclosed, ?_⟩
    · rw [update_self]
      exact hx'
    · rw [hpasses.shared]
      exact hmeeting
  · have hx' : (update f c ((f c).step p c r s).1 c).Measures p c (x.step p c r s).1 := by
      rw [update_self, hstep]
      exact .during hfit
    obtain ⟨htouched, n', rest', hclosed', hmeeting'⟩ :=
      (Primary.sends (r := r) (x := x) hneeds hhosts).meets hhosts hclosed hmeeting
        fun k hk => by
          rw [hformed.finished hc hx (hformed.done_of_served hfits hneeds hc ha hk)]
          rfl
    rw [hstep] at hreceiver hx' ⊢
    exact ⟨htouched, _, a, n', rest', hx', hreceiver, hclosed', hmeeting'⟩

/-- A step of a receiver keeps its pair. -/
theorem Paired.receiver (hfits : p.Fits) (hformed : Formed p 0 s f)
    (hneeds : p.needsReceivers = true) (hc : c < p.primaries.toNat) (h : Paired p s f c)
    (hi : i = c + p.signalOffset.toNat) :
    s.boxes.Touched (p.link c) ((f i).step p i r s).2.boxes ∧
      Paired p ((f i).step p i r s).2 (update f i ((f i).step p i r s).1) c := by
  subst hi
  obtain ⟨x, a, n, rest, hx, ha, hclosed, hmeeting⟩ := h
  have hhosts := hformed.hosts hfits hneeds hc
  obtain ⟨hlt, hle⟩ := hfits.receiver_lt hneeds hc
  have hne : c ≠ c + p.signalOffset.toNat := by omega
  have hsender := RunPlan.sender?_receiver hneeds hc
  have hrole : (Role.assign p (c + p.signalOffset.toNat)).work p =
      .answering (p.link c) .fresh := by
    rw [Role.assign_receiver hle hsender, Role.work, (RunPlan.link_role hsender).1]
  have hprimary : ∀ pos, (update f (c + p.signalOffset.toNat) pos c).Measures p c x := fun pos => by
    rw [update_of_ne hne]
    exact hx
  rcases ha.step (r := r) hrole hhosts (p.link_receiver c) rfl with
    ⟨hpasses, ha'⟩ | ⟨boxes, entries, a', hstep, hshared, htouched, -, ha'⟩
  · refine ⟨by rw [hpasses.shared]; exact .nothing, x, a, n, rest, hprimary _, ?_, hclosed, ?_⟩
    · rw [update_self]
      exact ha'
    · rw [hpasses.shared]
      exact hmeeting
  · -- with the flag set its sender has finished, so it may end
    have hkeeps := hmeeting.answerer (p.link_receiver c) hhosts s.done.isSet r.cycles rfl
      fun hdone => by
        rw [hformed.finished hc hx hdone]
        rfl
    have hnone := Answerer.countP_closes (p.link c).sender p.signalOffset (p.link c).payload
      s.done.isSet r.cycles s.boxes a
    rw [hstep] at hkeeps hnone
    obtain ⟨rest', hmeeting'⟩ := hkeeps.2.closes
    rw [List.countP_append, hmeeting.countP_closes, hnone] at hmeeting'
    rw [hshared]
    refine ⟨htouched, x, a', n, rest', hprimary _, ?_, hclosed, hmeeting'⟩
    rw [update_self]
    exact ha'

/-! ## The primary and the core that flushes -/

/-- The primary and the core that flushes stand where they are after as many turns as requests have
returned, as long as the number of requests is a word; the primary waits for its last request. -/
def Lockstep (p : RunPlan) (requests : Nat) (s : Shared) (f : Nat → Position) (i : Nat) : Prop :=
  ∃ x q k, (f 0).Measures p 0 x ∧ (f i).Flushes q ∧ x.Counts p Duty.asked k ∧
    (∀ number, x.duty.request = .waiting number → s.handshake.requested = number) ∧
    (requests < 2 ^ 64 → ∃ deeds, k + deeds.countP Deed.announces = requests ∧
      Phase k s.handshake x.duty.request q deeds)

/-- A turn that is not over has not returned. -/
theorem Phase.countP_returns {k : Nat} {h : Handshake} {request : Request} {q : Flusher}
    {deeds : List Deed} (hp : Phase k h request q deeds) : deeds.countP Deed.returns = 0 := by
  obtain ⟨part, hpart, rfl⟩ := hp.proper
  have hearly : ((turn (k + 1)).take 4).countP Deed.returns = 0 := rfl
  exact Nat.le_zero.1 (hearly ▸
    (List.take_sublist_take_left (Nat.le_of_lt_succ hpart)).countP_le)

theorem Request.countP_announces (q q' : Request) :
    (q.deed? q').toList.countP Deed.announces = q.announcements := by
  cases q with
  | waiting number => cases q' <;> rfl
  | starting | announcing | ended => rfl

theorem Request.step_requested {q : Request} {h : Handshake}
    (hpending : ∀ number, q = .waiting number → h.requested = number) {number : UInt64}
    (hnext : (q.step h).1.next = .waiting number) : (q.step h).2.requested = number := by
  cases q with
  | announcing number' =>
    cases hnext
    rfl
  | waiting number' =>
    by_cases hless : h.completed < number'
    · rw [Request.step_waiting hless] at hnext ⊢
      cases hnext
      exact hpending number rfl
    · rw [Request.step_returning hless] at hnext
      cases hnext
  | starting | ended => cases hnext

/-- The primary waits for the number that it has announced last. -/
theorem Primary.Requests.pending {x x' : Primary} {h h' : Handshake} (hstep : x.Requests p h x' h')
    (hpending : ∀ number, x.duty.request = .waiting number → h.requested = number) :
    ∀ number, x'.duty.request = .waiting number → h'.requested = number := by
  intro number hnumber
  cases hstep with
  | asks hrequest =>
    rw [hrequest] at hnumber
    exact Request.step_requested hpending hnumber
  | rests hrequest =>
    rw [hrequest] at hnumber
    exact hpending number hnumber

/-- What a step of the primary makes of its turn, while the core that flushes serves. -/
theorem Primary.Requests.turns {x x' : Primary} {h h' : Handshake} {q : Flusher} {k requests : Nat}
    (hstep : x.Requests p h x' h') (hasked : x.Counts p Duty.asked k) (hserves : q.next ≠ .ended)
    (hphase : requests < 2 ^ 64 → ∃ deeds, k + deeds.countP Deed.announces = requests ∧
      Phase k h x.duty.request q deeds) :
    ∃ k', x'.Counts p Duty.asked k' ∧ (requests + x.duty.request.announcements < 2 ^ 64 →
      ∃ deeds, k' + deeds.countP Deed.announces = requests + x.duty.request.announcements ∧
        Phase k' h' x'.duty.request q deeds) := by
  cases hstep with
  | asks hrequest hasked' =>
    refine ⟨_, hasked' k hasked, fun hword => ?_⟩
    obtain ⟨deeds, rfl, hp⟩ := hphase (by omega)
    obtain ⟨k', deeds', hturns, hp'⟩ := hp.primary hserves (by omega)
    -- both counts can be read off what was done
    have hreturns := congrArg (List.countP Deed.returns) hturns
    have hannounces := congrArg (List.countP Deed.announces) hturns
    simp only [List.countP_append, countP_turns (p := Deed.returns) fun _ => rfl, hp.countP_returns,
      hp'.countP_returns, Nat.zero_add, Nat.add_zero] at hreturns
    simp only [List.countP_append, countP_turns (p := Deed.announces) fun _ => rfl,
      Request.countP_announces] at hannounces
    rw [hrequest, hreturns]
    exact ⟨deeds', by omega, hp'⟩
  | rests hrequest hquiet hasked' =>
    refine ⟨k, hasked' k hasked, fun hword => ?_⟩
    rw [hquiet, hrequest]
    exact hphase (by omega)

theorem Lockstep.congr {requests : Nat} (h : Lockstep p requests s f i) {f' : Nat → Position}
    (hprimary : f' 0 = f 0) (hflusher : f' i = f i) (hshared : s'.handshake = s.handshake) :
    Lockstep p requests s' f' i := by
  unfold Lockstep
  rw [hprimary, hflusher, hshared]
  exact h

/-- While the primary is at work the core that flushes serves. -/
theorem Formed.serves (h : Formed p 0 s f) (hi : i < p.cores.toNat)
    (hle : p.primaries.toNat ≤ i) {q : Flusher} (hq : (f i).Flushes q)
    (hc : c < p.primaries.toNat) {x : Primary} (hx : (f c).Measures p c x)
    (hended : x.duty ≠ .ended) : q.next ≠ .ended := fun hnext =>
  hended (h.finished hc hx (h.ending i hi hle (hq.ending_iff.2 hnext)))

/-- A step of the primary keeps the lock-step. -/
theorem Lockstep.primary {requests : Nat} (hfits : p.Fits) (hformed : Formed p 0 s f)
    (hresponse : p.workload = .response) (hi : i < p.cores.toNat) (hle : p.primaries.toNat ≤ i)
    (h : Lockstep p requests s f i) :
    Lockstep p (requests + (f 0).requests) ((f 0).step p 0 r s).2
      (update f 0 ((f 0).step p 0 r s).1) i := by
  obtain ⟨x, q, k, hx, hq, hasked, hpending, hphase⟩ := h
  have hone := (hfits.response hresponse).1
  have hneeds := RunPlan.needsReceivers_of_response hresponse
  have hflusher : (update f 0 ((f 0).step p 0 r s).1 i).Flushes q := by
    rw [update_of_ne (by omega)]
    exact hq
  rcases hx.step (r := r) (Role.assign_primary (by omega)) fun _ =>
      hformed.hosts hfits hneeds (by omega) with
    ⟨hpasses, hquiet, hx'⟩ | ⟨hpos, hended, hstep, hfit⟩
  · refine ⟨x, q, k, by rwa [update_self], hflusher, hasked, ?_, ?_⟩
    · rw [hpasses.shared]
      exact hpending
    · rw [hquiet, hpasses.shared]
      exact hphase
  · -- it has not finished, so the flag is clear and the core that flushes still serves
    have hrequests := Primary.requests (i := 0) (r := r) (x := x) (s := s) hresponse
    have hserves := hformed.serves hi hle hq (c := 0) (by omega) hx hended
    obtain ⟨k', hasked', hphase'⟩ := hrequests.turns hasked hserves hphase
    rw [hpos, Position.requests_measuring, ← hpos]
    rw [hstep] at hflusher ⊢
    exact ⟨_, q, k', by rw [update_self]; exact .during hfit, hflusher, hasked',
      hrequests.pending hpending, hphase'⟩

theorem Flusher.step_requested (done : Bool) (h : Handshake) (q : Flusher) :
    (q.step done h).2.requested = h.requested := by
  obtain ⟨next, served⟩ := q
  cases next <;> rfl

/-- A step of the core that flushes keeps the lock-step. -/
theorem Lockstep.flusher {requests : Nat} (hfits : p.Fits) (hformed : Formed p 0 s f)
    (hresponse : p.workload = .response) (hrole : Role.assign p i = .flusher)
    (hle : p.primaries.toNat ≤ i) (h : Lockstep p requests s f i) :
    Lockstep p requests ((f i).step p i r s).2 (update f i ((f i).step p i r s).1) i := by
  obtain ⟨x, q, k, hx, hq, hasked, hpending, hphase⟩ := h
  have hone := (hfits.response hresponse).1
  have hprimary : (update f i ((f i).step p i r s).1 0).Measures p 0 x := by
    rw [update_of_ne (by omega)]
    exact hx
  rcases hq.step (r := r) (s := s) hrole with ⟨hpasses, hq'⟩ | ⟨hpos, hended, hstep, lines, hshared⟩
  · refine ⟨x, q, k, hprimary, by rwa [update_self], hasked, ?_, ?_⟩
    · rw [hpasses.shared]
      exact hpending
    · rw [hpasses.shared]
      exact hphase
  · have hdone : s.done.isSet = true → x.duty.request = .starting := fun hset => by
      rw [hformed.finished (by omega) hx hset]
      rfl
    rw [hshared]
    refine ⟨x, _, k, hprimary, by rw [update_self, hstep]; exact .during _, hasked, ?_, ?_⟩
    · intro number hnumber
      exact (Flusher.step_requested ..).trans (hpending number hnumber)
    · intro hword
      obtain ⟨deeds, rfl, hp⟩ := hphase hword
      refine ⟨_, ?_, hp.flusher hdone hword⟩
      have hquiet : ∀ next next' : Flushing,
          (next.deed? next').toList.countP Deed.announces = 0 := fun next next' => by
        cases next <;> first | rfl | cases next' <;> rfl
      rw [List.countP_append, hquiet, Nat.add_zero]

/-! ## Runs without losses that matter -/

/-- A run that is formed, with all primaries, all receivers and the core that flushes present. -/
structure Sound (p : RunPlan) (requests : Nat) (s : Shared) (f : Nat → Position) : Prop where
  formed : Formed p 0 s f
  present : ∀ c < p.primaries.toNat, f c ≠ .lost
  pairs : p.needsReceivers = true → ∀ c < p.primaries.toNat, Paired p s f c
  lockstep : p.workload = .response → ∀ i, p.firstFree? = some i → Lockstep p requests s f i

section Step

variable {requests : Nat}

theorem Position.Measures.ne_lost {x : Primary} (h : pos.Measures p i x) : pos ≠ .lost := by
  cases h <;> exact nofun

theorem Position.Fills.requests_eq {role : Role} (h : pos.Fills p i role)
    (hrole : role ≠ .primary) : pos.requests = 0 := by
  cases h with
  | primary => exact absurd rfl hrole
  | receiver h => cases h <;> rfl
  | flusher h => cases h <;> rfl
  | interferer h => cases h <;> rfl
  | idle h => cases h <;> rfl
  | lost => rfl

/-- Another pair finds its desk as it was. -/
theorem RunPlan.Fits.desk_other (hfits : p.Fits) (hneeds : p.needsReceivers = true)
    {m m' : Mailboxes} {c' : Nat} (hc : c < p.primaries.toNat) (hc' : c' < p.primaries.toNat)
    (hne : c ≠ c') (htouched : m.Touched (p.link c) m') :
    m'.desk (p.link c') = m.desk (p.link c') := by
  have hoffset := (hfits.receivers hneeds).1
  have hreceiver := hfits.receiver_eq hneeds hc
  have hreceiver' := hfits.receiver_eq hneeds hc'
  refine htouched.desk_other ?_ ?_ ?_ ?_
  · exact hne
  · rw [hreceiver']
    show c ≠ _
    omega
  · rw [hreceiver]
    show _ ≠ c'
    omega
  · rw [hreceiver, hreceiver']
    omega

/-- A step that touches one pair only keeps all. -/
theorem Sound.pairs_update (h : Sound p requests s f) (hfits : p.Fits)
    (hneeds : p.needsReceivers = true) (hc : c < p.primaries.toNat)
    (hi : i = c ∨ i = c + p.signalOffset.toNat)
    (hown : s.boxes.Touched (p.link c) s'.boxes ∧ Paired p s' (update f i pos) c) :
    ∀ c' < p.primaries.toNat, Paired p s' (update f i pos) c' := by
  intro c' hc'
  have hoffset := (hfits.receivers hneeds).1
  rcases eq_or_ne c c' with rfl | hne
  · exact hown.2
  · exact (h.pairs hneeds c' hc').congr (update_of_ne (by omega) _ _) (update_of_ne (by omega) _ _)
      (hfits.desk_other hneeds hc hc' hne hown.1)

/-- A step of a core without a mailbox keeps all pairs. -/
theorem Sound.pairs_other (h : Sound p requests s f)
    (hle : p.primaries.toNat ≤ i) (hsender : p.sender? i = none) (hboxes : s'.boxes = s.boxes) :
    p.needsReceivers = true → ∀ c < p.primaries.toNat, Paired p s' (update f i pos) c := by
  intro hneeds c hc
  have hne : c + p.signalOffset.toNat ≠ i := fun heq => by
    rw [← heq, RunPlan.sender?_receiver hneeds hc] at hsender
    cases hsender
  exact (h.pairs hneeds c hc).congr (update_of_ne (by omega) _ _) (update_of_ne hne _ _)
    (by rw [hboxes])

theorem Sound.step_primary (hfits : p.Fits) (h : Sound p requests s f)
    (hi : i < p.cores.toNat) (hlt : i < p.primaries.toNat) :
    Sound p (requests + (f i).requests) ((f i).step p i r s).2
      (update f i ((f i).step p i r s).1) where
  formed := h.formed.step hfits hi
  present c hc := by
    rcases eq_or_ne c i with rfl | hne
    · have hfills := h.formed.fills c hi
      rw [Role.assign_primary hlt] at hfills
      obtain ⟨x, hx⟩ := hfills.measures.resolve_left (h.present c hc)
      rw [update_self]
      rcases hx.step (r := r) (Role.assign_primary hlt) fun hneeds =>
          h.formed.hosts hfits hneeds hlt with ⟨-, -, hx'⟩ | ⟨-, -, hstep, -⟩
      · exact hx'.ne_lost
      · rw [hstep]
        exact nofun
    · rw [update_of_ne hne]
      exact h.present c hc
  pairs hneeds := h.pairs_update hfits hneeds hlt (.inl rfl)
    ((h.pairs hneeds i hlt).primary hfits h.formed hneeds hlt)
  lockstep hresponse j hj := by
    obtain ⟨hle, hlt', -, -⟩ := RunPlan.firstFree?_eq_some_iff.1 hj
    obtain rfl : i = 0 := by
      have := (hfits.response hresponse).1
      omega
    exact (h.lockstep hresponse j hj).primary hfits h.formed hresponse hlt' hle

theorem Sound.step_receiver (hfits : p.Fits) (h : Sound p requests s f)
    (hi : i < p.cores.toNat) (hle : p.primaries.toNat ≤ i) (hc : p.sender? i = some c) :
    Sound p requests ((f i).step p i r s).2 (update f i ((f i).step p i r s).1) where
  formed := h.formed.step hfits hi
  present c hc := by
    rw [update_of_ne (by omega)]
    exact h.present c hc
  pairs hneeds := by
    obtain ⟨-, hlt, hi'⟩ := RunPlan.link_role hc
    exact h.pairs_update hfits hneeds hlt (.inr hi')
      ((h.pairs hneeds c hlt).receiver hfits h.formed hneeds hlt hi')
  lockstep hresponse j hj := by
    have hneeds := RunPlan.needsReceivers_of_response hresponse
    obtain ⟨hlink, hlt, hi'⟩ := RunPlan.link_role hc
    obtain ⟨-, a, -, -, -, ha, -, -⟩ := h.pairs hneeds c hlt
    rw [← hi'] at ha
    -- a receiver leaves the counters of the lock-step alone
    have hhandshake : ((f i).step p i r s).2.handshake = s.handshake := by
      rcases ha.step (r := r) (i := i) (by rw [Role.assign_receiver hle hc, Role.work, hlink])
          (h.formed.hosts hfits hneeds hlt) (p.link_receiver c) rfl with
        ⟨hpasses, -⟩ | ⟨boxes, -, -, -, hshared, -⟩
      · rw [hpasses.shared]
      · rw [hshared]
    have hne : j ≠ i := fun heq => by
      obtain ⟨-, -, hnone, -⟩ := RunPlan.firstFree?_eq_some_iff.1 hj
      rw [heq, hc] at hnone
      cases hnone
    have hpos := hfits.primaries.1
    exact (h.lockstep hresponse j hj).congr (update_of_ne (by omega) _ _) (update_of_ne hne _ _)
      hhandshake

theorem Sound.step_flusher (hfits : p.Fits) (h : Sound p requests s f) (hi : i < p.cores.toNat)
    (hresponse : p.workload = .response) (hfree : p.firstFree? = some i) :
    Sound p requests ((f i).step p i r s).2 (update f i ((f i).step p i r s).1) := by
  obtain ⟨hle, -, hsender, -⟩ := RunPlan.firstFree?_eq_some_iff.1 hfree
  have hrole := Role.assign_flusher hresponse hfree
  refine ⟨h.formed.step hfits hi, fun c hc => ?_, h.pairs_other hle hsender ?_,
    fun _ j hj => ?_⟩
  · rw [update_of_ne (by omega)]
    exact h.present c hc
  · obtain ⟨-, q, -, -, hq, -⟩ := h.lockstep hresponse i hfree
    rcases hq.step (r := r) (s := s) hrole with ⟨hpasses, -⟩ | ⟨-, -, -, lines, hshared⟩
    · rw [hpasses.shared]
    · rw [hshared]
  · obtain rfl : i = j := Option.some.inj (hfree.symm.trans hj)
    exact (h.lockstep hresponse i hfree).flusher hfits h.formed hresponse hrole hle

/-- A core of the background changes nothing for the others, whatever becomes of it. -/
theorem Sound.move_background (hfits : p.Fits) (h : Sound p requests s f)
    (hformed : Formed p 0 s' (update f i pos)) (hle : p.primaries.toNat ≤ i)
    (hsender : p.sender? i = none) (hfree : p.workload = .response → p.firstFree? ≠ some i)
    (hboxes : s'.boxes = s.boxes) (hhandshake : s'.handshake = s.handshake) :
    Sound p requests s' (update f i pos) := by
  refine ⟨hformed, fun c hc => ?_, h.pairs_other hle hsender hboxes,
    fun hresponse j hj => ?_⟩
  · rw [update_of_ne (by omega)]
    exact h.present c hc
  · have hne : j ≠ i := fun heq => hfree hresponse (heq ▸ hj)
    have hpos := hfits.primaries.1
    exact (h.lockstep hresponse j hj).congr (update_of_ne (by omega) _ _) (update_of_ne hne _ _)
      hhandshake

/-- A step of a core of the background is one of its gate, or none. -/
theorem Formed.background {lost : Nat} (h : Formed p lost s f) (hi : i < p.cores.toNat)
    (hrole : Role.assign p i = p.background.role) :
    (f i).Passes p s ((f i).step p i r s).1 ((f i).step p i r s).2 := by
  have hfills := h.fills i hi
  have hlost : f i = .lost → (f i).Passes p s ((f i).step p i r s).1 ((f i).step p i r s).2 :=
    fun hf => by
      rw [hf]
      exact .still rfl rfl
  rcases p.background.role_eq with hb | hb <;> rw [hb] at hrole <;> rw [hrole] at hfills
  · exact hfills.loads.elim hlost fun hloads => (hloads.step hrole).1
  · exact hfills.idles.elim hlost fun hidles => (hidles.step hrole).1

/-- A step of a core keeps a run sound. -/
theorem Sound.step (hfits : p.Fits) (h : Sound p requests s f) (hi : i < p.cores.toNat) :
    Sound p (requests + (f i).requests) ((f i).step p i r s).2
      (update f i ((f i).step p i r s).1) := by
  have hquiet : p.primaries.toNat ≤ i → (f i).requests = 0 := fun hle =>
    (h.formed.fills i hi).requests_eq fun hrole =>
      absurd (Role.assign_eq_primary_iff.1 hrole) (by omega)
  rcases Role.assign_cases p i with
    ⟨hlt, -⟩ | ⟨hle, c, hc, -⟩ | ⟨hresponse, hfree, -⟩ | ⟨hle, hsender, hfree, hrole⟩
  · exact h.step_primary hfits hi hlt
  · rw [hquiet hle]
    exact h.step_receiver hfits hi hle hc
  · rw [hquiet (RunPlan.firstFree?_eq_some_iff.1 hfree).1]
    exact h.step_flusher hfits hi hresponse hfree
  · have hpasses := h.formed.background (r := r) hi hrole
    rw [hquiet hle]
    exact h.move_background hfits (h.formed.step hfits hi) hle hsender hfree
      (by rw [hpasses.shared]) (by rw [hpasses.shared])

/-- The loss of a core of the background keeps a run sound. -/
theorem Sound.loses (hfits : p.Fits) (h : Sound p requests s f) (hwork : (f i).atWork = true)
    (hle : p.primaries.toNat ≤ i) (hsender : p.sender? i = none)
    (hfree : p.workload = .response → p.firstFree? ≠ some i) :
    Sound p requests s (update f i .lost) := by
  have hformed := h.formed.loses hwork
  rw [RunPlan.losses, if_neg (Nat.not_lt.2 hle)] at hformed
  exact h.move_background hfits hformed hle hsender hfree rfl rfl

theorem Sound.ticks (h : Sound p requests s f) (t : Tick) :
    Sound p requests { s with ticks := t } f :=
  ⟨h.formed.ticks t, h.present, h.pairs, h.lockstep⟩

theorem sound_start (hfits : p.Fits)
    (hf : ∀ i < p.cores.toNat, f i = (Role.assign p i).opening) : Sound p 0 (.start p) f where
  formed := formed_start hfits hf
  present c hc := by
    have hle := hfits.primaries.2
    rw [hf c (by omega), Role.assign_primary hc]
    rintro ⟨⟩
  pairs hneeds c hc := by
    obtain ⟨hlt, hle⟩ := hfits.receiver_lt hneeds hc
    have hsender := RunPlan.sender?_receiver hneeds hc
    have hduty : (Primary.start p).duty = .connecting := if_pos hneeds
    have hword : (UInt64.ofNat c).toNat = c :=
      UInt64.toNat_ofNat_of_lt' (hc.trans p.primaries.toNat_lt)
    refine ⟨.start p, .outside, 0, [], ?_, ?_, ?_, ?_⟩
    · rw [hf c (by omega), Role.assign_primary hc]
      exact .before .outside
    · rw [hf _ hlt, Role.assign_receiver hle hsender, Role.opening, hword]
      exact .binding
    · rw [Primary.Counts, hduty]
      show 0 + p.loop.warmup.toNat = p.loop.warmup.toNat + 0 + 0
      omega
    · have hdesk : (Shared.start p).boxes.desk (p.link c) = ⟨0, 0, false⟩ := by
        simp only [Shared.start, Mailboxes.desk, Mailboxes.peek_create, Mailboxes.flag_create]
      rw [hdesk, hduty]
      exact .apart (.inr rfl) (.inl rfl) rfl
  lockstep hresponse i hfree := by
    have hduty : (Primary.start p).duty = .connecting :=
      if_pos (RunPlan.needsReceivers_of_response hresponse)
    refine ⟨.start p, .fresh, 0, ?_, ?_, ?_, ?_, fun _ => ⟨[], rfl, ?_⟩⟩
    · rw [hf 0 hfits.cores, Role.assign_primary hfits.primaries.1]
      exact .before .outside
    · rw [hf i (RunPlan.firstFree?_eq_some_iff.1 hfree).2.1, Role.assign_flusher hresponse hfree]
      exact .before .outside
    · rw [Primary.Counts, hduty]
      show 0 + p.loop.warmup.toNat = p.loop.warmup.toNat + 0 + 0
      omega
    · rw [hduty]
      rintro _ ⟨⟩
    · rw [hduty]
      exact .resting (.inl rfl) (.inl rfl)

end Step

end LatencyGauge
