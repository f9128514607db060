/-
A primary that makes one request after another, the flusher that serves them and any number of
followers, in any interleaving of their steps. What they do comes in turns: a request is
announced, one flush begins and ends, it is acknowledged, and the request returns with its number;
the next turn begins after that. Nobody sees a number whose flush is not over, and a pending request
returns once the flusher has taken a few more steps, whatever the others do in between.

Requests count from one, and all of this holds as long as their number is a word.
-/
import Mathlib.Logic.Function.Basic
import LatencyGauge.Proofs.Iteration
import LatencyGauge.Proofs.Sync.Turns
import LatencyGauge.Sync.Completion

namespace LatencyGauge

/-! ## A primary, a flusher and followers -/

/-- A call of a follower that has returned: the number it passed and what it got. -/
structure Followed where
  seen : UInt64
  got : Option UInt64
deriving DecidableEq, Repr

/-- Somebody who follows over and over: where the last call stands, and the calls that have
returned, in order. Whoever has not called yet stands where a call has ended. -/
structure Caller where
  follower : Follower
  calls : List Followed
deriving DecidableEq, Repr

def Caller.fresh : Caller := ⟨.ended none, []⟩

/-- Calls, unless a call is under way. -/
def Caller.call (seen : UInt64) (c : Caller) : Caller :=
  if c.follower.over then { c with follower := .looking seen } else c

/-- One step of a call. -/
def Caller.step (done : Bool) (h : Handshake) (c : Caller) : Caller :=
  match c.follower, c.follower.step done h with
  | .looking seen, .ended got | .asking seen, .ended got => ⟨.ended got, c.calls ++ [⟨seen, got⟩]⟩
  | _, f => { c with follower := f }

/-- A primary, its flusher, the completion flag and as many followers; whether the primary makes no
more requests, and what was done so far. -/
structure Team (followers : Nat) where
  handshake : Handshake
  request : Request
  retired : Bool
  flusher : Flusher
  done : Completion
  callers : Fin followers → Caller
  history : List Deed

variable {followers : Nat}

/-- Nothing done yet. -/
def Team.fresh (followers : Nat) : Team followers :=
  ⟨.fresh, .starting, false, .fresh, .clear, fun _ => .fresh, []⟩

/-- A step of somebody. -/
inductive Team.Act (followers : Nat) where
  | primary
  | retire
  | complete
  | flusher
  | call (i : Fin followers) (seen : UInt64)
  | follower (i : Fin followers)
deriving DecidableEq, Repr

/-- One step of somebody. The primary retires between two requests, and the flag is set after
that. -/
def Team.step (s : Team followers) : Act followers → Team followers
  | .primary =>
    if s.retired then s
    else
      let (request, handshake) := s.request.step s.handshake
      { s with
        handshake := handshake
        request := request.next
        history := s.history ++ (s.request.deed? request).toList }
  | .retire => if s.request = .starting then { s with retired := true } else s
  | .complete => if s.retired then { s with done := s.done.set.2 } else s
  | .flusher =>
    let (flusher, handshake) := s.flusher.step s.done.isSet s.handshake
    { s with
      handshake := handshake
      flusher := flusher
      history := s.history ++ (s.flusher.next.deed? flusher.next).toList }
  | .call i seen => { s with callers := Function.update s.callers i ((s.callers i).call seen) }
  | .follower i =>
    { s with callers := Function.update s.callers i ((s.callers i).step s.done.isSet s.handshake) }

/-- Steps in any order. -/
def Team.run (s : Team followers) (acts : List (Act followers)) : Team followers :=
  acts.foldl Team.step s

/-- The requests announced so far. -/
def Team.requests (s : Team followers) : Nat := s.history.countP Deed.announces

def Team.flushes (s : Team followers) : Nat := s.history.countP Deed.flushes

def Team.returns (s : Team followers) : Nat := s.history.countP Deed.returns

/-! ## Calls of followers -/

/-- What a call should get: a number greater than the one it passed whose flush is over, or nothing
once the flag is set. -/
def Followed.Right (flushes : Nat) (done : Bool) (c : Followed) : Prop :=
  match c.got with
  | some number => c.seen < number ∧ number.toNat ≤ flushes
  | none => done = true

theorem Followed.Right.later {flushes flushes' : Nat} {done done' : Bool} {c : Followed}
    (h : c.Right flushes done) (hle : flushes ≤ flushes') (hdone : done = true → done' = true) :
    c.Right flushes' done' := by
  obtain ⟨seen, got⟩ := c
  cases got with
  | none => exact hdone h
  | some number => exact ⟨h.1, Nat.le_trans h.2 hle⟩

theorem Caller.calls_call (seen : UInt64) (c : Caller) : (c.call seen).calls = c.calls := by
  unfold Caller.call
  split <;> rfl

/-- Every call that a step ends gets what it should. -/
theorem Caller.right_step {flushes : Nat} {done : Bool} {h : Handshake} {c : Caller}
    (hright : ∀ call ∈ c.calls, call.Right flushes done) (hflushed : h.completed.toNat ≤ flushes) :
    ∀ call ∈ (c.step done h).calls, call.Right flushes done := by
  obtain ⟨follower, calls⟩ := c
  cases follower with
  | ended number => exact hright
  | looking seen =>
    by_cases hnew : seen < h.completed
    · simp only [Caller.step, Follower.step, hnew, if_true, List.mem_append, List.mem_singleton]
      rintro call (hold | rfl)
      · exact hright call hold
      · exact ⟨hnew, hflushed⟩
    · simpa only [Caller.step, Follower.step, hnew, if_false] using hright
  | asking seen =>
    cases done with
    | false => exact hright
    | true =>
      simp only [Caller.step, Follower.step, if_true, List.mem_append, List.mem_singleton]
      rintro call (hold | rfl)
      · exact hright call hold
      · rfl

/-- Calls of somebody who passes on the last number that was got, `seen` at first. -/
def PassedOn : UInt64 → List Followed → Prop
  | _, [] => True
  | seen, c :: rest => c.seen = seen ∧ PassedOn (c.got.getD seen) rest

/-- Whoever passes on the last number gets ever greater ones. -/
theorem PassedOn.ascending {flushes : Nat} {done : Bool} {calls : List Followed}
    (hright : ∀ c ∈ calls, c.Right flushes done) {seen : UInt64} (hpassed : PassedOn seen calls) :
    (seen :: calls.filterMap Followed.got).Pairwise (· < ·) := by
  induction calls generalizing seen with
  | nil => simp
  | cons c rest ih =>
    obtain ⟨passed, got⟩ := c
    obtain ⟨rfl, hrest⟩ := hpassed
    have hlater := ih (fun c hc => hright c (List.mem_cons_of_mem _ hc)) hrest
    cases got with
    | none => exact hlater
    | some number =>
      have hless : passed < number := (hright _ (List.mem_cons_self ..)).1
      refine List.Pairwise.cons (fun b hb => ?_) hlater
      rcases List.mem_cons.1 hb with rfl | hb
      · exact hless
      · exact UInt64.lt_trans hless ((List.pairwise_cons.1 hlater).1 b hb)

/-! ## What holds of a team -/

/-- What is so of a team whose requests are few enough: all turns but the last are over; the flusher
ends after the flag is set, which is after the primary has retired, which is between two requests;
and every call of a follower got what it should. -/
structure Team.Sound (s : Team followers) : Prop where
  phase : ∃ k deeds, s.history = turns k ++ deeds ∧ Phase k s.handshake s.request s.flusher deeds
  ended : s.flusher.next = .ended → s.done.isSet = true
  complete : s.done.isSet = true → s.retired = true
  retired : s.retired = true → s.request = .starting
  followed : ∀ i, ∀ c ∈ (s.callers i).calls, c.Right s.flushes s.done.isSet

theorem Team.sound_fresh (followers : Nat) : (Team.fresh followers).Sound where
  phase := ⟨0, [], rfl, .resting (.inl rfl) (.inl rfl)⟩
  ended := nofun
  complete := nofun
  retired := nofun
  followed _ _ := nofun

theorem Team.history_step (s : Team followers) (a : Act followers) :
    s.history <+: (s.step a).history := by
  cases a <;> simp only [Team.step]
  case primary => split <;> simp
  case retire => split <;> simp
  case complete => split <;> simp
  case flusher => simp
  case call => simp
  case follower => simp

theorem Team.requests_le_step (s : Team followers) (a : Act followers) :
    s.requests ≤ (s.step a).requests := (s.history_step a).sublist.countP_le

theorem Team.flushes_le_step (s : Team followers) (a : Act followers) :
    s.flushes ≤ (s.step a).flushes := (s.history_step a).sublist.countP_le

section Counts

variable {s : Team followers} {k : Nat} {deeds : List Deed}

theorem Team.requests_eq (h : s.history = turns k ++ deeds) :
    s.requests = k + deeds.countP Deed.announces := by
  rw [Team.requests, h, List.countP_append, countP_turns fun _ => rfl]

theorem Team.flushes_eq (h : s.history = turns k ++ deeds) :
    s.flushes = k + deeds.countP Deed.flushes := by
  rw [Team.flushes, h, List.countP_append, countP_turns fun _ => rfl]

theorem Team.returns_eq (h : s.history = turns k ++ deeds) :
    s.returns = k + deeds.countP Deed.returns := by
  rw [Team.returns, h, List.countP_append, countP_turns fun _ => rfl]

end Counts

theorem Team.Sound.counts {s : Team followers} (h : s.Sound) (hfew : s.requests < 2 ^ 64) :
    Counts s.handshake s.flusher s.requests s.flushes s.returns := by
  obtain ⟨k, deeds, hhistory, hphase⟩ := h.phase
  rw [Team.requests_eq hhistory] at hfew ⊢
  rw [Team.flushes_eq hhistory, Team.returns_eq hhistory]
  exact hphase.counts hfew

theorem Team.Sound.primary {s : Team followers} (h : s.Sound) (hfew : s.requests < 2 ^ 64) :
    (s.step .primary).Sound := by
  cases hretired : s.retired with
  | true => simpa only [Team.step, hretired, if_true] using h
  | false =>
    -- the flag is not set yet, so the flusher still serves
    have hopen : s.done.isSet = true → False := fun hset => by
      simpa [hretired] using h.complete hset
    obtain ⟨k, deeds, hhistory, hphase⟩ := h.phase
    obtain ⟨k', deeds', hturns, hphase'⟩ :=
      hphase.primary (fun hended => hopen (h.ended hended)) (Team.requests_eq hhistory ▸ hfew)
    have hflushes := s.flushes_le_step .primary
    simp only [Team.step, hretired, Bool.false_eq_true, if_false] at hflushes ⊢
    exact ⟨⟨k', deeds', by simp only [← hturns, hhistory, List.append_assoc], hphase'⟩, h.ended,
      fun hset => (hopen hset).elim, nofun, fun i c hc => (h.followed i c hc).later hflushes id⟩

theorem Team.Sound.flusher {s : Team followers} (h : s.Sound) (hfew : s.requests < 2 ^ 64) :
    (s.step .flusher).Sound := by
  obtain ⟨k, deeds, hhistory, hphase⟩ := h.phase
  have hphase' := hphase.flusher (fun hset => h.retired (h.complete hset))
    (Team.requests_eq hhistory ▸ hfew)
  refine ⟨⟨k, _, ?_, hphase'⟩, fun hended => ?_, h.complete, h.retired, fun i c hc =>
    (h.followed i c hc).later (s.flushes_le_step .flusher) id⟩
  · simp only [Team.step, hhistory, List.append_assoc]
  · exact (Flusher.ended_step hended).elim h.ended id

/-- The calls of followers, if those of one are others now. -/
theorem Team.Sound.caller {s : Team followers} (h : s.Sound) {i : Fin followers} {c : Caller}
    (hright : ∀ call ∈ c.calls, call.Right s.flushes s.done.isSet) :
    Team.Sound { s with callers := Function.update s.callers i c } := by
  refine ⟨h.phase, h.ended, h.complete, h.retired, fun j => ?_⟩
  change ∀ call ∈ (Function.update s.callers i c j).calls, call.Right s.flushes s.done.isSet
  by_cases hj : j = i
  · subst hj
    rwa [Function.update_self]
  · rw [Function.update_of_ne hj]
    exact h.followed j

/-- Every step keeps a team sound. -/
theorem Team.Sound.step {s : Team followers} (h : s.Sound) (a : Act followers)
    (hfew : s.requests < 2 ^ 64) : (s.step a).Sound := by
  cases a with
  | primary => exact h.primary hfew
  | flusher => exact h.flusher hfew
  | retire =>
    simp only [Team.step]
    split
    case isTrue hrest => exact ⟨h.phase, h.ended, fun _ => rfl, fun _ => hrest, h.followed⟩
    case isFalse => exact h
  | complete =>
    simp only [Team.step]
    split
    case isTrue hretired =>
      exact ⟨h.phase, fun _ => rfl, fun _ => hretired, h.retired, fun i c hc =>
        (h.followed i c hc).later (Nat.le_refl _) fun _ => rfl⟩
    case isFalse => exact h
  | call i seen =>
    exact h.caller fun c hc => h.followed i c (by rwa [Caller.calls_call] at hc)
  | follower i =>
    have hcounts := h.counts hfew
    exact h.caller (Caller.right_step (h.followed i) (hcounts.completed ▸ hcounts.served))

/-- However the steps interleave, the team stays sound. -/
theorem Team.Sound.run {s : Team followers} (h : s.Sound) (acts : List (Act followers))
    (hfew : (s.run acts).requests < 2 ^ 64) : (s.run acts).Sound := by
  refine List.foldlRecOn (motive := fun s : Team followers => s.requests < 2 ^ 64 → s.Sound) acts
    Team.step (fun _ => h) (fun s ih a _ hfew => ?_) hfew
  have hbefore := Nat.lt_of_le_of_lt (s.requests_le_step a) hfew
  exact (ih hbefore).step a hbefore

/-! ## How long it takes -/

/-- Only the flusher changes where the flusher stands and what is acknowledged. -/
theorem Team.flusher_step (s : Team followers) {a : Act followers} (ha : a ≠ .flusher) :
    (s.step a).flusher = s.flusher ∧
      (s.step a).handshake.completed = s.handshake.completed := by
  cases a with
  | flusher => exact absurd rfl ha
  | primary =>
    simp only [Team.step]
    split
    · exact ⟨rfl, rfl⟩
    · cases hrequest : s.request <;> exact ⟨rfl, rfl⟩
  | retire | complete =>
    simp only [Team.step]
    split <;> exact ⟨rfl, rfl⟩
  | call | follower => exact ⟨rfl, rfl⟩

/-- The flusher does not lose count. -/
theorem Team.served_le_step (s : Team followers) (a : Act followers) :
    s.flusher.served ≤ (s.step a).flusher.served := by
  by_cases ha : a = .flusher
  · subst ha
    obtain ⟨h, request, retired, ⟨next, served⟩, done, callers, history⟩ := s
    cases next <;> simp [Team.step, Flusher.step]
  · exact Nat.le_of_eq (congrArg _ (s.flusher_step ha).1.symm)

theorem Team.isSet_step {s : Team followers} (hset : s.done.isSet = true) (a : Act followers) :
    (s.step a).done.isSet = true := by
  cases a with
  | primary | retire | complete =>
    simp only [Team.step]
    split <;> simp [hset]
  | flusher | call | follower => exact hset

/-- A step of the flusher acknowledges the last request, if it is not acknowledged yet, or gets
closer to that. -/
theorem Team.Sound.closer {s : Team followers} (h : s.Sound) (hfew : s.requests < 2 ^ 64) :
    s.requests ≤ (s.step .flusher).flusher.served ∨
      (s.step .flusher).flusher.next.lag (s.step .flusher).handshake.completed <
        s.flusher.next.lag s.handshake.completed := by
  obtain ⟨k, deeds, hhistory, hphase⟩ := h.phase
  by_cases hdone : s.requests ≤ s.flusher.served
  · exact .inl (Nat.le_trans hdone (s.served_le_step .flusher))
  · rw [Team.requests_eq hhistory] at hfew hdone ⊢
    exact hphase.lag_step (fun hset => h.retired (h.complete hset)) hfew (Nat.not_le.1 hdone)

/-- All requests so far are acknowledged once the flusher has taken six steps more. -/
theorem Team.Sound.acknowledged {s : Team followers} (h : s.Sound) (acts : List (Act followers))
    (hfew : (s.run acts).requests < 2 ^ 64) (henough : 6 ≤ acts.count .flusher) :
    s.requests ≤ (s.run acts).flusher.served := by
  -- a team with too many requests later on is not looked at
  refine foldl_reaches Team.step (· == .flusher)
    (fun t => t.requests < 2 ^ 64 → t.Sound ∧ s.requests ≤ t.requests)
    (fun t => t.requests < 2 ^ 64 → s.requests ≤ t.flusher.served)
    (fun t => t.flusher.next.lag t.handshake.completed) ?_ ?_ ?_ ?_ (fun _ => ⟨h, Nat.le_refl _⟩)
    acts (Nat.lt_of_le_of_lt (Flushing.lag_le ..) henough) hfew
  · intro t a hinv hafter
    have hbefore := Nat.lt_of_le_of_lt (t.requests_le_step a) hafter
    obtain ⟨hsound, hle⟩ := hinv hbefore
    exact ⟨hsound.step a hbefore, Nat.le_trans hle (t.requests_le_step a)⟩
  · intro t a hgoal hafter
    have hbefore := Nat.lt_of_le_of_lt (t.requests_le_step a) hafter
    exact Nat.le_trans (hgoal hbefore) (t.served_le_step a)
  · intro t a hown hinv
    obtain rfl := eq_of_beq hown
    by_cases hbefore : t.requests < 2 ^ 64
    · obtain ⟨hsound, hle⟩ := hinv hbefore
      exact (hsound.closer hbefore).imp_left fun hserved _ => Nat.le_trans hle hserved
    · exact .inl fun hafter =>
        absurd (Nat.lt_of_le_of_lt (t.requests_le_step .flusher) hafter) hbefore
  · intro t a hown
    have ha : a ≠ .flusher := ne_of_beq_false hown
    rw [(t.flusher_step ha).1, (t.flusher_step ha).2]

/-- All requests that are acknowledged have returned after one more step of the primary. -/
theorem Team.Sound.served_le_returns {s : Team followers} (h : s.Sound) :
    s.flusher.served ≤ (s.step .primary).returns := by
  obtain ⟨k, deeds, hhistory, hphase⟩ := h.phase
  cases hretired : s.retired with
  | true =>
    rw [h.retired hretired] at hphase
    rw [hphase.over.2]
    simp only [Team.step, hretired, if_true, Team.returns_eq hhistory]
    exact Nat.le_add_right k _
  | false =>
    have hstep : (s.step .primary).history = turns k ++
        (deeds ++ (s.request.deed? (s.request.step s.handshake).1).toList) := by
      simp only [Team.step, hretired, Bool.false_eq_true, if_false, hhistory, List.append_assoc]
    rw [Team.returns_eq hstep]
    exact hphase.served_le

/-- With the flag set nothing is done any more. -/
theorem Team.Sound.history_step_done {s : Team followers} (h : s.Sound)
    (hset : s.done.isSet = true) (a : Act followers) : (s.step a).history = s.history := by
  have hretired := h.complete hset
  cases a with
  | primary => simp only [Team.step, hretired, if_true]
  | flusher =>
    obtain ⟨k, deeds, hhistory, hphase⟩ := h.phase
    rw [h.retired hretired] at hphase
    simp only [Team.step, hset, hphase.deed_done, Option.toList_none, List.append_nil]
  | retire | complete =>
    simp only [Team.step]
    split <;> rfl
  | call | follower => rfl

/-- The flusher has ended once the flag is set and it has taken three steps more. -/
theorem Team.Sound.ends {s : Team followers} (h : s.Sound) (hdone : s.done.isSet = true)
    (acts : List (Act followers)) (hfew : s.requests < 2 ^ 64)
    (henough : 3 ≤ acts.count .flusher) : (s.run acts).flusher.next = .ended := by
  refine foldl_reaches Team.step (· == .flusher)
    (fun t => t.Sound ∧ t.requests < 2 ^ 64 ∧ t.done.isSet = true)
    (fun t => t.flusher.next = .ended) (fun t => t.flusher.next.rest) ?_ ?_ ?_ ?_ ⟨h, hfew, hdone⟩
    acts (Nat.lt_of_le_of_lt (Flushing.rest_le _) henough)
  · rintro t a ⟨hsound, hbefore, hset⟩
    refine ⟨hsound.step a hbefore, ?_, Team.isSet_step hset a⟩
    rwa [Team.requests, hsound.history_step_done hset a]
  · intro t a hended
    by_cases ha : a = .flusher
    · subst ha
      simp only [Team.step, Flusher.step, hended]
    · rwa [(t.flusher_step ha).1]
  · rintro t a hown ⟨hsound, hbefore, hset⟩
    obtain rfl := eq_of_beq hown
    obtain ⟨k, deeds, hhistory, hphase⟩ := hsound.phase
    rw [hsound.retired (hsound.complete hset)] at hphase
    simp only [Team.step, hset]
    exact hphase.rest_step
  · intro t a hown
    rw [(t.flusher_step (ne_of_beq_false hown)).1]

/-! ## All interleavings -/

/-- What a run comes to. What was done is whole turns and a part of one; at most one request is
ahead of the acknowledgements; a flusher that has ended has flushed once for each request, all of
which have returned; a call that a follower made got a number greater than the one it passed whose
flush is over, or nothing once the flag is set, and whoever passes on the last number gets ever
greater ones; and when the flusher has taken six steps more, whatever the others do in between, the
primary's next look finds its request acknowledged, while with the flag set three steps end the
flusher. -/
structure Team.InStep (s : Team followers) : Prop where
  turns : ∃ k, ∃ part < 5, s.history = turns k ++ (turn (k + 1)).take part
  requested : s.handshake.requested.toNat = s.requests
  ahead : s.handshake.completed ≤ s.handshake.requested ∧
    s.handshake.requested.toNat ≤ s.handshake.completed.toNat + 1
  served : s.flusher.next = .ended → s.flusher.served = s.requests ∧ s.flushes = s.requests ∧
    s.returns = s.requests
  followed : ∀ i, ∀ c ∈ (s.callers i).calls, c.Right s.flushes s.done.isSet
  ascending : ∀ i seen, PassedOn seen (s.callers i).calls →
    (seen :: (s.callers i).calls.filterMap Followed.got).Pairwise (· < ·)
  answered : ∀ acts, (s.run acts).requests < 2 ^ 64 → 6 ≤ acts.count .flusher →
    s.requests ≤ ((s.run acts).step .primary).returns
  ends : s.done.isSet = true → ∀ acts, 3 ≤ acts.count .flusher →
    (s.run acts).flusher.next = .ended

theorem Team.Sound.inStep {s : Team followers} (h : s.Sound) (hfew : s.requests < 2 ^ 64) :
    s.InStep where
  turns := by
    obtain ⟨k, deeds, hhistory, hphase⟩ := h.phase
    obtain ⟨part, hpart, rfl⟩ := hphase.proper
    exact ⟨k, part, hpart, hhistory⟩
  requested := (h.counts hfew).requested
  ahead := by
    obtain ⟨hrequested, hcompleted, hreturned, hserved, hflushed, hpending⟩ := h.counts hfew
    exact ⟨UInt64.le_iff_toNat_le.2 (by omega), by omega⟩
  served hended := by
    obtain ⟨k, deeds, hhistory, hphase⟩ := h.phase
    rw [h.retired (h.complete (h.ended hended))] at hphase
    obtain ⟨rfl, hserved⟩ := hphase.over
    rw [Team.requests_eq hhistory, Team.flushes_eq hhistory, Team.returns_eq hhistory]
    exact ⟨hserved, rfl, rfl⟩
  followed := h.followed
  ascending i seen := PassedOn.ascending (h.followed i)
  answered acts hfew' henough :=
    Nat.le_trans (h.acknowledged acts hfew' henough) (h.run acts hfew').served_le_returns
  ends hdone acts := h.ends hdone acts hfew

/-- However the steps of the primary, the flusher and the followers interleave, they are in step, as
long as the number of requests is a word. -/
theorem Team.run_inStep (acts : List (Act followers))
    (hfew : ((Team.fresh followers).run acts).requests < 2 ^ 64) :
    ((Team.fresh followers).run acts).InStep :=
  ((Team.sound_fresh followers).run acts hfew).inStep hfew

/-- A request that the flusher misses at its first look; a follower that sees its number before the
primary does, and nothing after the flag is set. -/
def missedAtFirst : List (Team.Act 1) :=
  [.flusher, .primary, .primary, .call 0 0, .follower 0, .flusher, .flusher, .flusher, .flusher,
    .flusher, .follower 0, .flusher, .follower 0, .primary, .retire, .complete, .flusher, .flusher,
    .flusher, .call 0 1, .follower 0, .follower 0]

/-- The request has one flush, the follower gets its number and then nothing, and the flusher ends
with the number of requests. -/
theorem Team.run_inStep_missed :
    ((Team.fresh 1).run missedAtFirst).requests < 2 ^ 64 ∧
      ((Team.fresh 1).run missedAtFirst).history = turn 1 ∧
      (((Team.fresh 1).run missedAtFirst).callers 0).calls = [⟨0, some 1⟩, ⟨1, none⟩] ∧
      ((Team.fresh 1).run missedAtFirst).flusher = ⟨.ended, 1⟩ ∧
      ((Team.fresh 1).run missedAtFirst).InStep := by
  have hfew : ((Team.fresh 1).run missedAtFirst).requests < 2 ^ 64 := by decide
  exact ⟨hfew, by decide, by decide, by decide, Team.run_inStep missedAtFirst hfew⟩

end LatencyGauge
