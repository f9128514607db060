/-
What the steps of many pairs come to, however they interleave. Every pair makes one round trip after
another: the sender empties its mailbox and posts a request; its receiver takes that request,
answers it once, and the sender receives this answer and closes its window. A receiver that has
returned has answered as many requests as its sender made measurements. Where answers are clock
readings and the clock does not go back, no window ends before it starts.
-/
import LatencyGauge.Proofs.Iteration
import LatencyGauge.Proofs.Measure.Verdict
import LatencyGauge.Proofs.Sync.Meeting

namespace LatencyGauge

/-! ## What holds of all pairs -/

section Traffic

variable {pairs : Nat} {offset : UInt64} {payload : Fin pairs → Payload}

/-- What is so of all pairs: no sum with the offset wraps around; their mailboxes and flags exist;
every pair stands somewhere; and a receiver ends after the flag is set, which is after all senders
have finished. -/
structure Traffic.Sound (offset : UInt64) (payload : Fin pairs → Payload) (s : Traffic pairs) :
    Prop where
  reach : ∀ c : Fin pairs, (UInt64.ofNat c + offset).toNat = c + offset.toNat
  hosts : ∀ c : Fin pairs, s.boxes.Hosts (coupleLink offset payload c)
  meets : ∀ c : Fin pairs, Meets (coupleLink offset payload c) 0 s.boxes (s.couple c).asker
    (s.couple c).answerer (s.couple c).log
  complete : s.done.isSet = true → ∀ c, (s.couple c).asker = .finished
  ended : ∀ (c : Fin pairs) k,
    (s.couple c).answerer = .serving (coupleLink offset payload c) ⟨.ended, k⟩ → s.done.isSet = true

theorem Traffic.sound_fresh {slots cores : UInt64} (hoffset : pairs ≤ offset.toNat)
    (hslots : pairs - 1 + offset.toNat < slots.toNat)
    (hcores : pairs - 1 + offset.toNat < cores.toNat) :
    (Traffic.fresh pairs slots cores).Sound offset payload where
  reach c := by
    have hlt := slots.toNat_lt
    exact toNat_ofNat_add (by omega)
  hosts c := by
    have hc := c.isLt
    constructor <;>
      simp only [coupleLink, Traffic.fresh, Mailboxes.create, Array.size_replicate] <;> omega
  meets c := by
    have hdesk : (Mailboxes.create slots.toNat cores.toNat).desk (coupleLink offset payload c) =
        ⟨0, 0, false⟩ := by
      simp only [Mailboxes.desk, Mailboxes.peek_create, Mailboxes.flag_create]
    exact .of hdesk (.apart (.inl rfl) (.inl rfl) rfl)
  complete := nofun
  ended _ _ := nofun

@[simp] theorem Traffic.put_self (s : Traffic pairs) (boxes : Mailboxes) (c : Fin pairs)
    (p : Couple) : (s.put boxes c p).couple c = p := Function.update_self ..

theorem Traffic.put_other (s : Traffic pairs) (boxes : Mailboxes) {c c' : Fin pairs} (p : Couple)
    (h : c' ≠ c) : (s.put boxes c p).couple c' = s.couple c' := Function.update_of_ne h ..

/-- What of a pair a change does not touch is as it was. -/
theorem Traffic.put_view {A : Type} (view : Couple → A) (s : Traffic pairs) (boxes : Mailboxes)
    {c c' : Fin pairs} {p : Couple} (h : c = c' → view p = view (s.couple c')) :
    view ((s.put boxes c' p).couple c) = view (s.couple c) := by
  by_cases hc : c = c'
  · subst hc
    rw [Traffic.put_self, h rfl]
  · rw [s.put_other boxes p hc]

/-- Whatever a step of one pair does to the mailboxes, another pair finds its desk as it was: the
mailboxes of senders are below the offset and those of receivers are not. -/
theorem desk_of_touched (hoffset : pairs ≤ offset.toNat) {m m' : Mailboxes} {c c' : Fin pairs}
    (h : m.Touched (coupleLink offset payload c) m') (hc : c' ≠ c) :
    m'.desk (coupleLink offset payload c') = m.desk (coupleLink offset payload c') := by
  have hlt := c.isLt
  have hlt' := c'.isLt
  have hne : (c' : Nat) ≠ c := fun heq => hc (Fin.ext heq)
  apply h.desk_other <;> simp only [coupleLink] <;> omega

/-- A step of one pair. -/
theorem Traffic.Sound.put {s : Traffic pairs} (h : s.Sound offset payload)
    (hoffset : pairs ≤ offset.toNat) {c : Fin pairs} {boxes : Mailboxes} {p : Couple}
    (htouched : s.boxes.Touched (coupleLink offset payload c) boxes)
    (hmeets : Meets (coupleLink offset payload c) 0 boxes p.asker p.answerer p.log)
    (hcomplete : (s.couple c).asker = .finished → p.asker = .finished)
    (hended : ∀ k, p.answerer = .serving (coupleLink offset payload c) ⟨.ended, k⟩ →
      s.done.isSet = true) : (s.put boxes c p).Sound offset payload where
  reach := h.reach
  hosts c' := by
    obtain ⟨hsender, hreceiver, hcore, hapart⟩ := h.hosts c'
    obtain ⟨hslots, hcores⟩ := htouched.size
    exact ⟨hslots ▸ hsender, hslots ▸ hreceiver, hcores ▸ hcore, hapart⟩
  meets c' := by
    by_cases hc : c' = c
    · subst hc
      rwa [Traffic.put_self]
    · rw [s.put_other boxes p hc]
      exact (h.meets c').congr (desk_of_touched hoffset htouched hc)
  complete hset c' := by
    by_cases hc : c' = c
    · subst hc
      rw [Traffic.put_self]
      exact hcomplete (h.complete hset c')
    · rw [s.put_other boxes p hc]
      exact h.complete hset c'
  ended c' k hends := by
    by_cases hc : c' = c
    · subst hc
      rw [Traffic.put_self] at hends
      exact hended k hends
    · rw [s.put_other boxes p hc] at hends
      exact h.ended c' k hends

/-- A step of a sender touches nothing but its desk and leaves the pair somewhere. -/
theorem Traffic.Sound.asker {s : Traffic pairs} (h : s.Sound offset payload) (c : Fin pairs)
    (reading : Cycles) :
    s.boxes.Touched (coupleLink offset payload c)
        ((s.couple c).asker.step c offset (payload c) reading s.boxes).2.1 ∧
      Meets (coupleLink offset payload c) 0
        ((s.couple c).asker.step c offset (payload c) reading s.boxes).2.1
        ((s.couple c).asker.step c offset (payload c) reading s.boxes).1 (s.couple c).answerer
        ((s.couple c).log ++
          ((s.couple c).asker.step c offset (payload c) reading s.boxes).2.2) := by
  obtain ⟨trips, rest, hlog, hp⟩ := h.meets c
  have hserves : ∀ k, (s.couple c).answerer =
      .serving (coupleLink offset payload c) ⟨.ended, k⟩ → (s.couple c).asker = .finished :=
    fun k hends => h.complete (h.ended c k hends) c
  obtain ⟨htouched, hmeets⟩ := hp.asker (h.reach c) (h.hosts c) reading rfl hserves
  exact ⟨htouched, .after hlog hmeets⟩

/-- So does a step of a receiver. -/
theorem Traffic.Sound.answerer {s : Traffic pairs} (h : s.Sound offset payload) (c : Fin pairs)
    (reading : Cycles) :
    s.boxes.Touched (coupleLink offset payload c)
        ((s.couple c).answerer.step c offset (payload c) s.done.isSet reading s.boxes).2.1 ∧
      Meets (coupleLink offset payload c) 0
        ((s.couple c).answerer.step c offset (payload c) s.done.isSet reading s.boxes).2.1
        (s.couple c).asker
        ((s.couple c).answerer.step c offset (payload c) s.done.isSet reading s.boxes).1
        ((s.couple c).log ++
          ((s.couple c).answerer.step c offset (payload c) s.done.isSet reading s.boxes).2.2) := by
  obtain ⟨trips, rest, hlog, hp⟩ := h.meets c
  obtain ⟨htouched, hmeets⟩ := hp.answerer (h.reach c) (h.hosts c) s.done.isSet reading rfl
    fun hset => h.complete hset c
  exact ⟨htouched, .after hlog hmeets⟩

/-- Every step keeps all pairs where they should be. -/
theorem Traffic.Sound.step {s : Traffic pairs} (h : s.Sound offset payload)
    (hoffset : pairs ≤ offset.toNat) (act : Act pairs) :
    (s.step offset payload act).Sound offset payload := by
  cases act with
  | sender c reading =>
    obtain ⟨htouched, hmeets⟩ := h.asker c reading
    refine h.put hoffset htouched hmeets (fun hfinished => ?_) (h.ended c)
    rw [hfinished]
  | receiver c reading =>
    obtain ⟨htouched, hmeets⟩ := h.answerer c reading
    exact h.put hoffset htouched hmeets id fun k hends =>
      (Answerer.ended_step hends).elim (h.ended c k) id
  | finish c =>
    obtain ⟨trips, rest, hlog, hp⟩ := h.meets c
    refine h.put hoffset .nothing ⟨trips, rest, hlog, hp.finish⟩ (fun hfinished => ?_) (h.ended c)
    simp only [hfinished, Asker.finish]
  | complete =>
    simp only [Traffic.step]
    split
    case isTrue hall => exact ⟨h.reach, h.hosts, h.meets, fun _ => hall, fun _ _ _ => rfl⟩
    case isFalse => exact h

/-- However the steps interleave. -/
theorem Traffic.Sound.run {s : Traffic pairs} (h : s.Sound offset payload)
    (hoffset : pairs ≤ offset.toNat) (acts : List (Act pairs)) :
    (s.run offset payload acts).Sound offset payload :=
  List.foldlRecOn (motive := Traffic.Sound offset payload) acts (Traffic.step offset payload) h
    fun _ hs act _ => hs.step hoffset act

/-! ## Answers come -/

/-- What a step adds to the entries of a pair; a reading among them is the step's. -/
theorem Traffic.log_step (offset : UInt64) (payload : Fin pairs → Payload) (s : Traffic pairs)
    (act : Act pairs) (c : Fin pairs) :
    ∃ entries, ((s.step offset payload act).couple c).log = (s.couple c).log ++ entries ∧
      (entries.filterMap Entry.reading?).Sublist act.reading?.toList := by
  cases act with
  | sender c' reading =>
    by_cases hc : c = c'
    · subst hc
      exact ⟨_, congrArg Couple.log (s.put_self ..), Asker.readings_step ..⟩
    · refine ⟨[], ?_, List.nil_sublist _⟩
      rw [List.append_nil]
      exact s.put_view Couple.log _ fun heq => absurd heq hc
  | receiver c' reading =>
    by_cases hc : c = c'
    · subst hc
      exact ⟨_, congrArg Couple.log (s.put_self ..), Answerer.readings_step ..⟩
    · refine ⟨[], ?_, List.nil_sublist _⟩
      rw [List.append_nil]
      exact s.put_view Couple.log _ fun heq => absurd heq hc
  | finish c' =>
    refine ⟨[], ?_, List.nil_sublist _⟩
    rw [List.append_nil]
    exact s.put_view Couple.log _ fun _ => rfl
  | complete =>
    refine ⟨[], ?_, List.nil_sublist _⟩
    simp only [Traffic.step, List.append_nil]
    split <;> rfl

/-- Only a step of its own changes where a receiver stands. -/
theorem Traffic.answerer_step (s : Traffic pairs) {act : Act pairs} {c : Fin pairs}
    (hact : act.serves c = false) :
    ((s.step offset payload act).couple c).answerer = (s.couple c).answerer := by
  cases act with
  | sender c' reading => exact s.put_view Couple.answerer _ fun _ => rfl
  | receiver c' reading =>
    exact s.put_view Couple.answerer _ fun heq => by simp [Act.serves, heq] at hact
  | finish c' => exact s.put_view Couple.answerer _ fun _ => rfl
  | complete =>
    simp only [Traffic.step]
    split <;> rfl

/-- What is noted stays noted. -/
theorem Traffic.countP_le_step (s : Traffic pairs) (act : Act pairs) (c : Fin pairs)
    (p : Entry → Bool) :
    (s.couple c).log.countP p ≤ ((s.step offset payload act).couple c).log.countP p := by
  obtain ⟨entries, hlog, -⟩ := s.log_step offset payload act c
  rw [hlog, List.countP_append]
  exact Nat.le_add_right _ _

/-- A step of a receiver answers the last request, if it is not answered yet, or gets closer to
that. -/
theorem Traffic.Sound.closer {s : Traffic pairs} (h : s.Sound offset payload) (c : Fin pairs)
    (reading : Cycles) :
    (s.couple c).requests ≤
        ((s.step offset payload (.receiver c reading)).couple c).answers ∨
      ((s.step offset payload (.receiver c reading)).couple c).answerer.lag <
        (s.couple c).answerer.lag := by
  obtain ⟨trips, rest, hlog, hp⟩ := h.meets c
  change (s.couple c).log = List.flatMap (Trip.entries (payload c)) trips ++ rest at hlog
  by_cases hpending : rest.countP Entry.answers < rest.countP Entry.requests
  · have hgoes : s.done.isSet = false := Bool.eq_false_iff.2 fun hset => by
      rw [h.complete hset c] at hp
      rw [hp.over] at hpending
      exact Nat.lt_irrefl _ hpending
    have hlog' : ((s.step offset payload (.receiver c reading)).couple c).log =
        List.flatMap (Trip.entries (payload c)) trips ++ (rest ++
          ((s.couple c).answerer.step c offset (payload c) false reading s.boxes).2.2) := by
      rw [← List.append_assoc, ← hlog]
      simp only [Traffic.step, Traffic.put_self, hgoes]
    rw [Couple.requests_eq hlog, Couple.answers_eq hlog']
    rcases hp.lag_step c (payload c) reading rfl hpending with hanswers | hless
    · exact .inl (Nat.add_le_add_left hanswers _)
    · right
      simpa only [Traffic.step, Traffic.put_self, hgoes] using hless
  · left
    refine Nat.le_trans ?_ (s.countP_le_step (.receiver c reading) c Entry.answers)
    change _ ≤ (s.couple c).answers
    rw [Couple.requests_eq hlog, Couple.answers_eq hlog]
    omega

/-- Every request so far is answered once its receiver has taken four steps more. -/
theorem Traffic.Sound.answered {s : Traffic pairs} (h : s.Sound offset payload)
    (hoffset : pairs ≤ offset.toNat) (c : Fin pairs) (acts : List (Act pairs))
    (henough : 4 ≤ acts.countP (Act.serves c)) :
    (s.couple c).requests ≤ ((s.run offset payload acts).couple c).answers := by
  refine foldl_reaches (Traffic.step offset payload) (Act.serves c)
    (fun t => t.Sound offset payload ∧ (s.couple c).requests ≤ (t.couple c).requests)
    (fun t => (s.couple c).requests ≤ (t.couple c).answers) (fun t => (t.couple c).answerer.lag)
    ?_ ?_ ?_ ?_ ⟨h, Nat.le_refl _⟩ acts (Nat.lt_of_le_of_lt (Answerer.lag_le _) henough)
  · rintro t act ⟨hsound, hle⟩
    exact ⟨hsound.step hoffset act, Nat.le_trans hle (t.countP_le_step act c Entry.requests)⟩
  · exact fun t act hle => Nat.le_trans hle (t.countP_le_step act c Entry.answers)
  · rintro t act hown ⟨hsound, hle⟩
    obtain ⟨reading, rfl⟩ : ∃ reading, act = .receiver c reading := by
      cases act with
      | receiver c' reading => exact ⟨reading, by rw [of_decide_eq_true hown]⟩
      | sender | finish | complete => cases hown
    exact (hsound.closer c reading).imp_left (Nat.le_trans hle)
  · exact fun t act hown => congrArg _ (t.answerer_step hown)

/-! ## Windows -/

/-- The readings noted of a pair are readings of the clock, in order. -/
theorem Traffic.readings_run (offset : UInt64) (payload : Fin pairs → Payload) (s : Traffic pairs)
    (acts : List (Act pairs)) (c : Fin pairs) :
    (((s.run offset payload acts).couple c).log.filterMap Entry.reading?).Sublist
      ((s.couple c).log.filterMap Entry.reading? ++ acts.filterMap Act.reading?) := by
  induction acts generalizing s with
  | nil => simp [Traffic.run]
  | cons act acts ih =>
    obtain ⟨entries, hlog, hentries⟩ := s.log_step offset payload act c
    refine (ih (s.step offset payload act)).trans ?_
    rw [hlog, List.filterMap_append, List.append_assoc]
    refine List.Sublist.append (List.Sublist.refl _) ?_
    have hcons : (act :: acts).filterMap Act.reading? =
        act.reading?.toList ++ acts.filterMap Act.reading? := by
      cases act <;> rfl
    rw [hcons]
    exact hentries.append (List.Sublist.refl _)

/-! ## All interleavings -/

/-- What a pair comes to. What is noted of it is whole trips and a part of one; a receiver that has
returned has answered as often as measurements were begun, and as often as requests were posted; and
nobody was refused a mailbox or a flag. -/
structure Couple.InOrder (payload : Payload) (p : Couple) : Prop where
  trips : ∃ trips last, ∃ part < 8,
    p.log = List.flatMap (Trip.entries payload) trips ++ (Trip.entries payload last).take part
  served : ∀ l k, p.answerer = .serving l ⟨.ended, k⟩ →
    k = p.measures ∧ k = p.requests ∧ k = p.answers
  admitted : ∀ f, p.asker ≠ .refused f ∧ p.answerer ≠ .refused f

/-- What all pairs come to. Each is in order; no step of one changes what another finds in its
mailboxes; and every request is answered when its receiver has taken four steps more, whatever the
others do in between. -/
structure Traffic.InOrder (offset : UInt64) (payload : Fin pairs → Payload) (s : Traffic pairs) :
    Prop where
  couples : ∀ c, (s.couple c).InOrder (payload c)
  apart : ∀ (c c' : Fin pairs) reading, c' ≠ c →
    (s.step offset payload (.sender c reading)).boxes.desk (coupleLink offset payload c') =
        s.boxes.desk (coupleLink offset payload c') ∧
      (s.step offset payload (.receiver c reading)).boxes.desk (coupleLink offset payload c') =
        s.boxes.desk (coupleLink offset payload c')
  answered : ∀ c acts, 4 ≤ acts.countP (Act.serves c) →
    (s.couple c).requests ≤ ((s.run offset payload acts).couple c).answers

theorem Traffic.Sound.couple_inOrder {s : Traffic pairs} (h : s.Sound offset payload)
    (c : Fin pairs) : (s.couple c).InOrder (payload c) := by
  obtain ⟨trips, rest, hlog, hp⟩ := h.meets c
  constructor
  case trips =>
    obtain ⟨last, part, hpart, rfl⟩ := hp.proper
    exact ⟨trips, last, part, hpart, hlog⟩
  case served =>
    intro l k hended
    rw [hended] at hp
    obtain ⟨rfl, rfl⟩ := hp.served
    rw [Couple.measures_eq hlog, Couple.requests_eq hlog, Couple.answers_eq hlog]
    simp
  case admitted => exact hp.admitted

theorem Traffic.Sound.inOrder {s : Traffic pairs} (h : s.Sound offset payload)
    (hoffset : pairs ≤ offset.toNat) : s.InOrder offset payload where
  couples := h.couple_inOrder
  apart c _ reading hc :=
    ⟨desk_of_touched hoffset (h.asker c reading).1 hc,
      desk_of_touched hoffset (h.answerer c reading).1 hc⟩
  answered := h.answered hoffset

/-- However the steps of all senders and receivers interleave, their pairs are in order; and with
timestamps from one clock that does not go back, every window ends between its start and the
sender's last reading, so that it is never thrown away for its clock. -/
theorem Traffic.run_inOrder {slots cores : UInt64} (hoffset : pairs ≤ offset.toNat)
    (hslots : pairs - 1 + offset.toNat < slots.toNat)
    (hcores : pairs - 1 + offset.toNat < cores.toNat)
    (acts : List (Act pairs)) :
    ((Traffic.fresh pairs slots cores).run offset payload acts).InOrder offset payload ∧
      ((acts.filterMap Act.reading?).Pairwise (· ≤ ·) →
        ∀ c w reading, payload c = .timestamp → .closed w reading ∈
            (((Traffic.fresh pairs slots cores).run offset payload acts).couple c).log →
          w.start ≤ w.stop ∧ w.stop ≤ reading ∧
            ∀ ceiling, w.verdict ceiling ≠ .reject .clockAnomaly) := by
  have hsound : ((Traffic.fresh pairs slots cores).run offset payload acts).Sound offset payload :=
    (Traffic.sound_fresh hoffset hslots hcores).run hoffset acts
  refine ⟨hsound.inOrder hoffset, fun hclock c w reading hpayload hclosed => ?_⟩
  obtain ⟨trips, last, part, hpart, hlog⟩ := (hsound.couple_inOrder c).trips
  have hreadings := hclock.sublist
    ((Traffic.fresh pairs slots cores).readings_run offset payload acts c)
  rw [hpayload] at hlog
  rw [hlog] at hclosed
  obtain ⟨t, ht, rfl, rfl⟩ := mem_trips_of_closed hpart hclosed
  obtain ⟨hanswered, hended⟩ := Trip.forward hlog hreadings ht
  obtain ⟨hstart, hstop⟩ := Trip.window_timestamp hanswered hended
  refine ⟨hstart, hstop, fun ceiling hverdict => ?_⟩
  rw [Window.verdict_eq_reject_iff] at hverdict
  rcases hverdict with ⟨hback, -⟩ | ⟨-, -, hwhy⟩
  · exact UInt64.not_lt.2 hstart hback
  · cases hwhy

end Traffic

/-- Two pairs, each of whose requests is under way while the other's is answered; then both senders
finish, the flag is set, and the first receiver returns. -/
def crossing : List (Traffic.Act 2) :=
  [.receiver 0 1, .receiver 1 1, .receiver 1 2, .receiver 0 2, .sender 0 3, .sender 1 3,
    .sender 0 4, .sender 1 4, .sender 0 5, .sender 1 5, .sender 0 10, .sender 1 11, .sender 0 11,
    .sender 1 11, .receiver 1 12, .receiver 0 12, .receiver 0 13, .receiver 1 14, .receiver 1 14,
    .receiver 0 15, .sender 1 16, .sender 0 16, .sender 0 17, .sender 1 18, .finish 1,
    .receiver 0 18, .finish 0, .complete, .receiver 0 19, .receiver 1 20]

/-- The first of two pairs answers with sentinels and the second with its clock. -/
def oneClock (c : Fin 2) : Payload := if c = 0 then .sentinel else .timestamp

/-- Each sender receives the answer of its own receiver. -/
theorem Traffic.run_inOrder_crossing :
    2 ≤ 2 ∧ 2 - 1 + 2 < 4 ∧
      ((Traffic.fresh 2 4 4).run 2 oneClock crossing).InOrder 2 oneClock ∧
      (((Traffic.fresh 2 4 4).run 2 oneClock crossing).couple 0).log =
        Trip.entries .sentinel ⟨10, 13, 17⟩ ∧
      (((Traffic.fresh 2 4 4).run 2 oneClock crossing).couple 0).answerer =
        .serving ⟨0, 2, .sentinel⟩ ⟨.ended, 1⟩ ∧
      (((Traffic.fresh 2 4 4).run 2 oneClock crossing).couple 1).log =
        Trip.entries .timestamp ⟨11, 14, 18⟩ ∧
      (11 : Cycles) ≤ 14 ∧ (14 : Cycles) ≤ 18 := by
  have hslots : 2 - 1 + UInt64.toNat 2 < UInt64.toNat 4 := by decide
  obtain ⟨horder, hwindows⟩ :=
    Traffic.run_inOrder (by decide : 2 ≤ UInt64.toNat 2) hslots hslots crossing
  have hlog : (((Traffic.fresh 2 4 4).run 2 oneClock crossing).couple 1).log =
      Trip.entries .timestamp ⟨11, 14, 18⟩ := by decide
  obtain ⟨hstart, hstop, -⟩ :=
    hwindows (by decide) 1 ⟨11, 14, 0⟩ 18 rfl (by rw [hlog]; decide)
  exact ⟨by decide, by decide, horder, by decide, by decide, hlog, hstart, hstop⟩

end LatencyGauge
