/-
A sender and its receiver at one desk. Their round trips follow each other: the sender empties its
mailbox and posts a request; its receiver takes that request, answers it once, and the sender
receives this answer and closes its window. Between two steps the pair always stands somewhere in a
trip, and every step of either leaves it there or goes on. With a request to answer every step of
the receiver gets closer to the answer.
-/
import LatencyGauge.Proofs.Sync.Traffic

namespace LatencyGauge

/-! ## Trips -/

/-- The clock readings of a round trip: when the window opens, when the answer is composed, and when
the window closes. -/
structure Trip where
  start : Cycles
  answered : Cycles
  ended : Cycles
deriving DecidableEq, Repr

/-- The window of a trip. -/
def Trip.window (k : Payload) (t : Trip) : Window :=
  ⟨t.start, k.stop (k.answer t.answered) t.ended, 0⟩

/-- All that is noted of a trip. -/
def Trip.entries (k : Payload) (t : Trip) : List Entry :=
  [.prepared, .opened t.start, .requested (postable t.start), .taken (postable t.start),
    .composed t.answered, .answered (k.answer t.answered), .received (k.answer t.answered),
    .closed (t.window k) t.ended]

theorem le_postable (v : UInt64) : v ≤ postable v := by
  unfold postable
  split
  case isTrue hzero => simp [hzero]
  case isFalse => exact UInt64.le_refl v

theorem postable_ne_zero (v : UInt64) : postable v ≠ 0 := by
  unfold postable
  split
  case isTrue => decide
  case isFalse hsome => exact hsome

theorem Payload.answer_ne_zero (k : Payload) (reading : Cycles) : k.answer reading ≠ 0 := by
  cases k with
  | timestamp => exact postable_ne_zero reading
  | sentinel => exact (by decide : (1 : UInt64) ≠ 0)

/-- On a clock that does not go back, a window with a timestamp ends between its start and the
sender's last reading. -/
theorem Trip.window_timestamp {t : Trip} (hanswered : t.start ≤ t.answered)
    (hended : t.answered ≤ t.ended) :
    t.start ≤ (t.window .timestamp).stop ∧ (t.window .timestamp).stop ≤ t.ended := by
  have hword : t.start ≤ postable t.answered := UInt64.le_trans hanswered (le_postable _)
  have hend : t.start ≤ t.ended := UInt64.le_trans hanswered hended
  have hstop : (t.window .timestamp).stop =
      if postable t.answered ≤ t.ended then postable t.answered else t.ended := rfl
  rw [hstop]
  split
  case isTrue hle => exact ⟨hword, hle⟩
  case isFalse => exact ⟨hend, UInt64.le_refl _⟩

/-- Every trip has one entry of each kind. -/
theorem countP_entries {p : Entry → Bool} (honce : ∀ k t, (Trip.entries k t).countP p = 1)
    (k : Payload) (trips : List Trip) :
    (trips.flatMap (Trip.entries k)).countP p = trips.length := by
  induction trips with
  | nil => rfl
  | cons t trips ih =>
    rw [List.flatMap_cons, List.countP_append, honce, ih, List.length_cons, Nat.add_comm]

section Counts

variable {k : Payload} {p : Couple} {trips : List Trip} {rest : List Entry}
  (h : p.log = List.flatMap (Trip.entries k) trips ++ rest)
include h

theorem Couple.measures_eq : p.measures = trips.length + rest.countP Entry.opens := by
  rw [Couple.measures, h, List.countP_append, countP_entries fun _ _ => rfl]

theorem Couple.requests_eq : p.requests = trips.length + rest.countP Entry.requests := by
  rw [Couple.requests, h, List.countP_append, countP_entries fun _ _ => rfl]

theorem Couple.answers_eq : p.answers = trips.length + rest.countP Entry.answers := by
  rw [Couple.answers, h, List.countP_append, countP_entries fun _ _ => rfl]

end Counts

/-- A window is closed by a trip that is over. -/
theorem mem_trips_of_closed {k : Payload} {trips : List Trip} {last : Trip} {part : Nat}
    (hpart : part < 8) {w : Window} {reading : Cycles}
    (h : .closed w reading ∈
      List.flatMap (Trip.entries k) trips ++ (Trip.entries k last).take part) :
    ∃ t ∈ trips, w = t.window k ∧ reading = t.ended := by
  rcases List.mem_append.1 h with hover | hopen
  · obtain ⟨t, ht, hentry⟩ := List.mem_flatMap.1 hover
    have hclosed : w = t.window k ∧ reading = t.ended := by
      simpa [Trip.entries] using hentry
    exact ⟨t, ht, hclosed⟩
  · -- the last entry of a trip is the only one that closes a window
    have hearly : .closed w reading ∈ (Trip.entries k last).take 7 :=
      (List.take_subset_take_left _ (Nat.le_of_lt_succ hpart)) hopen
    simp [Trip.entries] at hearly

/-- On a clock that does not go back, every trip that is over goes forward. -/
theorem Trip.forward {k : Payload} {log : List Entry} {trips : List Trip} {rest : List Entry}
    (hlog : log = List.flatMap (Trip.entries k) trips ++ rest)
    (hclock : (log.filterMap Entry.reading?).Pairwise (· ≤ ·)) {t : Trip} (ht : t ∈ trips) :
    t.start ≤ t.answered ∧ t.answered ≤ t.ended := by
  have hentries : (t.entries k).Sublist log := by
    rw [hlog, List.flatMap_def]
    exact (List.sublist_flatten_of_mem (List.mem_map_of_mem ht)).trans
      (List.sublist_append_left _ _)
  have hordered : [t.start, t.answered, t.ended].Pairwise (· ≤ ·) :=
    hclock.sublist (hentries.filterMap Entry.reading?)
  simp only [List.pairwise_cons, List.mem_cons] at hordered
  exact ⟨hordered.1 _ (.inl rfl), hordered.2.1 _ (.inl rfl)⟩

/-! ## Where a pair stands -/

/-- Where a pair stands after `n` trips: what is on its desk, where the sender and the receiver are,
and what was noted since the last trip. -/
inductive Meeting (l : Link) (n : Nat) : Desk → Asker → Answerer → List Entry → Prop
  | apart {a : Asker} {r : Answerer} (ha : a = .outside ∨ a = .connecting l)
      (hr : r = .outside ∨ r = .marking l) (hn : n = 0) : Meeting l n ⟨0, 0, false⟩ a r []
  | quiet {reply : UInt64} {a : Asker} {next : Receiving}
      (ha : a = .outside ∨ a = .connecting l ∨ a = .resting l ∨ a = .finished)
      (hnext : next = .taking ∨ next = .asking ∨ next = .ended) :
      Meeting l n ⟨reply, 0, true⟩ a (.serving l ⟨next, n⟩) []
  | prepared {next : Receiving} (hnext : next = .taking ∨ next = .asking) :
      Meeting l n ⟨0, 0, true⟩ (.measuring l .starting) (.serving l ⟨next, n⟩)
        ((Trip.entries l.payload ⟨0, 0, 0⟩).take 1)
  | opened {next : Receiving} (start : Cycles) (hnext : next = .taking ∨ next = .asking) :
      Meeting l n ⟨0, 0, true⟩ (.measuring l (.posting start)) (.serving l ⟨next, n⟩)
        ((Trip.entries l.payload ⟨start, 0, 0⟩).take 2)
  | requested {next : Receiving} (start : Cycles) (hnext : next = .taking ∨ next = .asking) :
      Meeting l n ⟨0, postable start, true⟩ (.measuring l (.polling start))
        (.serving l ⟨next, n⟩) ((Trip.entries l.payload ⟨start, 0, 0⟩).take 3)
  | taken (start : Cycles) :
      Meeting l n ⟨0, 0, true⟩ (.measuring l (.polling start)) (.serving l ⟨.answering, n⟩)
        ((Trip.entries l.payload ⟨start, 0, 0⟩).take 4)
  | composed (start answered : Cycles) :
      Meeting l n ⟨0, 0, true⟩ (.measuring l (.polling start))
        (.serving l ⟨.posting (l.payload.answer answered), n⟩)
        ((Trip.entries l.payload ⟨start, answered, 0⟩).take 5)
  | answered {next : Receiving} (start answered : Cycles)
      (hnext : next = .taking ∨ next = .asking) :
      Meeting l n ⟨l.payload.answer answered, 0, true⟩ (.measuring l (.polling start))
        (.serving l ⟨next, n + 1⟩) ((Trip.entries l.payload ⟨start, answered, 0⟩).take 6)
  | received {next : Receiving} (start answered : Cycles)
      (hnext : next = .taking ∨ next = .asking) :
      Meeting l n ⟨l.payload.answer answered, 0, true⟩
        (.measuring l (.ending start (l.payload.answer answered))) (.serving l ⟨next, n + 1⟩)
        ((Trip.entries l.payload ⟨start, answered, 0⟩).take 7)

/-- Where a pair stands with all its entries after `n` trips more. -/
def Meets (l : Link) (n : Nat) (m : Mailboxes) (a : Asker) (r : Answerer) (log : List Entry) :
    Prop :=
  ∃ trips rest, log = List.flatMap (Trip.entries l.payload) trips ++ rest ∧
    Meeting l (n + trips.length) (m.desk l) a r rest

section Meeting

variable {l : Link} {n : Nat} {d : Desk} {a : Asker} {r : Answerer} {rest : List Entry}
  {m : Mailboxes} {offset : UInt64}

theorem Meets.of (hdesk : m.desk l = d) (hp : Meeting l n d a r rest) : Meets l n m a r rest :=
  ⟨[], rest, rfl, hdesk ▸ hp⟩

/-- A sender whose mailbox is empty polls on. -/
theorem Asker.step_polling (core : Nat) (offset : UInt64) (payload : Payload)
    (reading start : Cycles) (hempty : m.peek l.sender = 0) :
    Asker.step core offset payload reading m (.measuring l (.polling start)) =
      (.measuring l (.polling start), m, []) := by
  simp [Asker.step, Sender.step, Sender.window?, Sender.entry?, hempty]

/-- A receiver without a request looks and asks in turn while the run goes on. -/
theorem Answerer.step_listening (core : Nat) (offset : UInt64) (payload : Payload)
    (reading : Cycles) {next : Receiving} (hempty : m.peek l.receiver = 0)
    (hnext : next = .taking ∨ next = .asking) :
    ∃ next', (next' = .taking ∨ next' = .asking) ∧
      Answerer.step core offset payload false reading m (.serving l ⟨next, n⟩) =
        (.serving l ⟨next', n⟩, m, []) := by
  obtain rfl | rfl := hnext
  · exact ⟨.asking, .inr rfl, by simp [Answerer.step, Receiver.step, Receiving.entry?, hempty]⟩
  · exact ⟨.taking, .inl rfl, by simp [Answerer.step, Receiver.step, Receiving.entry?]⟩

/-- A step of the sender, unless the receiver has ended before it has finished. -/
theorem Meeting.asker (hl : (UInt64.ofNat l.sender + offset).toNat = l.receiver)
    (hhosts : m.Hosts l) (reading : Cycles) (hp : Meeting l n d a r rest) (hdesk : m.desk l = d)
    (hserves : ∀ k, r = .serving l ⟨.ended, k⟩ → a = .finished) :
    m.Touched l (a.step l.sender offset l.payload reading m).2.1 ∧
      Meets l n (a.step l.sender offset l.payload reading m).2.1
        (a.step l.sender offset l.payload reading m).1 r
        (rest ++ (a.step l.sender offset l.payload reading m).2.2) := by
  have hreply : m.peek l.sender = d.reply := by rw [← hdesk]; rfl
  have hready : m.flag l.receiver = d.ready := by rw [← hdesk]; rfl
  have hconnects : Asker.step l.sender offset l.payload reading m .outside =
      (.connecting l, m, []) := by simp only [Asker.step, hhosts.link_eq hl]
  cases hp with
  | apart ha hr hn =>
    obtain rfl | rfl := ha
    · rw [hconnects]
      exact ⟨.nothing, .of hdesk (.apart (.inr rfl) hr hn)⟩
    · have hwaits : Asker.step l.sender offset l.payload reading m (.connecting l) =
          (.connecting l, m, []) := by simp [Asker.step, hready]
      rw [hwaits]
      exact ⟨.nothing, .of hdesk (.apart (.inr rfl) hr hn)⟩
  | quiet ha hnext =>
    obtain rfl | rfl | rfl | rfl := ha
    · rw [hconnects]
      exact ⟨.nothing, .of hdesk (.quiet (.inr (.inl rfl)) hnext)⟩
    · have hgoes : Asker.step l.sender offset l.payload reading m (.connecting l) =
          (.resting l, m, []) := by simp [Asker.step, hready]
      rw [hgoes]
      exact ⟨.nothing, .of hdesk (.quiet (.inr (.inr (.inl rfl))) hnext)⟩
    · -- whatever was left in the sender's mailbox goes
      obtain rfl | rfl | rfl := hnext
      · exact ⟨.reply 0, .of (hhosts.desk_reply hdesk 0) (.prepared (.inl rfl))⟩
      · exact ⟨.reply 0, .of (hhosts.desk_reply hdesk 0) (.prepared (.inr rfl))⟩
      · exact nomatch hserves n rfl
    · exact ⟨.nothing, .of hdesk (.quiet (.inr (.inr (.inr rfl))) hnext)⟩
  | prepared hnext => exact ⟨.nothing, .of hdesk (.opened reading hnext)⟩
  | opened start hnext =>
    exact ⟨.request _, .of (hhosts.desk_request hdesk _) (.requested start hnext)⟩
  | requested start hnext =>
    rw [Asker.step_polling _ _ _ _ _ hreply]
    exact ⟨.nothing, .of hdesk (.requested start hnext)⟩
  | taken start =>
    rw [Asker.step_polling _ _ _ _ _ hreply]
    exact ⟨.nothing, .of hdesk (.taken start)⟩
  | composed start answered =>
    rw [Asker.step_polling _ _ _ _ _ hreply]
    exact ⟨.nothing, .of hdesk (.composed start answered)⟩
  | answered start answered hnext =>
    have hgoes : Asker.step l.sender offset l.payload reading m (.measuring l (.polling start)) =
        (.measuring l (.ending start (l.payload.answer answered)), m,
          [.received (l.payload.answer answered)]) := by
      simp [Asker.step, Sender.step, Sender.window?, Sender.entry?, hreply,
        l.payload.answer_ne_zero answered]
    rw [hgoes]
    exact ⟨.nothing, .of hdesk (.received start answered hnext)⟩
  | received start answered hnext =>
    -- the window closes, and the trip is over
    refine ⟨.nothing, [⟨start, answered, reading⟩], [], rfl, ?_⟩
    change Meeting l (n + 1) (m.desk l) (.resting l) _ []
    rw [hdesk]
    exact .quiet (.inr (.inr (.inl rfl))) (hnext.imp_right .inl)

/-- A step of the receiver; the flag is set only after the sender has finished. -/
theorem Meeting.answerer (hl : (UInt64.ofNat l.sender + offset).toNat = l.receiver)
    (hhosts : m.Hosts l) (done : Bool) (reading : Cycles) (hp : Meeting l n d a r rest)
    (hdesk : m.desk l = d) (hdone : done = true → a = .finished) :
    m.Touched l (r.step l.sender offset l.payload done reading m).2.1 ∧
      Meets l n (r.step l.sender offset l.payload done reading m).2.1 a
        (r.step l.sender offset l.payload done reading m).1
        (rest ++ (r.step l.sender offset l.payload done reading m).2.2) := by
  have hrequest : m.peek l.receiver = d.request := by rw [← hdesk]; rfl
  have hgoes : a ≠ .finished → done = false := fun hon =>
    Bool.eq_false_iff.2 fun hset => hon (hdone hset)
  cases hp with
  | apart ha hr hn =>
    obtain rfl | rfl := hr
    · have hbinds : Answerer.step l.sender offset l.payload done reading m .outside =
          (.marking l, m.write l.receiver 0, []) := by
        simp only [Answerer.step, hhosts.claim_eq hl]
      rw [hbinds]
      exact ⟨.request 0, .of (hhosts.desk_request hdesk 0) (.apart ha (.inr rfl) hn)⟩
    · have hmarks : Answerer.step l.sender offset l.payload done reading m (.marking l) =
          (.serving l .fresh, m.raise l.receiver, []) := by
        simp only [Answerer.step, hhosts.markReady_eq]
      rw [hmarks, hn]
      exact ⟨.ready, .of (hhosts.desk_ready hdesk) (.quiet (ha.imp_right .inl) (.inl rfl))⟩
  | quiet ha hnext =>
    obtain rfl | rfl | rfl := hnext
    · have hlooks : Answerer.step l.sender offset l.payload done reading m
          (.serving l ⟨.taking, n⟩) = (.serving l ⟨.asking, n⟩, m, []) := by
        simp [Answerer.step, Receiver.step, Receiving.entry?, hrequest]
      rw [hlooks]
      exact ⟨.nothing, .of hdesk (.quiet ha (.inr (.inl rfl)))⟩
    · cases done with
      | false => exact ⟨.nothing, .of hdesk (.quiet ha (.inl rfl))⟩
      | true => exact ⟨.nothing, .of hdesk (.quiet ha (.inr (.inr rfl)))⟩
    · exact ⟨.nothing, .of hdesk (.quiet ha (.inr (.inr rfl)))⟩
  | prepared hnext =>
    obtain ⟨next', hnext', hstep⟩ := Answerer.step_listening _ _ _ _ hrequest hnext
    rw [hgoes (by simp), hstep]
    exact ⟨.nothing, .of hdesk (.prepared hnext')⟩
  | opened start hnext =>
    obtain ⟨next', hnext', hstep⟩ := Answerer.step_listening _ _ _ _ hrequest hnext
    rw [hgoes (by simp), hstep]
    exact ⟨.nothing, .of hdesk (.opened start hnext')⟩
  | requested start hnext =>
    obtain rfl | rfl := hnext
    · have htakes : Answerer.step l.sender offset l.payload done reading m
          (.serving l ⟨.taking, n⟩) =
          (.serving l ⟨.answering, n⟩, m.write l.receiver 0, [.taken (postable start)]) := by
        simp [Answerer.step, Receiver.step, Receiving.entry?, hrequest, postable_ne_zero start]
      rw [htakes]
      exact ⟨.request 0, .of (hhosts.desk_request hdesk 0) (.taken start)⟩
    · rw [hgoes (by simp)]
      exact ⟨.nothing, .of hdesk (.requested start (.inl rfl))⟩
  | taken start => exact ⟨.nothing, .of hdesk (.composed start reading)⟩
  | composed start answered =>
    exact ⟨.reply _, .of (hhosts.desk_reply hdesk _) (.answered start answered (.inl rfl))⟩
  | answered start answered hnext =>
    obtain ⟨next', hnext', hstep⟩ := Answerer.step_listening _ _ _ _ hrequest hnext
    rw [hgoes (by simp), hstep]
    exact ⟨.nothing, .of hdesk (.answered start answered hnext')⟩
  | received start answered hnext =>
    obtain ⟨next', hnext', hstep⟩ := Answerer.step_listening _ _ _ _ hrequest hnext
    rw [hgoes (by simp), hstep]
    exact ⟨.nothing, .of hdesk (.received start answered hnext')⟩

/-- A sender that finishes between two measurements stands where it stood. -/
theorem Meeting.finish (hp : Meeting l n d a r rest) : Meeting l n d a.finish r rest := by
  cases hp with
  | apart ha hr hn =>
    refine .apart ?_ hr hn
    obtain rfl | rfl := ha
    · exact .inl rfl
    · exact .inr rfl
  | quiet ha hnext =>
    refine .quiet ?_ hnext
    obtain rfl | rfl | rfl | rfl := ha
    · exact .inl rfl
    · exact .inr (.inl rfl)
    · exact .inr (.inr (.inr rfl))
    · exact .inr (.inr (.inr rfl))
  | prepared hnext => exact .prepared hnext
  | opened start hnext => exact .opened start hnext
  | requested start hnext => exact .requested start hnext
  | taken start => exact .taken start
  | composed start answered => exact .composed start answered
  | answered start answered hnext => exact .answered start answered hnext
  | received start answered hnext => exact .received start answered hnext

/-- A receiver ends only if the flag is set. -/
theorem Answerer.ended_step {core : Nat} {payload : Payload} {done : Bool} {reading : Cycles}
    {k : Nat}
    (hended : (r.step core offset payload done reading m).1 = .serving l ⟨.ended, k⟩) :
    r = .serving l ⟨.ended, k⟩ ∨ done = true := by
  cases r with
  | outside =>
    simp only [Answerer.step] at hended
    split at hended <;> cases hended
  | marking l' =>
    simp only [Answerer.step] at hended
    split at hended <;> cases hended
  | refused f => cases hended
  | serving l' r =>
    obtain ⟨next, served⟩ := r
    cases next with
    | ended => exact .inl hended
    | asking =>
      cases done with
      | true => exact .inr rfl
      | false => cases hended
    | taking =>
      simp only [Answerer.step, Receiver.step] at hended
      split at hended <;> cases hended
    | answering | posting => cases hended

/-- More trips, and what was noted before. -/
theorem Meets.after {trips : List Trip} {log entries : List Entry}
    (hlog : log = List.flatMap (Trip.entries l.payload) trips ++ rest)
    (h : Meets l (n + trips.length) m a r (rest ++ entries)) :
    Meets l n m a r (log ++ entries) := by
  obtain ⟨more, rest', hentries, hp⟩ := h
  refine ⟨trips ++ more, rest', ?_, ?_⟩
  · rw [hlog, List.append_assoc, hentries, List.flatMap_append, List.append_assoc]
  · rwa [List.length_append, ← Nat.add_assoc]

/-- What a pair has on its desk is all that matters of the mailboxes. -/
theorem Meets.congr {m' : Mailboxes} {log : List Entry} (h : Meets l n m a r log)
    (hdesk : m'.desk l = m.desk l) : Meets l n m' a r log := by
  obtain ⟨trips, rest, hlog, hp⟩ := h
  exact ⟨trips, rest, hlog, hdesk ▸ hp⟩

/-- Where a pair stands, its last trip is not over. -/
theorem Meeting.proper (hp : Meeting l n d a r rest) :
    ∃ last, ∃ part < 8, rest = (Trip.entries l.payload last).take part := by
  cases hp with
  | apart | quiet => exact ⟨⟨0, 0, 0⟩, 0, by decide, rfl⟩
  | prepared => exact ⟨_, 1, by decide, rfl⟩
  | opened => exact ⟨_, 2, by decide, rfl⟩
  | requested => exact ⟨_, 3, by decide, rfl⟩
  | taken => exact ⟨_, 4, by decide, rfl⟩
  | composed => exact ⟨_, 5, by decide, rfl⟩
  | answered => exact ⟨_, 6, by decide, rfl⟩
  | received => exact ⟨_, 7, by decide, rfl⟩

theorem Meeting.admitted (hp : Meeting l n d a r rest) (f : Fault) :
    a ≠ .refused f ∧ r ≠ .refused f := by
  cases hp with
  | apart ha hr =>
    obtain rfl | rfl := ha <;> obtain rfl | rfl := hr <;> exact ⟨nofun, nofun⟩
  | quiet ha => obtain rfl | rfl | rfl | rfl := ha <;> exact ⟨nofun, nofun⟩
  | prepared | opened | requested | taken | composed | answered | received => exact ⟨nofun, nofun⟩

/-- While the sender has finished the last trip is over. -/
theorem Meeting.over (hp : Meeting l n d .finished r rest) : rest = [] := by
  cases hp <;> rfl

/-- A receiver that has ended has answered for every trip. -/
theorem Meeting.served {l' : Link} {k : Nat}
    (hp : Meeting l n d a (.serving l' ⟨.ended, k⟩) rest) : rest = [] ∧ k = n := by
  cases hp with
  | apart ha hr => exact nomatch hr
  | quiet => exact ⟨rfl, rfl⟩
  | prepared hnext | opened _ hnext | requested _ hnext | answered _ _ hnext | received _ _ hnext =>
    exact nomatch hnext

end Meeting

/-! ## Answers come -/

/-- How many steps a receiver takes before the one that answers a request, at most. -/
def Receiving.lag : Receiving → Nat
  | .asking => 3
  | .taking => 2
  | .answering => 1
  | .posting _ | .ended => 0

/-- The same of a core that serves. -/
def Answerer.lag : Answerer → Nat
  | .serving _ r => r.next.lag
  | _ => 0

theorem Answerer.lag_le (r : Answerer) : r.lag ≤ 3 := by
  cases r with
  | serving l r =>
    obtain ⟨next, served⟩ := r
    cases next <;> simp [Answerer.lag, Receiving.lag]
  | outside | marking | refused => exact Nat.zero_le 3

section Meeting

variable {l : Link} {n : Nat} {d : Desk} {a : Asker} {r : Answerer} {rest : List Entry}
  {m : Mailboxes} {offset : UInt64}

/-- With a request to answer every step of the receiver gets closer to the answer. -/
theorem Meeting.lag_step (core : Nat) (payload : Payload) (reading : Cycles)
    (hp : Meeting l n d a r rest) (hdesk : m.desk l = d)
    (hpending : rest.countP Entry.answers < rest.countP Entry.requests) :
    rest.countP Entry.requests ≤
        (rest ++ (r.step core offset payload false reading m).2.2).countP Entry.answers ∨
      (r.step core offset payload false reading m).1.lag < r.lag := by
  have hrequest : m.peek l.receiver = d.request := by rw [← hdesk]; rfl
  cases hp with
  | apart | quiet | prepared | opened => exact absurd hpending (Nat.lt_irrefl 0)
  | answered | received => exact absurd hpending (Nat.lt_irrefl 1)
  | requested start hnext =>
    right
    obtain rfl | rfl := hnext
    · simp [Answerer.step, Receiver.step, hrequest, postable_ne_zero start, Answerer.lag,
        Receiving.lag]
    · exact (by decide : 2 < 3)
  | taken start => exact .inr Nat.zero_lt_one
  | composed start answered => exact .inl (Nat.le_refl 1)

end Meeting

/-! ## Readings -/

theorem Asker.readings_step (core : Nat) (offset : UInt64) (payload : Payload) (reading : Cycles)
    (m : Mailboxes) (a : Asker) :
    ((a.step core offset payload reading m).2.2.filterMap Entry.reading?).Sublist [reading] := by
  cases a with
  | outside =>
    simp only [Asker.step]
    split <;> simp
  | measuring l s =>
    cases s with
    | polling start =>
      simp only [Asker.step, Sender.step]
      split <;> simp [Sender.entry?, Entry.reading?]
    | starting | posting | ending | ended =>
      simp [Asker.step, Sender.step, Sender.entry?, Entry.reading?]
  | connecting | resting | finished | refused => simp [Asker.step, Entry.reading?]

theorem Answerer.readings_step (core : Nat) (offset : UInt64) (payload : Payload) (done : Bool)
    (reading : Cycles) (m : Mailboxes) (r : Answerer) :
    ((r.step core offset payload done reading m).2.2.filterMap Entry.reading?).Sublist
      [reading] := by
  cases r with
  | outside | marking =>
    simp only [Answerer.step]
    split <;> simp
  | serving l r =>
    obtain ⟨next, served⟩ := r
    cases next with
    | taking =>
      simp only [Answerer.step, Receiver.step]
      split <;> simp [Receiving.entry?, Entry.reading?]
    | asking =>
      simp [Answerer.step, Receiver.step, Receiving.entry?]
    | answering | posting | ended =>
      simp [Answerer.step, Receiver.step, Receiving.entry?, Entry.reading?]
  | refused => simp [Answerer.step]

end LatencyGauge
