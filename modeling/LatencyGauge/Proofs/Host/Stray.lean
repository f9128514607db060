/-
Plans whose last receiver has a number past the range of words. The check adds around the end of
that range and accepts some of them. One of their primaries is refused its link in every run, and
the next one finds itself linked with core zero, which answers nobody and never announces itself. So
such a run does not come to its end unless a core is lost, and it never succeeds.
-/
import LatencyGauge.Proofs.Host.Losses

namespace LatencyGauge

open Function

variable {p : RunPlan} {i c : Nat} {r : Reading} {s : Shared} {pos : Position} {m : Machine}

/-! ## What nobody changes -/

/-- So many mailboxes and flags, the flag of core zero being clear. -/
structure Mailboxes.Bare (cores : Nat) (m : Mailboxes) : Prop where
  slots : m.slots.size = cores
  ready : m.ready.size = cores
  unready : m.flag 0 = false

theorem Mailboxes.Bare.congr {cores : Nat} {m m' : Mailboxes} (h : m.Bare cores)
    (hslots : m'.slots.size = m.slots.size) (hready : m'.ready = m.ready) : m'.Bare cores where
  slots := hslots.trans h.slots
  ready := (congrArg Array.size hready).trans h.ready
  unready := by
    rw [Mailboxes.flag, hready]
    exact h.unready

theorem Mailboxes.claim_eq_ok {m m' : Mailboxes} {sender : Nat} {offset : UInt64}
    {payload : Payload} {l : Link} (h : m.claim sender offset payload = .ok (l, m')) :
    l.receiver = (UInt64.ofNat sender + offset).toNat ∧ m' = m.write l.receiver 0 := by
  rw [Mailboxes.claim, Mailboxes.slotFor] at h
  by_cases hreceiver : (UInt64.ofNat sender + offset).toNat < m.slots.size
  · rw [Mailboxes.slot_eq hreceiver] at h
    by_cases hsender : sender < m.slots.size
    · change (m.slot sender >>= _) = _ at h
      rw [Mailboxes.slot_eq hsender] at h
      cases h
      exact ⟨rfl, rfl⟩
    · change (m.slot sender >>= _) = _ at h
      rw [Mailboxes.slot, if_neg hsender] at h
      cases h
  · rw [Mailboxes.slot, if_neg hreceiver] at h
    cases h

/-- Whoever binds itself is not core zero. -/
def Position.Elsewhere (p : RunPlan) : Position → Prop
  | .binding sender => 0 < (UInt64.ofNat sender + p.signalOffset).toNat
  | .marking l => 0 < l.receiver
  | _ => True

theorem Role.work_elsewhere (role : Role) : (role.work p).Elsewhere p := by
  cases role <;> trivial

theorem Receiver.step_ready (l : Link) (done : Bool) (reading : Cycles) (m : Mailboxes)
    (x : Receiver) : (x.step l done reading m).2.ready = m.ready := by
  obtain ⟨next, served⟩ := x
  cases next with
  | taking =>
    simp only [Receiver.step]
    split <;> rfl
  | answering | posting | asking | ended => rfl

/-- No step of a core sets the flag of core zero. -/
theorem Position.Elsewhere.step {cores : Nat} (h : pos.Elsewhere p) (hbare : s.boxes.Bare cores) :
    (pos.step p i r s).2.boxes.Bare cores ∧ (pos.step p i r s).1.Elsewhere p := by
  cases pos with
  | binding sender =>
    simp only [Position.step]
    cases hclaim : s.boxes.claim sender p.signalOffset p.payload with
    | error f => exact ⟨hbare, trivial⟩
    | ok claimed =>
      obtain ⟨l, boxes⟩ := claimed
      obtain ⟨hreceiver, rfl⟩ := Mailboxes.claim_eq_ok hclaim
      refine ⟨hbare.congr (by simp [Mailboxes.write]) rfl, ?_⟩
      show 0 < l.receiver
      rw [hreceiver]
      exact h
  | marking l =>
    have hpos : 0 < l.receiver := h
    simp only [Position.step, Mailboxes.markReady, Mailboxes.core]
    split
    case h_1 f hmark => exact ⟨hbare, trivial⟩
    case h_2 boxes hmark =>
      split at hmark
      · cases hmark
        exact ⟨⟨hbare.slots, by simpa [Mailboxes.raise] using hbare.ready,
          (s.boxes.flag_raise_of_ne hpos.ne').trans hbare.unready⟩, trivial⟩
      · cases hmark
  | entering g =>
    obtain ⟨hpasses, hnext⟩ := Position.step_entering (p := p) (i := i) (r := r) (s := s) g
    rw [hpasses.shared]
    refine ⟨hbare, ?_⟩
    rcases hnext with hwork | ⟨g', hg'⟩
    · rw [hwork]
      exact Role.work_elsewhere _
    · rw [hg']
      trivial
  | measuring x =>
    simp only [Position.step]
    split
    · exact ⟨hbare, trivial⟩
    · exact ⟨hbare.congr Primary.step_boxes.1 Primary.step_boxes.2, trivial⟩
  | answering l x =>
    simp only [Position.step]
    split
    · exact ⟨hbare, trivial⟩
    · exact ⟨hbare.congr (Receiver.step_touched ..).size.1 (Receiver.step_ready ..), trivial⟩
  | flushing f =>
    by_cases hended : f.next = .ended
    · simp only [Position.step, hended, if_true]
      exact ⟨hbare, trivial⟩
    · obtain ⟨lines, hstep⟩ := Position.step_flushing (p := p) (i := i) (r := r) (s := s) hended
      rw [hstep]
      exact ⟨hbare, trivial⟩
  | interfering l x =>
    simp only [Position.step]
    split
    · exact ⟨hbare, trivial⟩
    · refine ⟨?_, trivial⟩
      rw [(p.interferer_step l x s).1]
      exact hbare
  | idling =>
    simp only [Position.step]
    split <;> exact ⟨hbare, trivial⟩
  | noting | exited | lost => exact ⟨hbare, trivial⟩

/-! ## The two primaries -/

/-- Where a primary is that meets a fault when it looks for its receiver, unless it is lost. -/
inductive Position.Refused (p : RunPlan) (f : Fault) : Position → Prop
  | before (g : Gate) : Refused p f (.entering g)
  | connecting : Refused p f (.measuring (.start p))
  | during {x : Primary} (hfault : x.fault = some f)
      (hduty : x.duty = .leaving ∨ x.duty = .announcing ∨ x.duty = .ended) :
      Refused p f (.measuring x)
  | after : Refused p f (.exited (.error f))
  | lost : Refused p f .lost

/-- Where a primary is that waits for its receiver. -/
inductive Position.Awaits (p : RunPlan) : Position → Prop
  | before (g : Gate) : Awaits p (.entering g)
  | during : Awaits p (.measuring (.start p))

theorem Primary.start_connecting (hneeds : p.needsReceivers = true) :
    (Primary.start p).duty = .connecting := if_pos hneeds

theorem Position.Refused.step {f : Fault} (h : pos.Refused p f)
    (hrole : Role.assign p i = .primary) (hneeds : p.needsReceivers = true)
    (hlink : s.boxes.link i p.signalOffset p.payload = .error f) :
    (pos.step p i r s).1.Refused p f := by
  cases h with
  | before g =>
    obtain ⟨-, hwork | ⟨g', hg'⟩⟩ := Position.step_entering (p := p) (i := i) (r := r) (s := s) g
    · rw [hwork, hrole]
      exact .connecting
    · rw [hg']
      exact .before g'
  | connecting =>
    have hduty := Primary.start_connecting hneeds
    rw [Position.step_measuring (by rw [hduty]; nofun)]
    simp only [Primary.step, hduty, hlink]
    exact .during rfl (.inl rfl)
  | @during x hfault hduty =>
    by_cases hended : x.duty = .ended
    · rw [show (measuring x).step p i r s = (.exited (x.result p i), s) from if_pos hended,
        Primary.result, hfault]
      exact .after
    · rw [Position.step_measuring hended]
      rcases hduty with hduty | hduty | hduty
      · -- it leaves, as the last primary or not
        simp only [Primary.step, hduty]
        refine .during hfault ?_
        dsimp only
        split
        · exact .inr (.inl rfl)
        · exact .inr (.inr rfl)
      · simp only [Primary.step, hduty]
        exact .during hfault (.inr (.inr rfl))
      · exact absurd hduty hended
  | after => exact .after
  | lost => exact .lost

theorem Position.Awaits.step {l : Link} (h : pos.Awaits p) (hrole : Role.assign p i = .primary)
    (hneeds : p.needsReceivers = true)
    (hlink : s.boxes.link i p.signalOffset p.payload = .ok l)
    (hunready : s.boxes.flag l.receiver = false) : (pos.step p i r s).1.Awaits p := by
  cases h with
  | before g =>
    obtain ⟨-, hwork | ⟨g', hg'⟩⟩ := Position.step_entering (p := p) (i := i) (r := r) (s := s) g
    · rw [hwork, hrole]
      exact .during
    · rw [hg']
      exact .before g'
  | during =>
    have hduty := Primary.start_connecting hneeds
    rw [Position.step_measuring (by rw [hduty]; nofun)]
    simp only [Primary.step, hduty, hlink, hunready]
    exact .during

/-! ## Stray runs -/

/-- What a primary meets whose receiver has the last word for its number. -/
def RunPlan.strayFault (p : RunPlan) : Fault := .slotOutOfRange (2 ^ 64 - 1) p.cores.toNat

/-- A run in which a primary is refused its link. -/
structure Machine.Strays (p : RunPlan) (c : Nat) (m : Machine) : Prop where
  runs : m.Runs p
  bare : m.shared.boxes.Bare p.cores.toNat
  elsewhere : ∀ i, (m.position i).Elsewhere p
  refused : (m.position c).Refused p p.strayFault

/-- The receiver of a primary has the last word for its number. -/
structure RunPlan.Stray (p : RunPlan) (c : Nat) : Prop where
  accepted : p.Accepted
  needs : p.needsReceivers = true
  primary : c + 1 < p.primaries.toNat
  last : c + p.signalOffset.toNat = 2 ^ 64 - 1

namespace RunPlan.Stray

theorem link_eq (h : p.Stray c) {m : Mailboxes} (hbare : m.Bare p.cores.toNat) :
    m.link c p.signalOffset p.payload = .error p.strayFault := by
  have hcores := p.cores.toNat_lt
  have hlast := h.last
  have hsum : (UInt64.ofNat c + p.signalOffset).toNat = 2 ^ 64 - 1 := by
    rw [toNat_ofNat_add (by omega), hlast]
  rw [Mailboxes.link, Mailboxes.slotFor, hsum, Mailboxes.slot, hbare.slots, if_neg (by omega)]
  rfl

/-- The next primary finds itself at the offset from core zero. -/
theorem link_next (h : p.Stray c) {m : Mailboxes} (hbare : m.Bare p.cores.toNat) :
    m.link (c + 1) p.signalOffset p.payload = .ok ⟨c + 1, 0, p.payload⟩ := by
  have hprimary := h.primary
  have hle := h.accepted.primaries.2
  have hslots := hbare.slots
  have hready := hbare.ready
  have hhosts : m.Hosts ⟨c + 1, 0, p.payload⟩ := by
    constructor <;> dsimp only <;> omega
  refine hhosts.link_eq ?_
  have hlast := h.last
  have hword := p.primaries.toNat_lt
  rw [UInt64.toNat_add, UInt64.toNat_ofNat_of_lt' (show c + 1 < 2 ^ 64 by omega),
    show c + 1 + p.signalOffset.toNat = 2 ^ 64 by omega]
  exact Nat.mod_self _

theorem start (h : p.Stray c) :
    (Machine.start p).Strays p c ∧ ((Machine.start p).position (c + 1)).Awaits p := by
  have hle := h.accepted.primaries.2
  have hprimary := h.primary
  have hopening : ∀ {i}, i < p.primaries.toNat →
      (Machine.start p).position i = .entering .outside := fun {i} hi => by
    rw [Machine.position_start (by omega), Role.assign_primary hi]
    rfl
  refine ⟨⟨Machine.runs_start p, ?_, fun i => ?_, ?_⟩, ?_⟩
  · exact ⟨by simp [Machine.start, Shared.start, Mailboxes.create],
      by simp [Machine.start, Shared.start, Mailboxes.create], Mailboxes.flag_create ..⟩
  · rcases Nat.lt_or_ge i p.cores.toNat with hi | hi
    · rw [Machine.position_start hi]
      cases hrole : Role.assign p i with
      | receiver sender =>
        -- the sum of a receiver's sender and the offset is its own number
        obtain ⟨-, c', hc', rfl⟩ := Role.assign_eq_receiver_iff.1 hrole
        obtain ⟨-, rfl, -⟩ := RunPlan.sender?_eq_some_iff.1 hc'
        have hoffset := h.accepted.offset
        have hcores := p.cores.toNat_lt
        show 0 < (UInt64.ofNat (UInt64.ofNat c').toNat + p.signalOffset).toNat
        rw [UInt64.toNat_ofNat_of_lt' (show c' < 2 ^ 64 by omega), toNat_ofNat_add (by omega)]
        omega
      | primary | flusher | interferer | idle => trivial
    · rw [Machine.position_of_le _ ((Machine.runs_start p).size ▸ hi)]
      trivial
  · rw [hopening (by omega)]
    exact .before _
  · rw [hopening hprimary]
    exact .before _

end RunPlan.Stray

/-- Whatever happens, the primary is refused its link. -/
theorem Machine.Strays.step (hstray : p.Stray c) (h : m.Strays p c) (e : Event) :
    (m.step e).Strays p c := by
  have hruns := h.runs.step e
  have hmoved := m.step_moved e
  suffices hkept : (m.step e).shared.boxes.Bare p.cores.toNat ∧
      (∀ i, ((m.step e).position i).Elsewhere p) ∧
      ((m.step e).position c).Refused p p.strayFault from
    ⟨hruns, hkept.1, hkept.2.1, hkept.2.2⟩
  generalize (m.step e).shared = s' at hmoved
  generalize (m.step e).position = f' at hmoved
  cases hmoved with
  | @core i r hi =>
    rw [h.runs.plan]
    obtain ⟨hbare, helsewhere⟩ := (h.elsewhere i).step (i := i) (r := r) h.bare
    refine ⟨hbare, (forall_update_iff _ fun _ => Position.Elsewhere p).2
      ⟨helsewhere, fun j _ => h.elsewhere j⟩, ?_⟩
    rcases eq_or_ne c i with rfl | hne
    · rw [update_self]
      have hlt : c < p.primaries.toNat := Nat.lt_of_succ_lt hstray.primary
      exact h.refused.step (Role.assign_primary hlt) hstray.needs (hstray.link_eq h.bare)
    · rw [update_of_ne hne]
      exact h.refused
  | @loss i hi hwork =>
    refine ⟨h.bare, (forall_update_iff _ fun _ => Position.Elsewhere p).2
      ⟨trivial, fun j _ => h.elsewhere j⟩, ?_⟩
    rcases eq_or_ne c i with rfl | hne
    · rw [update_self]
      exact .lost
    · rw [update_of_ne hne]
      exact h.refused
  | still t => exact ⟨⟨h.bare.slots, h.bare.ready, h.bare.unready⟩, h.elsewhere, h.refused⟩

/-- As long as no core is lost, the next primary waits. -/
theorem Machine.Strays.awaits_step (hstray : p.Stray c) (h : m.Strays p c)
    (hwaits : (m.position (c + 1)).Awaits p) {e : Event} (he : ∀ i, e ≠ .loss i) :
    ((m.step e).position (c + 1)).Awaits p := by
  have hmoved := m.step_moved e
  generalize (m.step e).shared = s' at hmoved
  generalize (m.step e).position = f' at hmoved
  cases hmoved with
  | @core i r hi =>
    rw [h.runs.plan]
    rcases eq_or_ne (c + 1) i with rfl | hne
    · rw [update_self]
      exact hwaits.step (Role.assign_primary hstray.primary) hstray.needs
        (hstray.link_next h.bare) h.bare.unready
    · rwa [update_of_ne hne]
  | @loss i => exact absurd rfl (he i)
  | still => exact hwaits

theorem Machine.Strays.run (hstray : p.Stray c) (h : m.Strays p c) (events : List Event) :
    (m.run events).Strays p c :=
  List.foldlRecOn (motive := fun m => m.Strays p c) events Machine.step h fun _ h e _ =>
    h.step hstray e

theorem Machine.Strays.awaits_run (hstray : p.Stray c) (h : m.Strays p c)
    (hwaits : (m.position (c + 1)).Awaits p) {events : List Event}
    (hlossless : ∀ i, .loss i ∉ events) : ((m.run events).position (c + 1)).Awaits p := by
  induction events generalizing m with
  | nil => exact hwaits
  | cons e events ih =>
    refine ih (h.step hstray e) (h.awaits_step hstray hwaits fun i he => ?_) fun i hi =>
      hlossless i (List.mem_cons_of_mem _ hi)
    exact hlossless i (he ▸ List.mem_cons_self)

/-! ## What becomes of them -/

theorem Position.Awaits.not_over (h : pos.Awaits p) : pos.over = false := by
  cases h <;> rfl

theorem Machine.Strays.not_over (hstray : p.Stray c) (h : m.Strays p c)
    (hwaits : (m.position (c + 1)).Awaits p) : m.over = false := by
  refine Bool.eq_false_iff.2 fun hover => ?_
  have hlt := hstray.primary.trans_le hstray.accepted.primaries.2
  have hend := h.runs.over_iff.1 hover (c + 1) hlt
  rw [hwaits.not_over] at hend
  cases hend

theorem Position.Refused.result?_eq {f : Fault} (h : pos.Refused p f) (hover : pos.over = true)
    (core : Nat) : ∃ e, pos.result? core = some (.error e) := by
  cases h with
  | after => exact ⟨_, rfl⟩
  | lost => exact ⟨_, rfl⟩
  | before | connecting | during => cases hover

theorem isOk_of_mapM_eq_ok {results : List (Except Fault Outcome)} {os : List Outcome}
    (h : results.mapM id = .ok os) : ∀ result ∈ results, ∃ o, result = .ok o := by
  induction results generalizing os with
  | nil => simp
  | cons result results ih =>
    rw [List.mapM_cons] at h
    cases result with
    | error f => cases h
    | ok o =>
      cases hrest : results.mapM id with
      | error f =>
        rw [hrest] at h
        cases h
      | ok rest => exact List.forall_mem_cons.2 ⟨⟨o, rfl⟩, ih hrest⟩

/-- A run in which a primary was refused its link reports on nothing. -/
theorem Machine.Strays.report_ne (hstray : p.Stray c) (h : m.Strays p c) (hover : m.over = true)
    (host : HostInfo) (report : RunReport) : m.finish.report host ≠ .ok report := by
  intro hreport
  have hlt := (Nat.lt_of_succ_lt hstray.primary).trans_le hstray.accepted.primaries.2
  obtain ⟨e, he⟩ := h.refused.result?_eq (h.runs.over_iff.1 hover c hlt) c
  rw [Machine.report, show m.finish.outcomes = m.outcomes from rfl] at hreport
  cases houtcomes : m.outcomes with
  | error f =>
    rw [houtcomes] at hreport
    cases hreport
  | ok os =>
    have hmem : (m.position c, c) ∈ m.cores.toList.zipIdx := by
      rw [List.mk_mem_zipIdx_iff_getElem?, Array.getElem?_toList]
      exact h.runs.getElem? hlt
    obtain ⟨o, ho⟩ := isOk_of_mapM_eq_ok houtcomes _ (List.mem_filterMap.2 ⟨_, hmem, he⟩)
    cases ho

/-! ## All valid plans -/

/-- What is so of every run of a plan whose last receiver has no number: one primary is refused its
link; as long as no core is lost the run does not come to its end; and it does not succeed. -/
theorem RunPlan.Accepted.astray (h : p.Accepted) (hwrapped : ¬ p.Unwrapped) :
    ∃ c < p.primaries.toNat, ∀ events,
      ((Machine.start p).run events).shared.boxes.link c p.signalOffset p.payload =
          .error p.strayFault ∧
        ((∀ i, .loss i ∉ events) → ((Machine.start p).run events).over = false) ∧
        ∀ host report, p.outcome host events ≠ some (.ok report) := by
  obtain ⟨hneeds, c, hprimary, hlast⟩ := h.stray hwrapped
  have hstray : p.Stray c := ⟨h, hneeds, hprimary, hlast⟩
  obtain ⟨hstart, hwaits⟩ := hstray.start
  refine ⟨c, Nat.lt_of_succ_lt hprimary, fun events => ?_⟩
  have hrun := hstart.run hstray events
  refine ⟨hstray.link_eq hrun.bare, fun hlossless => ?_, fun host report houtcome => ?_⟩
  · exact hrun.not_over hstray (hstart.awaits_run hstray hwaits hlossless)
  · rw [RunPlan.outcome_eq (RunPlan.valid_iff_accepted.2 h)] at houtcome
    split at houtcome
    case isTrue hover => exact hrun.report_ne hstray hover host report (Option.some.inj houtcome)
    case isFalse => cases houtcome

/-- Exactly if the number of the last receiver is a word are all runs of a valid plan in order in
which no core is lost. If it is none, one primary is refused its link in every run; no run in which
no core is lost comes to its end; and none succeeds. -/
theorem RunPlan.run_orderly_iff (hvalid : p.Valid) :
    (p.Unwrapped ↔ ∀ events, (∀ i, .loss i ∉ events) →
      ((Machine.start p).run events).Orderly p ((Machine.start p).requestsIn events)) ∧
    (¬ p.Unwrapped → ∃ c < p.primaries.toNat, ∀ events,
      ((Machine.start p).run events).shared.boxes.link c p.signalOffset p.payload =
          .error (.slotOutOfRange (2 ^ 64 - 1) p.cores.toNat) ∧
        ((∀ i, .loss i ∉ events) → ((Machine.start p).run events).over = false) ∧
        ∀ h report, p.outcome h events ≠ some (.ok report)) := by
  have haccepted := RunPlan.valid_iff_accepted.1 hvalid
  refine ⟨⟨fun hunwrapped => (hvalid.fits hunwrapped).run_orderly, fun horderly => ?_⟩,
    haccepted.astray⟩
  by_contra hwrapped
  obtain ⟨c, hc, hrefused⟩ := haccepted.astray hwrapped
  have hneeds := (haccepted.stray hwrapped).1
  have hlinked := ((horderly [] (by simp)).links hneeds c hc).1
  rw [(hrefused []).1] at hlinked
  cases hlinked

/-- A plan for three cores, whose primary makes one attempt after one window of warm-up. -/
def brief : RunPlan :=
  { RunPlan.standard with
    cores := 3
    workload := .response
    loop := { LoopPlan.standard with samples := 1, warmup := 1 } }

/-- Three cores that step in turn. -/
def inTurns (turns : Nat) : List Event :=
  (List.replicate turns [.core 0 ⟨0, 0⟩, .core 1 ⟨0, 0⟩, .core 2 ⟨0, 0⟩]).flatten

/-- A plan for four cores with two primaries, at an offset that leads past the range of words. -/
def wrapped : RunPlan :=
  { RunPlan.standard with
    cores := 4
    primaries := 2
    signalOffset := 0xFFFFFFFFFFFFFFFF
    workload := .roundTrip }

/-- The first plan has runs that come to their ends in order; of the second, which is valid as well,
no such run comes to its end. -/
theorem RunPlan.run_orderly_iff_wrapped :
    brief.Valid ∧ (∀ i, .loss i ∉ inTurns 46) ∧
      ((Machine.start brief).run (inTurns 46)).over = true ∧
      ((Machine.start brief).requestsIn (inTurns 46)) = 2 ∧
      ((Machine.start brief).run (inTurns 46)).Orderly brief 2 ∧
      wrapped.Valid ∧ ¬ wrapped.Unwrapped ∧ ∀ events, (∀ i, .loss i ∉ events) →
        ((Machine.start wrapped).run events).over = false := by
  have hvalid : brief.Valid := by decide
  have hlossless : ∀ i, .loss i ∉ inTurns 46 := by simp [inTurns]
  have hover : ((Machine.start brief).run (inTurns 46)).over = true := by decide +kernel
  have htwo : (Machine.start brief).requestsIn (inTurns 46) = 2 := by decide +kernel
  have horderly := (RunPlan.run_orderly_iff hvalid).1.1 (by decide) (inTurns 46) hlossless
  rw [htwo] at horderly
  have hvalid' : wrapped.Valid := by decide
  have hwrapped : ¬ wrapped.Unwrapped := by decide
  obtain ⟨c, -, hstuck⟩ := (RunPlan.run_orderly_iff hvalid').2 hwrapped
  exact ⟨hvalid, hlossless, hover, htwo, horderly, hvalid', hwrapped,
    fun events hevents => (hstuck events).2.1 hevents⟩

end LatencyGauge
