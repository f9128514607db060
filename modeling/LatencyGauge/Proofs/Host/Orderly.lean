/-
Runs in which no core is lost. The flag is set by the last primary that finishes, and by nobody
before; nobody else comes to an end before it is set; some core goes on until all have come to their
ends; no receiver and no primary is refused a link; and at the end every receiver has served, and
the core that flushes has flushed, once for every window of the warm-up and for every attempt.
-/
import LatencyGauge.Proofs.Host.Progress

namespace LatencyGauge

open Function

variable {p : RunPlan} {m : Machine} {n i : Nat} {pos : Position}

/-! ## What is said of a run -/

/-- Whether a core has finished its work. -/
def Position.finished : Position → Bool
  | .measuring x => x.duty = .ended
  | .exited _ => true
  | _ => false

/-- A run in order, in which so many requests to flush were announced. Requests are numbered by
words, so flushes are counted as long as the next number does not overflow. -/
structure Machine.Orderly (p : RunPlan) (requests : Nat) (m : Machine) : Prop where
  done_iff : m.shared.done.isSet = true ↔
    ∀ c < p.primaries.toNat, ∃ pos, m.cores[c]? = some pos ∧ pos.finished = true
  set_by : ∀ e, m.shared.done.isSet = false → (m.step e).shared.done.isSet = true →
    ∃ c < p.primaries.toNat, (∃ r, e = .core c r) ∧
      (∃ pos, m.cores[c]? = some pos ∧ pos.finished = false) ∧
      ∀ c' < p.primaries.toNat, c' ≠ c → ∃ pos, m.cores[c']? = some pos ∧ pos.finished = true
  exits : ∀ i result, p.primaries.toNat ≤ i → m.cores[i]? = some (.exited result) →
    m.shared.done.isSet = true
  moves : m.over = false → ∃ i pos, m.cores[i]? = some pos ∧ ¬ m.InVain i ∧
    (m.shared.done.isSet = false → pos.atWork = true → Role.assign p i ≠ p.background.role)
  ends : m.shared.done.isSet = true → ∀ i rs, 20 < rs.length →
    ∀ pos, (m.alone i rs).cores[i]? = some pos → pos.over = true
  links : p.needsReceivers = true → ∀ c < p.primaries.toNat,
    m.shared.boxes.link c p.signalOffset p.payload = .ok (p.link c) ∧
      (m.shared.boxes.bind c p.signalOffset p.payload).1 = .ok (p.link c)
  faultless : ∀ i : Nat, (∀ f, m.cores[i]? ≠ some (.exited (.error f))) ∧
    ∀ x, m.cores[i]? = some (.measuring x) → x.fault = none
  served : m.over = true → p.needsReceivers = true → ∀ c < p.primaries.toNat,
    ∃ report unfiltered,
      m.cores[c]? = some (.exited (.ok (.measured (.single report unfiltered)))) ∧
      m.cores[c + p.signalOffset.toNat]? =
        some (.exited (.ok (.served (p.loop.warmup + report.attempts))))
  flushed : m.over = true → p.workload = .response → requests < 2 ^ 64 →
    ∃ report unfiltered,
      m.cores[0]? = some (.exited (.ok (.measured (.single report unfiltered)))) ∧
      (∃ core, Role.assign p core = .flusher) ∧
      ∀ core, Role.assign p core = .flusher →
        m.cores[core]? = some (.exited (.ok (.flushed (p.loop.warmup + report.attempts))))

/-! ## How it follows -/

theorem Machine.Runs.getElem? (h : m.Runs p) (hi : i < p.cores.toNat) :
    m.cores[i]? = some (m.position i) := Machine.getElem?_cores.2 ⟨h.size ▸ hi, rfl⟩

theorem Machine.Runs.of_getElem? (h : m.Runs p) (hpos : m.cores[i]? = some pos) :
    i < p.cores.toNat ∧ m.position i = pos := by
  rw [← h.size]
  exact Machine.getElem?_cores.1 hpos

theorem Machine.Runs.over_iff (h : m.Runs p) :
    m.over = true ↔ ∀ i < p.cores.toNat, (m.position i).over = true := by
  rw [Machine.over, Array.all_eq_true, ← h.size]
  refine forall₂_congr fun i hi => ?_
  simp [Machine.position, hi]

theorem Position.Measures.finished_eq {x : Primary} (h : pos.Measures p i x) :
    pos.finished = decide (pos.pending = 0) := by
  cases h with
  | before => rfl
  | @during x h =>
    simp only [Position.finished, Position.pending]
    split <;> simp_all
  | after => rfl

/-- Only steps of cores set the flag. -/
theorem Machine.step_done {e : Event} (he : ∀ i r, e ≠ .core i r) :
    (m.step e).shared.done = m.shared.done := by
  have hmoved := m.step_moved e
  generalize (m.step e).shared = s' at hmoved
  generalize (m.step e).position = f' at hmoved
  cases hmoved with
  | core => exact absurd rfl (he _ _)
  | loss | still => rfl

namespace Machine.Well

theorem measures (h : m.Well p n) (hfits : p.Fits) {c : Nat} (hc : c < p.primaries.toNat) :
    ∃ x, (m.position c).Measures p c x := by
  have hfills := h.sound.formed.fills c (hc.trans_le hfits.primaries.2)
  rw [Role.assign_primary hc] at hfills
  exact hfills.measures.resolve_left (h.sound.present c hc)

theorem finished_iff (h : m.Well p n) (hfits : p.Fits) {c : Nat} (hc : c < p.primaries.toNat) :
    (∃ pos, m.cores[c]? = some pos ∧ pos.finished = true) ↔ (m.position c).pending = 0 := by
  obtain ⟨x, hx⟩ := h.measures hfits hc
  rw [h.runs.getElem? (hc.trans_le hfits.primaries.2)]
  simp [hx.finished_eq]

theorem done_iff (h : m.Well p n) (hfits : p.Fits) : m.shared.done.isSet = true ↔
    ∀ c < p.primaries.toNat, ∃ pos, m.cores[c]? = some pos ∧ pos.finished = true := by
  rw [h.sound.formed.census.done_iff]
  exact forall₂_congr fun c hc => (h.finished_iff hfits hc).symm

/-- The step that sets the flag is the last one of the last primary. -/
theorem set_by (h : m.Well p n) (hfits : p.Fits) (e : Event) (hclear : m.shared.done.isSet = false)
    (hset : (m.step e).shared.done.isSet = true) :
    ∃ c < p.primaries.toNat, (∃ r, e = .core c r) ∧
      (∃ pos, m.cores[c]? = some pos ∧ pos.finished = false) ∧
      ∀ c' < p.primaries.toNat, c' ≠ c → ∃ pos, m.cores[c']? = some pos ∧ pos.finished = true := by
  cases e with
  | core i r =>
    have hnext := h.step hfits (e := .core i r) trivial
    have hall := hnext.sound.formed.census.done_iff.1 hset
    have hi : i < m.cores.size := by
      by_contra hle
      rw [m.step_core_of_le (Nat.not_lt.1 hle), hclear] at hset
      cases hset
    rw [(m.step_core hi r).2] at hall
    -- nobody but the core that steps can have finished with this step
    have hothers : ∀ c < p.primaries.toNat, c ≠ i → (m.position c).pending = 0 :=
      fun c hc hne => by
        have hzero := hall c hc
        rwa [update_of_ne hne] at hzero
    have hunfinished : i < p.primaries.toNat ∧ (m.position i).pending ≠ 0 := by
      by_contra hnot
      have hzero : ∀ c < p.primaries.toNat, (m.position c).pending = 0 := fun c hc => by
        rcases eq_or_ne c i with rfl | hne
        · by_contra hp
          exact hnot ⟨hc, hp⟩
        · exact hothers c hc hne
      rw [h.sound.formed.census.done_iff.2 hzero] at hclear
      cases hclear
    obtain ⟨hlt, hpending⟩ := hunfinished
    obtain ⟨x, hx⟩ := h.measures hfits hlt
    refine ⟨i, hlt, ⟨r, rfl⟩, ⟨m.position i, h.runs.getElem? (h.runs.size ▸ hi), ?_⟩,
      fun c hc hne => (h.finished_iff hfits hc).2 (hothers c hc hne)⟩
    rw [hx.finished_eq, decide_eq_false hpending]
  | timer | loss =>
    rw [Machine.step_done (by simp), hclear] at hset
    cases hset

theorem exits (h : m.Well p n) (hle : p.primaries.toNat ≤ i) {result : Except Fault Outcome}
    (hpos : m.cores[i]? = some (.exited result)) : m.shared.done.isSet = true := by
  obtain ⟨hi, hposition⟩ := h.runs.of_getElem? hpos
  exact h.sound.formed.ending i hi hle (by rw [hposition]; rfl)

theorem links (h : m.Well p n) (hfits : p.Fits) (hneeds : p.needsReceivers = true) {c : Nat}
    (hc : c < p.primaries.toNat) :
    m.shared.boxes.link c p.signalOffset p.payload = .ok (p.link c) ∧
      (m.shared.boxes.bind c p.signalOffset p.payload).1 = .ok (p.link c) := by
  have hhosts := h.sound.formed.hosts hfits hneeds hc
  refine ⟨hhosts.link_eq (p.link_receiver c), ?_⟩
  have hclaim : m.shared.boxes.claim c p.signalOffset p.payload =
      .ok (p.link c, m.shared.boxes.write (p.link c).receiver 0) :=
    hhosts.claim_eq (p.link_receiver c)
  have hmark : (m.shared.boxes.write (p.link c).receiver 0).markReady (p.link c).receiver =
      .ok ((m.shared.boxes.write (p.link c).receiver 0).raise (p.link c).receiver) := by
    rw [Mailboxes.markReady, Mailboxes.core_eq (by simpa [Mailboxes.write] using hhosts.core)]
    rfl
  simp only [Mailboxes.bind, hclaim, hmark]

end Machine.Well

/-- A core at a position of its role has met no fault. -/
theorem Position.Fills.faultless {role : Role} (h : pos.Fills p i role) :
    (∀ f, pos ≠ .exited (.error f)) ∧ ∀ x, pos = .measuring x → x.fault = none := by
  cases h with
  | primary h =>
    cases h with
    | during hfit => exact ⟨by simp, fun x hx => by cases hx; exact hfit.fault⟩
    | before | after => simp
  | receiver h => cases h <;> simp
  | flusher h => cases h <;> simp
  | interferer h => cases h <;> simp
  | idle h => cases h <;> simp
  | lost => simp

namespace Machine.Well

theorem faultless (h : m.Well p n) (i : Nat) : (∀ f, m.cores[i]? ≠ some (.exited (.error f))) ∧
    ∀ x, m.cores[i]? = some (.measuring x) → x.fault = none := by
  refine ⟨fun f hf => ?_, fun x hx => ?_⟩
  · obtain ⟨hi, hpos⟩ := h.runs.of_getElem? hf
    exact (h.sound.formed.fills i hi).faultless.1 f hpos
  · obtain ⟨hi, hpos⟩ := h.runs.of_getElem? hx
    exact (h.sound.formed.fills i hi).faultless.2 x hpos

/-- A primary core that has come to its end. -/
theorem measured (h : m.Well p n) (hfits : p.Fits) (hover : m.over = true) {c : Nat}
    (hc : c < p.primaries.toNat) {x : Primary} (hx : (m.position c).Measures p c x) :
    x.duty = .ended ∧ x.warmups = 0 ∧
      m.cores[c]? = some (.exited (.ok (.measured (x.measurement p c)))) := by
  have hi := hc.trans_le hfits.primaries.2
  have hpos := h.runs.over_iff.1 hover c hi
  rw [h.runs.getElem? hi]
  generalize m.position c = pos at hx hpos
  cases hx with
  | after hfit hended => exact ⟨hended, hfit.spent (by rw [hended]; rfl), rfl⟩
  | before | during => cases hpos

end Machine.Well

/-- The report of a primary that needs a receiver. -/
theorem Primary.measurement_single {x : Primary} {c : Nat} (hneeds : p.needsReceivers = true) :
    ∃ report : LoopReport, x.measurement p c = .single report x.unfiltered ∧
      report.attempts = UInt64.ofNat x.tally.forward.attempts := by
  refine ⟨x.tally.forward.report (p.measurementName c) p.loop x.tally.forward.completed, ?_, rfl⟩
  simp [Primary.measurement, RunPlan.not_paired hneeds]

namespace Machine.Well

theorem served (h : m.Well p n) (hfits : p.Fits) (hover : m.over = true)
    (hneeds : p.needsReceivers = true) {c : Nat} (hc : c < p.primaries.toNat) :
    ∃ report unfiltered,
      m.cores[c]? = some (.exited (.ok (.measured (.single report unfiltered)))) ∧
      m.cores[c + p.signalOffset.toNat]? =
        some (.exited (.ok (.served (p.loop.warmup + report.attempts)))) := by
  obtain ⟨x, a, k, rest, hx, ha, hclosed, hmeeting⟩ := h.sound.pairs hneeds c hc
  obtain ⟨hended, hwarmups, hmeasured⟩ := h.measured hfits hover hc hx
  have hlt := (hfits.receiver_lt hneeds hc).1
  obtain ⟨report, hreport, hattempts⟩ := Primary.measurement_single (x := x) (c := c) hneeds
  rw [hreport] at hmeasured
  refine ⟨report, x.unfiltered, hmeasured, ?_⟩
  have hpos := h.runs.over_iff.1 hover _ hlt
  rw [h.runs.getElem? hlt]
  generalize m.position (c + p.signalOffset.toNat) = pos at ha hpos
  cases ha with
  | after served =>
    obtain ⟨-, rfl⟩ := hmeeting.served
    rw [Primary.Counts, hended, hwarmups] at hclosed
    have hserved : UInt64.ofNat served = p.loop.warmup + report.attempts := by
      rw [hattempts, show served = p.loop.warmup.toNat + x.tally.forward.attempts from hclosed]
      simp
    rw [hserved]
  | binding | marking | before | during => cases hpos

theorem flushed (h : m.Well p n) (hfits : p.Fits) (hover : m.over = true)
    (hresponse : p.workload = .response) (hword : n < 2 ^ 64) :
    ∃ report unfiltered,
      m.cores[0]? = some (.exited (.ok (.measured (.single report unfiltered)))) ∧
      (∃ core, Role.assign p core = .flusher) ∧
      ∀ core, Role.assign p core = .flusher →
        m.cores[core]? = some (.exited (.ok (.flushed (p.loop.warmup + report.attempts)))) := by
  obtain ⟨hone, hthree, -⟩ := hfits.response hresponse
  obtain ⟨j, hj⟩ := RunPlan.firstFree?_isSome hone hthree
  obtain ⟨-, hlt, -⟩ := RunPlan.firstFree?_eq_some_iff.1 hj
  obtain ⟨x, q, k, hx, hq, hasked, -, hphase⟩ := h.sound.lockstep hresponse j hj
  obtain ⟨hended, hwarmups, hmeasured⟩ := h.measured hfits hover (c := 0) (by omega) hx
  obtain ⟨report, hreport, hattempts⟩ := Primary.measurement_single (x := x) (c := 0)
    (RunPlan.needsReceivers_of_response hresponse)
  rw [hreport] at hmeasured
  refine ⟨report, x.unfiltered, hmeasured, ⟨j, Role.assign_flusher hresponse hj⟩,
    fun core hcore => ?_⟩
  obtain rfl : j = core :=
    Option.some.inj (hj.symm.trans (Role.assign_eq_flusher_iff.1 hcore).2)
  obtain ⟨deeds, -, hp⟩ := hphase hword
  rw [hended] at hp
  have hserved := hp.over.2
  have hpos := h.runs.over_iff.1 hover j hlt
  rw [h.runs.getElem? hlt]
  generalize m.position j = pos at hq hpos
  cases hq with
  | after served =>
    rw [Primary.Counts, hended, hwarmups] at hasked
    have hflushes : UInt64.ofNat served = p.loop.warmup + report.attempts := by
      rw [hattempts, show served = k from hserved,
        show k = p.loop.warmup.toNat + x.tally.forward.attempts from hasked]
      simp
    rw [hflushes]
  | before | during => cases hpos

theorem moves_of_not_over (h : m.Well p n) (hfits : p.Fits) (hgoes : m.over = false) :
    ∃ i pos, m.cores[i]? = some pos ∧ ¬ m.InVain i ∧
      (m.shared.done.isSet = false → pos.atWork = true → Role.assign p i ≠ p.background.role) := by
  have hsome : ∃ i < p.cores.toNat, (m.position i).over = false := by
    by_contra hnone
    have hall : ∀ i < p.cores.toNat, (m.position i).over = true := fun i hi =>
      eq_true_of_ne_false fun hfalse => hnone ⟨i, hi, hfalse⟩
    rw [h.runs.over_iff.2 hall] at hgoes
    cases hgoes
  obtain ⟨i, hi, hon⟩ := hsome
  obtain ⟨j, hj, hmoves⟩ := h.moves hfits hi hon
  exact ⟨j, m.position j, h.runs.getElem? hj, hmoves⟩

theorem ends (h : m.Well p n) (hfits : p.Fits) (hdone : m.shared.done.isSet = true)
    {rs : List Reading} (hlong : 20 < rs.length) (hpos : (m.alone i rs).cores[i]? = some pos) :
    pos.over = true := by
  obtain ⟨hi, rfl⟩ := Machine.getElem?_cores.1 hpos
  have hruns : (m.alone i rs).Runs p := h.runs.run _
  exact Machine.Ending.alone hfits (hruns.size ▸ hi) ⟨⟨n, h⟩, hdone⟩ hlong

/-- A sound run is in order. -/
theorem orderly (h : m.Well p n) (hfits : p.Fits) : m.Orderly p n where
  done_iff := h.done_iff hfits
  set_by := h.set_by hfits
  exits _ _ hle hpos := h.exits hle hpos
  moves := h.moves_of_not_over hfits
  ends hdone _ _ hlong _ hpos := h.ends hfits hdone hlong hpos
  links hneeds _ hc := h.links hfits hneeds hc
  faultless := h.faultless
  served hover hneeds _ hc := h.served hfits hover hneeds hc
  flushed hover hresponse hword := h.flushed hfits hover hresponse hword

end Machine.Well

/-- However the cores interleave, the run is in order as long as no core is lost. -/
theorem RunPlan.Fits.run_orderly (hfits : p.Fits) (events : List Event)
    (hlossless : ∀ i, .loss i ∉ events) :
    ((Machine.start p).run events).Orderly p ((Machine.start p).requestsIn events) := by
  have hwell := (Machine.well_start hfits).run hfits fun e he => by
    cases e with
    | loss i => exact absurd he (hlossless i)
    | core | timer => trivial
  rw [Nat.zero_add] at hwell
  exact hwell.orderly hfits

end LatencyGauge
