/-
Runs in which cores are lost. Only a primary sets the flag, and it does so at its end; so once a
primary is lost that has not finished, or the core for which a primary waits, the flag stays clear
whatever happens then, and nobody but primaries comes to an end any more. A run that comes to its
end all the same fails with the least of the cores that were lost.

The invariant is that a primary was lost too early or is forsaken: it looks at a word that only a
lost core would change.
-/
import LatencyGauge.Host.Run
import LatencyGauge.Proofs.Host.Orderly

namespace LatencyGauge

open Function

variable {p : RunPlan} {lost i c : Nat} {r : Reading} {s : Shared} {f : Nat → Position}
  {x : Primary} {m : Machine}

/-! ## What a core leaves as it is -/

/-- A step of a core touches the mailboxes of its own link, and only the core that flushes
acknowledges. -/
theorem Formed.step_touched (hfits : p.Fits) (h : Formed p lost s f) (hi : i < p.cores.toNat) :
    (((f i).step p i r s).2.boxes = s.boxes ∨
      ∃ c < p.primaries.toNat, (i = c ∨ i = c + p.signalOffset.toNat) ∧
        s.boxes.Touched (p.link c) ((f i).step p i r s).2.boxes) ∧
      (Role.assign p i ≠ .flusher →
        ((f i).step p i r s).2.handshake.completed = s.handshake.completed) := by
  have hfills := h.fills i hi
  rcases Role.assign_cases p i with
    ⟨hlt, hrole⟩ | ⟨hle, c, hc, hrole⟩ | ⟨-, -, hrole⟩ | ⟨-, -, -, hrole⟩
  · rw [hrole] at hfills
    rcases hfills.measures with hlost | ⟨x, hx⟩
    · rw [hlost]
      exact ⟨.inl rfl, fun _ => rfl⟩
    rcases hx.step (r := r) (s := s) hrole fun hneeds => h.hosts hfits hneeds hlt with
      ⟨hpasses, -⟩ | ⟨-, -, hstep, -⟩
    · rw [hpasses.shared]
      exact ⟨.inl rfl, fun _ => rfl⟩
    · rw [hstep]
      exact ⟨.inr ⟨i, hlt, .inl rfl, Primary.step_touched⟩, fun _ => Primary.step_completed⟩
  · have hneeds := (RunPlan.sender?_eq_some_iff.1 hc).1
    obtain ⟨hlink, hlt, hi'⟩ := RunPlan.link_role hc
    rw [hrole] at hfills
    rcases hfills.serves with hlost | ⟨a, ha⟩
    · rw [hlost]
      exact ⟨.inl rfl, fun _ => rfl⟩
    rw [hlink] at ha
    rcases ha.step (r := r) (s := s) (i := i) (by rw [hrole, Role.work, hlink])
        (h.hosts hfits hneeds hlt) (p.link_receiver c) rfl with
      ⟨hpasses, -⟩ | ⟨boxes, -, -, -, hshared, htouched, -⟩
    · rw [hpasses.shared]
      exact ⟨.inl rfl, fun _ => rfl⟩
    · rw [hshared]
      exact ⟨.inr ⟨c, hlt, .inr hi', htouched⟩, fun _ => rfl⟩
  · rw [hrole] at hfills
    refine ⟨.inl ?_, fun hother => absurd hrole hother⟩
    rcases hfills.flushes with hlost | ⟨q, hq⟩
    · rw [hlost]
      rfl
    rcases hq.step (r := r) (s := s) hrole with ⟨hpasses, -⟩ | ⟨-, -, -, lines, hshared⟩
    · rw [hpasses.shared]
    · rw [hshared]
  · rw [(h.background (r := r) hi hrole).shared]
    exact ⟨.inl rfl, fun _ => rfl⟩

/-- Cores of other links leave the desk of a link as it is. -/
theorem Formed.step_desk (hfits : p.Fits) (h : Formed p lost s f) (hi : i < p.cores.toNat)
    (hneeds : p.needsReceivers = true) (hc : c < p.primaries.toNat) (hne : i ≠ c)
    (hne' : i ≠ c + p.signalOffset.toNat) :
    ((f i).step p i r s).2.boxes.desk (p.link c) = s.boxes.desk (p.link c) := by
  rcases (h.step_touched (r := r) hfits hi).1 with hsame | ⟨c', hc', hown, htouched⟩
  · rw [hsame]
  · refine hfits.desk_other hneeds hc' hc ?_ htouched
    rintro rfl
    exact hown.elim hne hne'

/-! ## Forsaken primaries -/

/-- The core whose work a primary looks for. -/
def Duty.helper? (p : RunPlan) (c : Nat) : Duty → Option Nat
  | .connecting | .exchanging _ => some (c + p.signalOffset.toNat)
  | .requesting _ => p.firstFree?
  | _ => none

/-- A primary looks at a word that only a lost core would change. -/
structure Forsaken (p : RunPlan) (s : Shared) (f : Nat → Position) (c : Nat) (x : Primary) :
    Prop where
  primary : c < p.primaries.toNat
  measuring : f c = .measuring x
  waits : x.Waits p c s
  lost : ∃ i, x.duty.helper? p c = some i ∧ f i = .lost

theorem Primary.Waits.duty_ne_ended (h : x.Waits p c s) : x.duty ≠ .ended := by
  intro hended
  unfold Primary.Waits at h
  rw [hended] at h
  exact h

theorem Forsaken.pending (h : Forsaken p s f c x) : (f c).pending = 1 := by
  rw [h.measuring]
  exact if_neg h.waits.duty_ne_ended

/-- Nobody but the core that is lost would end the wait. -/
theorem Forsaken.waits_step (hfits : p.Fits) (hformed : Formed p lost s f)
    (hi : i < p.cores.toNat) (h : Forsaken p s f c x) (hne : i ≠ c)
    (hother : x.duty.helper? p c ≠ some i) : x.Waits p c ((f i).step p i r s).2 := by
  have hcores := h.primary.trans_le hfits.primaries.2
  have hfit : x.Fit p := by
    have hfills := hformed.fills c hcores
    rw [Role.assign_primary h.primary, h.measuring] at hfills
    rcases hfills.measures with hlost | ⟨y, hy⟩
    · cases hlost
    · cases hy with
      | during hfit => exact hfit
  have hsuits := hfit.suits
  have hwaits := h.waits
  unfold Primary.Waits at hwaits ⊢
  split at hwaits
  case h_1 hduty =>
    -- it looks for the flag that its receiver raises
    rw [hduty] at hsuits hother
    have hneeds : p.needsReceivers = true := hsuits
    have hhosts := hformed.hosts hfits hneeds h.primary
    have hhosts' := (hformed.step (r := r) hfits hi).hosts hfits hneeds h.primary
    have hdesk := hformed.step_desk (r := r) hfits hi hneeds h.primary hne fun heq =>
      hother (congrArg some heq.symm)
    obtain ⟨l, hlink, hflag⟩ := hwaits
    cases hlink.symm.trans (hhosts.link_eq rfl : _ = .ok (p.link c))
    exact ⟨p.link c, hhosts'.link_eq rfl, (congrArg Desk.ready hdesk).trans hflag⟩
  case h_2 number hduty =>
    -- it looks for its number, which the core that flushes acknowledges
    rw [hduty] at hother
    have hcompleted := (hformed.step_touched (r := r) hfits hi).2 fun hrole =>
      hother (Role.assign_eq_flusher_iff.1 hrole).2
    rw [hcompleted]
    exact hwaits
  case h_3 start hduty =>
    -- it looks for the reply of its receiver
    rw [hduty] at hsuits hother
    have hdesk := hformed.step_desk (r := r) hfits hi hsuits h.primary hne fun heq =>
      hother (congrArg some heq.symm)
    exact (congrArg Desk.reply hdesk).trans hwaits
  case h_4 => exact hwaits.elim

/-- No step of a core helps a primary that is forsaken. -/
theorem Forsaken.step (hfits : p.Fits) (hformed : Formed p lost s f) (hi : i < p.cores.toNat)
    (h : Forsaken p s f c x) :
    Forsaken p ((f i).step p i r s).2 (update f i ((f i).step p i r s).1) c x := by
  obtain ⟨j, hhelper, hlost⟩ := h.lost
  by_cases hown : i = c ∨ i = j
  · -- the primary polls, and the core it waits for is gone
    have hstill : (f i).step p i r s = (f i, s) := by
      rcases hown with rfl | rfl
      · rw [h.measuring, Position.step_measuring h.waits.duty_ne_ended, h.waits.step]
      · rw [hlost]
        rfl
    rw [hstill, update_eq_self]
    exact h
  · obtain ⟨hne, hne'⟩ := not_or.1 hown
    have hother : x.duty.helper? p c ≠ some i := by
      rw [hhelper]
      rintro ⟨⟩
      exact hne' rfl
    constructor
    · exact h.primary
    · rw [update_of_ne (Ne.symm hne)]
      exact h.measuring
    · exact h.waits_step hfits hformed hi hne hother
    · refine ⟨j, hhelper, ?_⟩
      rw [update_of_ne (Ne.symm hne')]
      exact hlost

/-- No more does the loss of another core. -/
theorem Forsaken.loses (h : Forsaken p s f c x) (hne : i ≠ c) :
    Forsaken p s (update f i .lost) c x := by
  obtain ⟨j, hhelper, hlost⟩ := h.lost
  constructor
  · exact h.primary
  · rw [update_of_ne (Ne.symm hne)]
    exact h.measuring
  · exact h.waits
  · refine ⟨j, hhelper, ?_⟩
    rcases eq_or_ne j i with rfl | hj
    · exact update_self ..
    · rw [update_of_ne hj]
      exact hlost

/-! ## Runs that are doomed -/

/-- A machine that runs a plan, in which so many primaries were lost before they had finished. -/
structure Machine.Stands (p : RunPlan) (lost : Nat) (m : Machine) : Prop where
  runs : m.Runs p
  formed : Formed p lost m.shared m.position

theorem Machine.stands_start (hfits : p.Fits) : (Machine.start p).Stands p 0 :=
  ⟨Machine.runs_start p, formed_start hfits fun _ => Machine.position_start⟩

/-- The flag can not be set any more. -/
def Machine.Doomed (p : RunPlan) (m : Machine) : Prop :=
  ∃ lost, m.Stands p lost ∧ (0 < lost ∨ ∃ c x, Forsaken p m.shared m.position c x)

/-- Some primary looks at a word that only a lost core would change. -/
def Machine.Forsakes (p : RunPlan) (m : Machine) : Prop :=
  ∃ c x i, c < p.primaries.toNat ∧ m.cores[c]? = some (.measuring x) ∧ x.Waits p c m.shared ∧
    x.duty.helper? p c = some i ∧ m.cores[i]? = some .lost

theorem Machine.Stands.step (hfits : p.Fits) (h : m.Stands p lost) (e : Event) :
    ∃ lost', (m.step e).Stands p lost' := by
  have hruns := h.runs.step e
  have hmoved := m.step_moved e
  suffices hformed : ∃ lost', Formed p lost' (m.step e).shared (m.step e).position by
    obtain ⟨lost', hformed⟩ := hformed
    exact ⟨lost', hruns, hformed⟩
  generalize (m.step e).shared = s' at hmoved
  generalize (m.step e).position = f' at hmoved
  cases hmoved with
  | core hi =>
    rw [h.runs.plan]
    exact ⟨lost, h.formed.step hfits (h.runs.size ▸ hi)⟩
  | loss hi hwork => exact ⟨_, h.formed.loses hwork⟩
  | still t => exact ⟨lost, h.formed.ticks t⟩

theorem Machine.Stands.run (hfits : p.Fits) (h : m.Stands p lost) (events : List Event) :
    ∃ lost', (m.run events).Stands p lost' := by
  induction events generalizing m lost with
  | nil => exact ⟨lost, h⟩
  | cons e events ih =>
    obtain ⟨lost', hstep⟩ := h.step hfits e
    exact ih hstep

/-- What no event mends. -/
theorem Machine.Doomed.step (hfits : p.Fits) (h : m.Doomed p) (e : Event) :
    (m.step e).Doomed p := by
  obtain ⟨lost, hstands, hdoom⟩ := h
  have hruns := hstands.runs.step e
  have hmoved := m.step_moved e
  suffices hformed : ∃ lost', Formed p lost' (m.step e).shared (m.step e).position ∧
      (0 < lost' ∨ ∃ c x, Forsaken p (m.step e).shared (m.step e).position c x) by
    obtain ⟨lost', hformed, hdoom'⟩ := hformed
    exact ⟨lost', ⟨hruns, hformed⟩, hdoom'⟩
  generalize (m.step e).shared = s' at hmoved
  generalize (m.step e).position = f' at hmoved
  cases hmoved with
  | core hi =>
    rw [hstands.runs.plan]
    rw [hstands.runs.size] at hi
    refine ⟨lost, hstands.formed.step hfits hi, hdoom.imp_right ?_⟩
    rintro ⟨c, x, hforsaken⟩
    exact ⟨c, x, hforsaken.step hfits hstands.formed hi⟩
  | @loss i hi hwork =>
    refine ⟨_, hstands.formed.loses hwork, ?_⟩
    rcases hdoom with hpos | ⟨c, x, hforsaken⟩
    · exact .inl (Nat.lt_add_right _ hpos)
    · rcases eq_or_ne i c with rfl | hne
      · -- a forsaken primary that is lost has not finished
        left
        rw [RunPlan.losses, if_pos hforsaken.primary, hforsaken.pending]
        exact Nat.succ_pos _
      · exact .inr ⟨c, x, hforsaken.loses hne⟩
  | still t =>
    refine ⟨lost, hstands.formed.ticks t, hdoom.imp_right ?_⟩
    rintro ⟨c, x, hforsaken⟩
    exact ⟨c, x, hforsaken.primary, hforsaken.measuring, hforsaken.waits, hforsaken.lost⟩

theorem Machine.Doomed.run (hfits : p.Fits) (h : m.Doomed p) (events : List Event) :
    (m.run events).Doomed p :=
  List.foldlRecOn (motive := fun m => m.Doomed p) events Machine.step h fun _ h e _ =>
    h.step hfits e

/-- The loss of a primary that has not finished. -/
theorem Machine.Stands.doomed_of_loss (hfits : p.Fits) (h : m.Stands p lost)
    (hc : c < p.primaries.toNat) {pos : Position} (hpos : m.cores[c]? = some pos)
    (hwork : pos.atWork = true) (hfinished : pos.finished = false) :
    (m.step (.loss c)).Doomed p := by
  obtain ⟨hcore, rfl⟩ := Machine.getElem?_cores.1 hpos
  have hpending : (m.position c).pending ≠ 0 := by
    have hfills := h.formed.fills c (hc.trans_le hfits.primaries.2)
    rw [Role.assign_primary hc] at hfills
    rcases hfills.measures with hlost | ⟨x, hx⟩
    · rw [hlost] at hwork
      cases hwork
    · rw [hx.finished_eq] at hfinished
      exact of_decide_eq_false hfinished
  obtain ⟨hshared, hposition⟩ := m.step_loss hcore hwork
  refine ⟨lost + p.losses c (m.position c), ⟨h.runs.step _, ?_⟩, .inl ?_⟩
  · rw [hshared, hposition]
    exact h.formed.loses hwork
  · rw [RunPlan.losses, if_pos hc]
    omega

theorem Machine.Stands.doomed_of_forsakes (h : m.Stands p lost) (hforsakes : m.Forsakes p) :
    m.Doomed p := by
  obtain ⟨c, x, i, hc, hx, hwaits, hhelper, hlost⟩ := hforsakes
  exact ⟨lost, h, .inr ⟨c, x, hc, (Machine.getElem?_cores.1 hx).2, hwaits, i, hhelper,
    (Machine.getElem?_cores.1 hlost).2⟩⟩

/-- The flag stays clear. -/
theorem Machine.Doomed.clear (h : m.Doomed p) : m.shared.done.isSet = false := by
  obtain ⟨lost, hstands, hdoom⟩ := h
  rcases Nat.eq_zero_or_pos lost with rfl | hpos
  · -- with none lost too early the flag would say that the forsaken one has finished
    obtain ⟨c, x, hforsaken⟩ := hdoom.resolve_left (Nat.lt_irrefl 0)
    refine Bool.eq_false_iff.2 fun hset => ?_
    have hzero := hstands.formed.census.done_iff.1 hset c hforsaken.primary
    rw [hforsaken.pending] at hzero
    cases hzero
  · exact hstands.formed.census.clear_of_lost hpos

/-- Whether a core waits for the flag and does nothing else. -/
def Position.idles : Position → Bool
  | .idling => true
  | _ => false

/-- With the flag clear a core that idles waits in vain. -/
theorem Machine.inVain_of_idles {pos : Position} (hpos : m.cores[i]? = some pos)
    (hidles : pos.idles = true) (hclear : m.shared.done.isSet = false) : m.InVain i := by
  obtain ⟨hi, hposition⟩ := Machine.getElem?_cores.1 hpos
  cases pos with
  | idling =>
    refine ⟨[⟨0, 0⟩], by simp, m.step_core_still hi ⟨0, 0⟩ ?_⟩
    rw [hposition]
    simp [Position.step, hclear]
  | binding | marking | entering | measuring | answering | flushing | noting | interfering | exited
    | lost => cases hidles

/-- A run that hangs: the flag is clear, who waits for it does so in vain, and nobody but primaries
has come to an end. -/
structure Machine.Hangs (p : RunPlan) (m : Machine) : Prop where
  clear : m.shared.done.isSet = false
  vain : ∀ i pos, m.cores[i]? = some pos → pos.idles = true → m.InVain i
  stays : ∀ i pos, p.primaries.toNat ≤ i → m.cores[i]? = some pos → pos ≠ .lost →
    pos.over = false ∧ m.over = false

theorem Machine.Doomed.hangs (h : m.Doomed p) : m.Hangs p := by
  have hclear := h.clear
  obtain ⟨lost, hstands, -⟩ := h
  refine ⟨hclear, fun i pos hpos hidles => Machine.inVain_of_idles hpos hidles hclear,
    fun i pos hle hpos hpresent => ?_⟩
  obtain ⟨hi, rfl⟩ := hstands.runs.of_getElem? hpos
  have hgoes : (m.position i).over = false := by
    cases hpos : m.position i with
    | exited result =>
      rw [hstands.formed.ending i hi hle (by rw [hpos]; rfl)] at hclear
      cases hclear
    | lost => exact absurd hpos hpresent
    | binding | marking | entering | measuring | answering | flushing | noting | interfering
      | idling => rfl
  refine ⟨hgoes, Bool.eq_false_iff.2 fun hover => ?_⟩
  rw [hstands.runs.over_iff.1 hover i hi] at hgoes
  cases hgoes

/-! ## Results -/

/-- The results of cores that are numbered from `k` on. -/
def resultsFrom (k : Nat) (xs : List Position) : Except Fault (List Outcome) :=
  ((xs.zipIdx k).filterMap fun (x, i) => x.result? i).mapM id

theorem Machine.outcomes_eq (m : Machine) : m.outcomes = resultsFrom 0 m.cores.toList := rfl

theorem resultsFrom_exited (k : Nat) (o : Outcome) (xs : List Position) :
    resultsFrom k (.exited (.ok o) :: xs) = (resultsFrom (k + 1) xs).map (o :: ·) := by
  have hcons : resultsFrom k (.exited (.ok o) :: xs) = (do
      let os ← resultsFrom (k + 1) xs
      pure (o :: os)) := List.mapM_cons
  rw [hcons]
  cases resultsFrom (k + 1) xs <;> rfl

theorem resultsFrom_lost (k : Nat) (xs : List Position) :
    resultsFrom k (.lost :: xs) = .error (.coreLost k) := List.mapM_cons

section Ends

variable {k : Nat} {xs : List Position} (hends : ∀ x ∈ xs, x = .lost ∨ ∃ o, x = .exited (.ok o))
include hends

/-- A run whose cores have come to their ends fails with the first that was lost. -/
theorem resultsFrom_eq_error {n : Nat} (hlost : xs[n]? = some .lost)
    (hleast : ∀ j < n, xs[j]? ≠ some .lost) : resultsFrom k xs = .error (.coreLost (k + n)) := by
  induction xs generalizing k n with
  | nil => simp at hlost
  | cons x xs ih =>
    rcases hends x List.mem_cons_self with rfl | ⟨o, rfl⟩
    · -- none before the first was lost, so this is the first
      cases n with
      | zero => exact resultsFrom_lost k xs
      | succ n => exact absurd rfl (hleast 0 (Nat.succ_pos n))
    · cases n with
      | zero => cases hlost
      | succ n =>
        have hrest := ih (k := k + 1) (fun y hy => hends y (List.mem_cons_of_mem _ hy)) hlost
          fun j hj => hleast (j + 1) (Nat.succ_lt_succ hj)
        rw [resultsFrom_exited, hrest, Nat.add_right_comm]
        rfl

/-- If none was lost it has all their results. -/
theorem resultsFrom_isOk (hpresent : .lost ∉ xs) : ∃ os, resultsFrom k xs = .ok os := by
  induction xs generalizing k with
  | nil => exact ⟨[], rfl⟩
  | cons x xs ih =>
    rcases hends x List.mem_cons_self with rfl | ⟨o, rfl⟩
    · exact absurd List.mem_cons_self hpresent
    · obtain ⟨os, hos⟩ := ih (k := k + 1) (fun y hy => hends y (List.mem_cons_of_mem _ hy))
        fun hmem => hpresent (List.mem_cons_of_mem _ hmem)
      rw [resultsFrom_exited, hos]
      exact ⟨o :: os, rfl⟩

end Ends

/-- Where the cores of a run are when it is over. -/
theorem Machine.Stands.ends (h : m.Stands p lost) (hover : m.over = true) :
    ∀ x ∈ m.cores.toList, x = .lost ∨ ∃ o, x = .exited (.ok o) := by
  intro x hx
  obtain ⟨i, hpos⟩ := List.mem_iff_getElem?.1 hx
  rw [Array.getElem?_toList] at hpos
  obtain ⟨hi, hposition⟩ := h.runs.of_getElem? hpos
  have hend := h.runs.over_iff.1 hover i hi
  have hfaultless := (h.formed.fills i hi).faultless.1
  rw [hposition] at hend hfaultless
  cases x with
  | exited result =>
    cases result with
    | ok o => exact .inr ⟨o, rfl⟩
    | error f => exact absurd rfl (hfaultless f)
  | lost => exact .inl rfl
  | binding | marking | entering | measuring | answering | flushing | noting | interfering
    | idling => cases hend

/-! ## What is left of a run -/

/-- What becomes of a run in which these events happen. It hangs from the moment on in which a
primary is lost that has not finished, or one looks for the work of a core that is lost. It is in
order if only cores of the background are lost. Once it is over its result is the loss of the least
core that was lost, or a report. -/
structure RunPlan.Aftermath (p : RunPlan) (events : List Event) (m : Machine) : Prop where
  abandoned : ∀ before c after, events = before ++ .loss c :: after → c < p.primaries.toNat →
    (∃ pos, ((Machine.start p).run before).cores[c]? = some pos ∧ pos.atWork = true ∧
      pos.finished = false) → m.Hangs p
  forsaken : ∀ before after, events = before ++ after →
    ((Machine.start p).run before).Forsakes p → m.Hangs p
  orderly : (∀ e ∈ events, e.Harmless p) → m.Orderly p ((Machine.start p).requestsIn events)
  unfinished : m.over = false → ∀ h, p.outcome h events = none
  fails : m.over = true → ∀ (h : HostInfo) (k : Nat), m.cores[k]? = some .lost →
    (∀ j < k, m.cores[j]? ≠ some .lost) → p.outcome h events = some (.error (.coreLost k))
  succeeds : m.over = true → (∀ k : Nat, m.cores[k]? ≠ some .lost) →
    ∀ h, ∃ report, p.outcome h events = some (.ok report)

theorem RunPlan.outcome_eq (hvalid : p.Valid) (h : HostInfo) (events : List Event) :
    p.outcome h events = if ((Machine.start p).run events).over
      then some (((Machine.start p).run events).finish.report h) else none := by
  have hcheck : p.check = .ok () := hvalid
  rw [RunPlan.outcome, hcheck]

/-- What a run that is over reports follows from the results of its cores. -/
theorem Machine.report_finish (m : Machine) (h : HostInfo) :
    (∀ e, resultsFrom 0 m.cores.toList = .error e → m.finish.report h = .error e) ∧
      ∀ os, resultsFrom 0 m.cores.toList = .ok os → ∃ report, m.finish.report h = .ok report := by
  have houtcomes : m.finish.outcomes = resultsFrom 0 m.cores.toList := m.finish.outcomes_eq
  constructor
  · intro e he
    rw [Machine.report, houtcomes, he]
    rfl
  · intro os hos
    rw [Machine.report, houtcomes, hos]
    exact ⟨_, rfl⟩

/-- A run with losses hangs if others depend on a core that is lost, and fails otherwise. -/
theorem RunPlan.run_aftermath (hvalid : p.Valid) (hunwrapped : p.Unwrapped) (events : List Event) :
    p.Aftermath events ((Machine.start p).run events) := by
  have hfits := hvalid.fits hunwrapped
  obtain ⟨lost, hstands⟩ := (Machine.stands_start hfits).run hfits events
  constructor
  · rintro before c after rfl hc ⟨pos, hpos, hwork, hfinished⟩
    obtain ⟨lost', hbefore⟩ := (Machine.stands_start hfits).run hfits before
    rw [Machine.run, List.foldl_append, List.foldl_cons]
    exact ((hbefore.doomed_of_loss hfits hc hpos hwork hfinished).run hfits after).hangs
  · rintro before after rfl hforsakes
    obtain ⟨lost', hbefore⟩ := (Machine.stands_start hfits).run hfits before
    rw [Machine.run, List.foldl_append]
    exact ((hbefore.doomed_of_forsakes hforsakes).run hfits after).hangs
  · intro hharmless
    have hwell := (Machine.well_start hfits).run hfits hharmless
    rw [Nat.zero_add] at hwell
    exact hwell.orderly hfits
  · intro hgoes h
    rw [RunPlan.outcome_eq hvalid, hgoes]
    rfl
  · intro hover h k hlost hleast
    simp only [← Array.getElem?_toList] at hlost hleast
    have hfirst := resultsFrom_eq_error (k := 0) (hstands.ends hover) hlost hleast
    rw [RunPlan.outcome_eq hvalid, if_pos hover, (Machine.report_finish _ h).1 _ hfirst,
      Nat.zero_add]
  · intro hover hpresent h
    have hnone : Position.lost ∉ ((Machine.start p).run events).cores.toList := by
      intro hmem
      obtain ⟨k, hk⟩ := List.mem_iff_getElem?.1 hmem
      rw [Array.getElem?_toList] at hk
      exact hpresent k hk
    obtain ⟨os, hos⟩ := resultsFrom_isOk (k := 0) (hstands.ends hover) hnone
    obtain ⟨report, hreport⟩ := (Machine.report_finish _ h).2 os hos
    refine ⟨report, ?_⟩
    rw [RunPlan.outcome_eq hvalid, if_pos hover, hreport]

/-- A plan for two cores whose primary sends a marker before every window. -/
def markedPair : RunPlan := { RunPlan.standard with marker := some "mark" }

/-- Both cores pass the start barrier, and the primary comes to its first marker. -/
def upToMarker : List Event :=
  [.core 0 ⟨0, 0⟩, .core 1 ⟨0, 0⟩, .core 0 ⟨0, 0⟩, .core 1 ⟨0, 0⟩, .core 0 ⟨0, 0⟩, .core 1 ⟨0, 0⟩,
    .core 0 ⟨0, 0⟩, .core 0 ⟨0, 0⟩]

/-- The primary is lost with its first marker: the other core waits in vain, and the run has no
result. -/
theorem RunPlan.run_aftermath_marked :
    markedPair.Valid ∧ markedPair.Unwrapped ∧
      ((Machine.start markedPair).run (upToMarker ++ [.loss 0])).Hangs markedPair ∧
      ((Machine.start markedPair).run (upToMarker ++ [.loss 0])).InVain 1 ∧
      ∀ h, markedPair.outcome h (upToMarker ++ [.loss 0]) = none := by
  have hvalid : markedPair.Valid := by decide
  have hunwrapped : markedPair.Unwrapped := by decide
  have hwork : ((Machine.start markedPair).run upToMarker).cores[0]?.any
      (fun pos => pos.atWork && !pos.finished) = true := by decide +kernel
  have hidles : ((Machine.start markedPair).run (upToMarker ++ [.loss 0])).cores[1]?.any
      Position.idles = true := by decide +kernel
  have haftermath := RunPlan.run_aftermath hvalid hunwrapped (upToMarker ++ [.loss 0])
  have hhangs : ((Machine.start markedPair).run (upToMarker ++ [.loss 0])).Hangs markedPair := by
    obtain ⟨pos, hpos, hatWork⟩ := (Option.any_eq_true ..).1 hwork
    rw [Bool.and_eq_true, Bool.not_eq_true'] at hatWork
    exact haftermath.abandoned upToMarker 0 [] rfl (by decide) ⟨pos, hpos, hatWork⟩
  obtain ⟨pos, hpos, hidle⟩ := (Option.any_eq_true ..).1 hidles
  have hpresent : pos ≠ .lost := by
    rintro rfl
    cases hidle
  refine ⟨hvalid, hunwrapped, hhangs, hhangs.vain 1 pos hpos hidle, ?_⟩
  exact haftermath.unfinished (hhangs.stays 1 pos (by decide) hpos hpresent).2

end LatencyGauge
