/-
What holds of a run whatever happens in it, lost cores included. Every core is at a position of its
role; nobody passes the start barrier before all have arrived; the primaries that have not finished,
the flag and the cores lost before they finished add up to what the shared counter says; and a core
that is no primary comes to its end only if the flag is set.
-/
import LatencyGauge.Proofs.Host.Gates
import LatencyGauge.Proofs.Host.Positions

namespace LatencyGauge

open Finset Function

variable {p : RunPlan} {lost : Nat} {r : Reading} {s s' : Shared} {f : Nat → Position} {i : Nat}
  {pos : Position}

/-! ## The count of primaries -/

/-- How the primaries stand to the counter: `lost` of them were lost before they had finished. While
the counter is not zero nobody announces completion; once it is, only the one that announces it has
not finished. -/
structure Census (p : RunPlan) (lost : Nat) (s : Shared) (f : Nat → Position) : Prop where
  total : ∑ c ∈ range p.primaries.toNat, (f c).pending + s.done.isSet.toNat + lost =
    max s.primariesLeft 1
  early : 0 < s.primariesLeft →
    s.done.isSet = false ∧ ∀ c < p.primaries.toNat, (f c).announcing = false
  late : s.primariesLeft = 0 →
    ∀ c < p.primaries.toNat, (f c).pending = 1 → (f c).announcing = true

theorem pending_le_sum (f : Nat → Position) {n c : Nat} (hc : c < n) :
    (f c).pending ≤ ∑ c ∈ range n, (f c).pending :=
  single_le_sum (f := fun c => (f c).pending) (fun _ _ => Nat.zero_le _) (mem_range.2 hc)

namespace Census

/-- A core goes on with its work. -/
theorem same (h : Census p lost s f) (hpending : pos.pending = (f i).pending)
    (hannouncing : pos.announcing = (f i).announcing) (hdone : s'.done = s.done)
    (hleft : s'.primariesLeft = s.primariesLeft) : Census p lost s' (update f i pos) := by
  have hall : ∀ c, (update f i pos c).pending = (f c).pending ∧
      (update f i pos c).announcing = (f c).announcing := fun c => by
    rcases eq_or_ne c i with rfl | hne
    · rw [update_self]
      exact ⟨hpending, hannouncing⟩
    · rw [update_of_ne hne]
      exact ⟨rfl, rfl⟩
  refine ⟨?_, fun hpos => ?_, fun hzero c hc hp => ?_⟩
  · rw [hdone, hleft, sum_congr rfl fun c _ => (hall c).1]
    exact h.total
  · rw [hleft] at hpos
    obtain ⟨hclear, hnobody⟩ := h.early hpos
    exact ⟨hdone ▸ hclear, fun c hc => (hall c).2.trans (hnobody c hc)⟩
  · rw [hleft] at hzero
    rw [(hall c).1] at hp
    exact (hall c).2.trans (h.late hzero c hc hp)

/-- A core that is no primary does what it does. -/
theorem other (h : Census p lost s f) (hi : p.primaries.toNat ≤ i) (pos : Position)
    (hdone : s'.done = s.done) (hleft : s'.primariesLeft = s.primariesLeft) :
    Census p lost s' (update f i pos) := by
  have hsame : ∀ c < p.primaries.toNat, update f i pos c = f c := fun c hc =>
    update_of_ne (by omega) _ _
  refine ⟨?_, fun hpos => ?_, fun hzero c hc hp => ?_⟩
  · rw [hdone, hleft, sum_range_update_of_le f pos Position.pending hi]
    exact h.total
  · rw [hleft] at hpos
    obtain ⟨hclear, hnobody⟩ := h.early hpos
    exact ⟨hdone ▸ hclear, fun c hc => by rw [hsame c hc]; exact hnobody c hc⟩
  · rw [hleft] at hzero
    rw [hsame c hc] at hp ⊢
    exact h.late hzero c hc hp

/-- A primary leaves: the last one goes on to announce completion, the others have finished. -/
theorem leaves (h : Census p lost s f) (hi : i < p.primaries.toNat) (hpending : (f i).pending = 1)
    (hannouncing : (f i).announcing = false) (hdone : s'.done = s.done)
    (hleft : s'.primariesLeft = s.primariesLeft - 1)
    (hnext : if s.primariesLeft = 1 then pos.pending = 1 ∧ pos.announcing = true
      else pos.pending = 0 ∧ pos.announcing = false) : Census p lost s' (update f i pos) := by
  have hpos : 0 < s.primariesLeft := by
    refine Nat.pos_of_ne_zero fun hzero => ?_
    rw [h.late hzero i hi hpending] at hannouncing
    cases hannouncing
  obtain ⟨hclear, hnobody⟩ := h.early hpos
  have htotal := h.total
  have hsum := sum_range_update f pos Position.pending hi
  rw [hclear, Bool.toNat_false] at htotal
  refine ⟨?_, fun hpos' => ⟨hdone ▸ hclear, fun c hc => ?_⟩, fun hzero c hc hp => ?_⟩
  · rw [hdone, hleft, hclear, Bool.toNat_false]
    split at hnext <;> omega
  · rcases eq_or_ne c i with rfl | hne
    · rw [if_neg (by omega)] at hnext
      rw [update_self]
      exact hnext.2
    · rw [update_of_ne hne]
      exact hnobody c hc
  · rw [if_pos (by omega)] at hnext
    rcases eq_or_ne c i with rfl | hne
    · rw [update_self]
      exact hnext.2
    · -- two that have not finished would be more than the counter says
      rw [update_of_ne hne] at hp
      have htwo : (f c).pending + (f i).pending ≤ ∑ c ∈ range p.primaries.toNat, (f c).pending :=
        add_le_sum (f := fun c => (f c).pending) (fun _ _ => Nat.zero_le _) (mem_range.2 hc)
          (mem_range.2 hi) hne
      omega

/-- The last primary announces completion. -/
theorem announces (h : Census p lost s f) (hi : i < p.primaries.toNat)
    (hpending : (f i).pending = 1) (hannouncing : (f i).announcing = true)
    (hdone : s'.done.isSet = true) (hleft : s'.primariesLeft = s.primariesLeft)
    (hnext : pos.pending = 0) : Census p lost s' (update f i pos) := by
  -- while the counter is not zero nobody would be about to
  have hzero : s.primariesLeft = 0 := by
    by_contra hne
    rw [(h.early (Nat.pos_of_ne_zero hne)).2 i hi] at hannouncing
    cases hannouncing
  have htotal := h.total
  have hsum := sum_range_update f pos Position.pending hi
  have hle := pending_le_sum f hi
  refine ⟨?_, fun hpos => absurd hpos (by omega), fun _ c hc hp => ?_⟩
  · rw [hdone, hleft, hzero, Bool.toNat_true]
    omega
  · rcases eq_or_ne c i with rfl | hne
    · rw [update_self] at hp
      omega
    · rw [update_of_ne hne] at hp ⊢
      exact h.late hzero c hc hp

/-- A primary is lost. -/
theorem loses (h : Census p lost s f) (hi : i < p.primaries.toNat) :
    Census p (lost + (f i).pending) s (update f i .lost) := by
  have htotal := h.total
  have hsum := sum_range_update f .lost Position.pending hi
  change _ = _ + 0 at hsum
  refine ⟨by omega, fun hpos => ⟨(h.early hpos).1, fun c hc => ?_⟩, fun hzero c hc hp => ?_⟩
  · rcases eq_or_ne c i with rfl | hne
    · rw [update_self]
      rfl
    · rw [update_of_ne hne]
      exact (h.early hpos).2 c hc
  · rcases eq_or_ne c i with rfl | hne
    · rw [update_self] at hp
      cases hp
    · rw [update_of_ne hne] at hp ⊢
      exact h.late hzero c hc hp

/-- While nobody was lost too early, the flag is set exactly if all primaries have finished. -/
theorem done_iff (h : Census p 0 s f) :
    s.done.isSet = true ↔ ∀ c < p.primaries.toNat, (f c).pending = 0 := by
  have htotal := h.total
  constructor
  · intro hset c hc
    have hzero : s.primariesLeft = 0 := by
      by_contra hne
      rw [(h.early (Nat.pos_of_ne_zero hne)).1] at hset
      cases hset
    -- the flag alone makes up the total
    have hle := pending_le_sum f hc
    rw [hset, hzero, Bool.toNat_true] at htotal
    omega
  · intro hall
    have hnone : ∑ c ∈ range p.primaries.toNat, (f c).pending = 0 :=
      sum_eq_zero fun c hc => hall c (mem_range.1 hc)
    cases hdone : s.done.isSet with
    | true => rfl
    | false =>
      rw [hdone, hnone, Bool.toNat_false] at htotal
      omega

/-- Once a primary was lost before it had finished, the flag is never set. -/
theorem clear_of_lost (h : Census p lost s f) (hlost : 0 < lost) : s.done.isSet = false := by
  have htotal := h.total
  cases hdone : s.done.isSet with
  | false => rfl
  | true =>
    have hzero : s.primariesLeft = 0 := by
      by_contra hne
      rw [(h.early (Nat.pos_of_ne_zero hne)).1] at hdone
      cases hdone
    rw [hdone, hzero, Bool.toNat_true] at htotal
    omega

end Census

/-! ## Runs that are formed -/

/-- What holds of what the cores share and of their positions, whatever happens. -/
structure Formed (p : RunPlan) (lost : Nat) (s : Shared) (f : Nat → Position) : Prop where
  slots : s.boxes.slots.size = p.cores.toNat
  ready : s.boxes.ready.size = p.cores.toNat
  fills : ∀ i < p.cores.toNat, (f i).Fills p i (Role.assign p i)
  gates : Gates p.cores s.barrier (Position.gate ∘ f)
  census : Census p lost s f
  ending : ∀ i < p.cores.toNat, p.primaries.toNat ≤ i → (f i).ending = true →
    s.done.isSet = true

theorem RunPlan.link_receiver (p : RunPlan) (c : Nat) :
    (UInt64.ofNat (p.link c).sender + p.signalOffset).toNat = (p.link c).receiver := rfl

/-- The receiver of a primary is the core at the offset from it. -/
theorem RunPlan.Fits.receiver_eq (h : p.Fits) (hneeds : p.needsReceivers = true) {c : Nat}
    (hc : c < p.primaries.toNat) : (p.link c).receiver = c + p.signalOffset.toNat := by
  have hlast := (h.receivers hneeds).2
  have hcores := p.cores.toNat_lt
  exact toNat_ofNat_add (by omega)

/-- The receiver of a primary, as its role has it. -/
theorem RunPlan.link_role {c : Nat} (hc : p.sender? i = some c) :
    p.link (UInt64.ofNat c).toNat = p.link c ∧ c < p.primaries.toNat ∧
      i = c + p.signalOffset.toNat := by
  obtain ⟨-, hi, hlt⟩ := RunPlan.sender?_eq_some_iff.1 hc
  have hword : c < 2 ^ 64 := hlt.trans p.primaries.toNat_lt
  rw [UInt64.toNat_ofNat_of_lt' hword]
  exact ⟨rfl, hlt, hi⟩

theorem Formed.hosts (h : Formed p lost s f) (hfits : p.Fits) (hneeds : p.needsReceivers = true)
    {c : Nat} (hc : c < p.primaries.toNat) : s.boxes.Hosts (p.link c) := by
  obtain ⟨hoffset, hlast⟩ := hfits.receivers hneeds
  have hpos := hfits.offset
  have hcores := hfits.primaries.2
  have hreceiver := hfits.receiver_eq hneeds hc
  refine ⟨?_, ?_, ?_, ?_⟩
  · rw [h.slots]
    show c < _
    omega
  · rw [h.slots, hreceiver]
    omega
  · rw [h.ready, hreceiver]
    omega
  · rw [hreceiver]
    show c ≠ _
    omega

/-- A core moves on. -/
theorem Formed.move {lost' : Nat} (h : Formed p lost s f)
    (hsize : s'.boxes.slots.size = s.boxes.slots.size ∧
      s'.boxes.ready.size = s.boxes.ready.size)
    (hfills : pos.Fills p i (Role.assign p i))
    (hgates : Gates p.cores s'.barrier (update (Position.gate ∘ f) i pos.gate))
    (hcensus : Census p lost' s' (update f i pos))
    (hdone : s.done.isSet = true → s'.done.isSet = true)
    (hending : p.primaries.toNat ≤ i → pos.ending = true → s'.done.isSet = true) :
    Formed p lost' s' (update f i pos) where
  slots := hsize.1.trans h.slots
  ready := hsize.2.trans h.ready
  fills c hc := by
    rcases eq_or_ne c i with rfl | hne
    · rw [update_self]
      exact hfills
    · rw [update_of_ne hne]
      exact h.fills c hc
  gates := by rwa [comp_update]
  census := hcensus
  ending c hc hle hend := by
    rcases eq_or_ne c i with rfl | hne
    · rw [update_self] at hend
      exact hending hle hend
    · rw [update_of_ne hne] at hend
      exact hdone (h.ending c hc hle hend)

/-- A core makes a step of its gate, or none. -/
theorem Formed.passes (h : Formed p lost s f) (hi : i < p.cores.toNat)
    (hpasses : (f i).Passes p s pos s') (hfills : pos.Fills p i (Role.assign p i))
    (hprimary : i < p.primaries.toNat →
      pos.pending = (f i).pending ∧ pos.announcing = (f i).announcing)
    (hending : p.primaries.toNat ≤ i → pos.ending = true →
      (f i).ending = true ∨ s.done.isSet = true) : Formed p lost s' (update f i pos) := by
  have hdone : s'.done = s.done := by rw [hpasses.shared]
  have hleft : s'.primariesLeft = s.primariesLeft := by rw [hpasses.shared]
  refine h.move ?_ hfills (h.gates.step hi hpasses.gate) ?_ (by rw [hdone]; exact id) ?_
  · rw [hpasses.shared]
    exact ⟨rfl, rfl⟩
  · rcases Nat.lt_or_ge i p.primaries.toNat with hlt | hle
    · exact h.census.same (hprimary hlt).1 (hprimary hlt).2 hdone hleft
    · exact h.census.other hle pos hdone hleft
  · intro hle hend
    rw [hdone]
    exact (hending hle hend).elim (h.ending i hi hle) id

/-- A primary that is at work counts as its duty has it. -/
theorem Census.measures (h : Census p lost s f) {x : Primary} (hi : i < p.primaries.toNat)
    (hf : f i = .measuring x) (hended : x.duty ≠ .ended) :
    Census p lost (x.step p i r s).2 (update f i (.measuring (x.step p i r s).1)) := by
  have hpending : (f i).pending = 1 := by
    rw [hf]
    exact if_neg hended
  have hannouncing : (f i).announcing = decide (x.duty = .announcing) := by
    rw [hf]
    rfl
  by_cases hleaving : x.duty = .leaving
  · obtain ⟨hduty, hshared⟩ := Primary.step_leaving (p := p) (i := i) (r := r) (s := s) hleaving
    rw [hleaving] at hannouncing
    refine h.leaves hi hpending hannouncing (by rw [hshared]) (by rw [hshared]) ?_
    simp only [Position.pending, Position.announcing, hduty]
    split <;> simp
  · by_cases hannounces : x.duty = .announcing
    · rw [Primary.step_announcing hannounces]
      rw [hannounces] at hannouncing
      exact h.announces hi hpending hannouncing rfl rfl rfl
    · -- it neither leaves nor announces, and is counted as before
      have hstays : x.duty.stays = true := by
        cases hd : x.duty <;> first | rfl | exact absurd hd hannounces | exact absurd hd hended
      have hstays' := Primary.step_stays (p := p) (i := i) (r := r) (s := s) hstays hleaving
      refine h.same ?_ ?_ (Primary.step_done hannounces) (Primary.step_primariesLeft hleaving)
      · rw [hpending]
        refine if_neg fun hd => ?_
        rw [hd] at hstays'
        cases hstays'
      · rw [hannouncing, decide_eq_false hannounces]
        refine decide_eq_false fun hd => ?_
        rw [hd] at hstays'
        cases hstays'

theorem Formed.step_lost (h : Formed p lost s f) (hlost : f i = .lost) :
    Formed p lost ((f i).step p i r s).2 (update f i ((f i).step p i r s).1) := by
  have hstep : (f i).step p i r s = (f i, s) := by rw [hlost]; rfl
  rw [hstep, update_eq_self]
  exact h

theorem Formed.step_primary (hfits : p.Fits) (h : Formed p lost s f) (hi : i < p.cores.toNat)
    (hlt : i < p.primaries.toNat) :
    Formed p lost ((f i).step p i r s).2 (update f i ((f i).step p i r s).1) := by
  have hrole := Role.assign_primary hlt
  have hfills := h.fills i hi
  rw [hrole] at hfills
  rcases hfills.measures with hlost | ⟨x, hx⟩
  · exact h.step_lost hlost
  rcases hx.step hrole fun hneeds => h.hosts hfits hneeds hlt with
    ⟨hpasses, -, hx'⟩ | ⟨hpos, hended, hstep, hfit⟩
  · refine h.passes hi hpasses (by rw [hrole]; exact .primary hx') (fun _ => ?_) fun hle =>
      absurd hlt (by omega)
    rw [hx.pending_eq, hx'.pending_eq, hx.announcing_eq, hx'.announcing_eq]
    exact ⟨rfl, rfl⟩
  · rw [hstep]
    refine h.move (Primary.step_boxes.imp_right (congrArg Array.size))
      (by rw [hrole]; exact .primary (.during hfit)) ?_
      (h.census.measures hlt hpos hended) (fun hset => ?_) fun hle => absurd hlt (by omega)
    · -- at work it is past its gate, and stays there
      have hgate : Position.gate (.measuring (x.step p i r s).1) = (Position.gate ∘ f) i := by
        rw [comp_apply, hpos]
        rfl
      rw [hgate, update_eq_self, Primary.step_barrier]
      exact h.gates
    · by_cases hannounces : x.duty = .announcing
      · rw [Primary.step_announcing hannounces]
        rfl
      · rw [Primary.step_done hannounces]
        exact hset

theorem Formed.step_receiver (hfits : p.Fits) (h : Formed p lost s f) (hi : i < p.cores.toNat)
    (hle : p.primaries.toNat ≤ i) {c : Nat} (hc : p.sender? i = some c) :
    Formed p lost ((f i).step p i r s).2 (update f i ((f i).step p i r s).1) := by
  have hrole := Role.assign_receiver hle hc
  have hneeds := (RunPlan.sender?_eq_some_iff.1 hc).1
  obtain ⟨hlink, hlt, -⟩ := RunPlan.link_role hc
  have hfills := h.fills i hi
  rw [hrole] at hfills
  rcases hfills.serves with hlost | ⟨a, ha⟩
  · exact h.step_lost hlost
  rw [hlink] at ha
  have hreceiver : ∀ {pos : Position} {a : Answerer}, pos.Serves (p.link c) a →
      pos.Fills p i (Role.assign p i) := fun ha => by
    rw [hrole]
    exact .receiver (hlink.symm ▸ ha)
  rcases ha.step (r := r) (s := s) (i := i) (by rw [hrole, Role.work, hlink])
      (h.hosts hfits hneeds hlt) (p.link_receiver c) rfl with
    ⟨hpasses, ha'⟩ | ⟨boxes, entries, a', hstep, hshared, htouched, hgate, ha'⟩
  · refine h.passes hi hpasses (hreceiver ha') (fun hlt => absurd hlt (by omega)) fun _ hend => ?_
    exact .inl (ha.ending_iff.2 (ha'.ending_iff.1 hend))
  · rw [hshared]
    refine h.move htouched.size (hreceiver ha') ?_ (h.census.other hle _ rfl rfl) id
      fun _ hend => ?_
    · rw [hgate]
      exact (update_eq_self i (Position.gate ∘ f)).symm ▸ h.gates
    · -- a receiver that ends has found the flag set
      obtain ⟨k, hk⟩ := ha'.ending_iff.1 hend
      have hended : (a.step (p.link c).sender p.signalOffset (p.link c).payload s.done.isSet
          r.cycles s.boxes).1 = .serving (p.link c) ⟨.ended, k⟩ := by rw [hstep, hk]
      rcases Answerer.ended_step hended with ha | hset
      · exact h.ending i hi hle (Position.Serves.ending_iff (by assumption) |>.2 ⟨k, ha⟩)
      · exact hset

theorem Formed.step_flusher (h : Formed p lost s f) (hi : i < p.cores.toNat)
    (hle : p.primaries.toNat ≤ i) (hrole : Role.assign p i = .flusher) :
    Formed p lost ((f i).step p i r s).2 (update f i ((f i).step p i r s).1) := by
  have hfills := h.fills i hi
  rw [hrole] at hfills
  rcases hfills.flushes with hlost | ⟨x, hx⟩
  · exact h.step_lost hlost
  rcases hx.step (r := r) (s := s) hrole with ⟨hpasses, hx'⟩ | ⟨hpos, hended, hstep, lines, hshared⟩
  · refine h.passes hi hpasses (by rw [hrole]; exact .flusher hx')
      (fun hlt => absurd hlt (by omega)) fun _ hend => ?_
    exact .inl (hx.ending_iff.2 (hx'.ending_iff.1 hend))
  · rw [hstep, hshared]
    refine h.move ⟨rfl, rfl⟩ (by rw [hrole]; exact .flusher (.during _)) ?_
      (h.census.other hle _ rfl rfl) id fun _ hend => ?_
    · have hgate : Position.gate (.flushing (x.step s.done.isSet s.handshake).1) =
          (Position.gate ∘ f) i := by
        rw [comp_apply, hpos]
        rfl
      rw [hgate, update_eq_self]
      exact h.gates
    · exact (Flusher.ended_step (of_decide_eq_true hend)).resolve_left hended

/-- A step of a core keeps a run formed. -/
theorem Formed.step (hfits : p.Fits) (h : Formed p lost s f) (hi : i < p.cores.toNat) :
    Formed p lost ((f i).step p i r s).2 (update f i ((f i).step p i r s).1) := by
  have hfills := h.fills i hi
  rcases Role.assign_cases p i with
    ⟨hlt, -⟩ | ⟨hle, c, hc, -⟩ | ⟨-, hfree, hrole⟩ | ⟨hle, -, -, hrole⟩
  · exact h.step_primary hfits hi hlt
  · exact h.step_receiver hfits hi hle hc
  · exact h.step_flusher hi (RunPlan.firstFree?_eq_some_iff.1 hfree).1 hrole
  · rcases p.background.role_eq with hb | hb <;> rw [hb] at hrole <;> rw [hrole] at hfills
    · rcases hfills.loads with hlost | hloads
      · exact h.step_lost hlost
      · obtain ⟨hpasses, hloads', hending⟩ := hloads.step (r := r) (s := s) hrole
        exact h.passes hi hpasses (by rw [hrole]; exact .interferer hloads')
          (fun hlt => absurd hlt (by omega)) fun _ => hending
    · rcases hfills.idles with hlost | hidles
      · exact h.step_lost hlost
      · obtain ⟨hpasses, hidles', hending⟩ := hidles.step (r := r) (s := s) hrole
        exact h.passes hi hpasses (by rw [hrole]; exact .idle hidles')
          (fun hlt => absurd hlt (by omega)) fun _ => hending

theorem Role.opening_gate (role : Role) : role.opening.gate = .outside := by
  cases role <;> rfl

theorem formed_start (hfits : p.Fits)
    (hf : ∀ i < p.cores.toNat, f i = (Role.assign p i).opening) : Formed p 0 (.start p) f where
  slots := by simp [Shared.start, Mailboxes.create]
  ready := by simp [Shared.start, Mailboxes.create]
  fills i hi := by
    rw [hf i hi]
    exact Position.fills_opening p i _
  gates := gates_fresh fun i hi => by
    rw [comp_apply, hf i hi]
    exact Role.opening_gate _
  census := by
    have hpos := hfits.primaries.1
    have houtside : ∀ c < p.primaries.toNat, f c = .entering .outside := fun c hc => by
      have hle := hfits.primaries.2
      rw [hf c (by omega), Role.assign_primary hc]
      rfl
    have hpending : ∀ c ∈ range p.primaries.toNat, (f c).pending = 1 := fun c hc => by
      rw [houtside c (mem_range.1 hc)]
      rfl
    refine ⟨?_, fun _ => ⟨rfl, fun c hc => by rw [houtside c hc]; rfl⟩, fun hzero => ?_⟩
    · rw [sum_congr rfl hpending]
      simp only [sum_const, card_range, smul_eq_mul, mul_one]
      show p.primaries.toNat + 0 + 0 = max p.primaries.toNat 1
      omega
    · exact absurd hzero (Nat.pos_iff_ne_zero.1 hpos)
  ending i hi _ hend := by
    rw [hf i hi] at hend
    cases hrole : Role.assign p i <;> rw [hrole] at hend <;> cases hend

/-- How many primaries are lost before they have finished if a core is lost. -/
def RunPlan.losses (p : RunPlan) (i : Nat) (pos : Position) : Nat :=
  if i < p.primaries.toNat then pos.pending else 0

/-- The loss of a core that is at work keeps a run formed. -/
theorem Formed.loses (h : Formed p lost s f) (hwork : (f i).atWork = true) :
    Formed p (lost + p.losses i (f i)) s (update f i .lost) := by
  have hgate : Position.gate .lost = (Position.gate ∘ f) i := by
    rw [comp_apply]
    cases hf : f i <;> rw [hf] at hwork <;> first | rfl | cases hwork
  refine h.move ⟨rfl, rfl⟩ .lost ?_ ?_ id fun _ hend => nomatch hend
  · rw [hgate, update_eq_self]
    exact h.gates
  · unfold RunPlan.losses
    split
    case isTrue hlt => exact h.census.loses hlt
    case isFalse hle => exact h.census.other (Nat.not_lt.1 hle) _ rfl rfl

theorem Formed.ticks (h : Formed p lost s f) (t : Tick) : Formed p lost { s with ticks := t } f :=
  ⟨h.slots, h.ready, h.fills, h.gates, ⟨h.census.total, h.census.early, h.census.late⟩, h.ending⟩

end LatencyGauge
