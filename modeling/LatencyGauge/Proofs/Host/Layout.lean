/-
The layout of roles. The check of a plan asks for inequalities between its numbers, the role of a
core is a chain of decisions, and the core that flushes is found by a search; all three speak of one
layout. Where the number of the last receiver is a word, a plan breaks no rule exactly if its
numbers are in range, every primary has its receiver among the cores and some core flushes where one
has to; and then every core has the role that its place in the layout gives it. Where that number is
none the check adds around the end of the words, and some primary has no receiver.
-/
import Mathlib.Algebra.Group.Nat.Defs
import Mathlib.Data.Set.Function
import Mathlib.Order.Bounds.Basic
import LatencyGauge.Host.Role

namespace LatencyGauge

variable {p : RunPlan}

/-! ## What the check asks for -/

/-- The rules of a plan as conditions on its numbers. The number of the last receiver is one modulo
the range of words. -/
structure RunPlan.Accepted (p : RunPlan) : Prop where
  loop : p.loop.Valid
  cores : 0 < p.cores.toNat
  primaries : 0 < p.primaries.toNat ∧ p.primaries.toNat ≤ p.cores.toNat
  offset : 0 < p.signalOffset.toNat
  lastReceiver : p.needsReceivers = true → p.primaries.toNat ≤ p.signalOffset.toNat ∧
    (p.primaries.toNat - 1 + p.signalOffset.toNat) % 2 ^ 64 < p.cores.toNat
  response : p.workload = .response →
    p.primaries.toNat = 1 ∧ 3 ≤ p.cores.toNat ∧ p.tickPeriod ≠ 0
  interference : p.background = .interfere → p.tickPeriod ≠ 0

/-- Where receivers are needed, the number of the last one is a word. -/
def RunPlan.Unwrapped (p : RunPlan) : Prop :=
  p.needsReceivers = true → p.primaries.toNat - 1 + p.signalOffset.toNat < 2 ^ 64

instance (p : RunPlan) : Decidable p.Unwrapped := inferInstanceAs (Decidable (_ → _))

/-- A plan whose rules mean what they say. -/
structure RunPlan.Fits (p : RunPlan) : Prop extends p.Accepted where
  unwrapped : p.Unwrapped

/-- Every primary has a receiver among the cores. -/
theorem RunPlan.Fits.receivers (h : p.Fits) (hneeds : p.needsReceivers = true) :
    p.primaries.toNat ≤ p.signalOffset.toNat ∧
      p.primaries.toNat - 1 + p.signalOffset.toNat < p.cores.toNat := by
  obtain ⟨hoffset, hlast⟩ := h.lastReceiver hneeds
  rw [Nat.mod_eq_of_lt (h.unwrapped hneeds)] at hlast
  exact ⟨hoffset, hlast⟩

/-- Past the range of words, one primary is at the offset from the last word and so has a receiver
that is no core; the one after it finds itself at the offset from core zero. -/
theorem RunPlan.Accepted.stray (h : p.Accepted) (hwrapped : ¬ p.Unwrapped) :
    p.needsReceivers = true ∧
      ∃ c, c + 1 < p.primaries.toNat ∧ c + p.signalOffset.toNat = 2 ^ 64 - 1 := by
  obtain ⟨hneeds, hsum⟩ := Classical.not_imp.1 hwrapped
  have hoffset := (h.lastReceiver hneeds).1
  have hword := p.signalOffset.toNat_lt
  exact ⟨hneeds, 2 ^ 64 - 1 - p.signalOffset.toNat, by omega, by omega⟩

theorem Violation.bind_eq_ok {check : Except Violation Unit} {rest : Unit → Except Violation Unit} :
    check >>= rest = .ok () ↔ check = .ok () ∧ rest () = .ok () := by
  cases check <;> simp [bind, Except.bind]

/-- A check that is made in one case only, before the rest. -/
theorem Violation.guarded_eq_ok {c : Prop} [Decidable c] {check rest : Except Violation Unit} :
    (if c then check >>= fun _ => rest else rest) = .ok () ↔
      (c → check = .ok ()) ∧ rest = .ok () := by
  split
  case isTrue h => simp [h, Violation.bind_eq_ok]
  case isFalse h => simp [h]

theorem word_ne_zero_iff {n : UInt64} : n ≠ 0 ↔ 0 < n.toNat := by
  rw [Nat.pos_iff_ne_zero, Ne, Ne, ← UInt64.toNat_inj]
  rfl

theorem RunPlan.checkReceivers_eq_ok_iff (hpos : 0 < p.primaries.toNat) :
    p.checkReceivers = .ok () ↔ p.primaries.toNat ≤ p.signalOffset.toNat ∧
      (p.primaries.toNat - 1 + p.signalOffset.toNat) % 2 ^ 64 < p.cores.toNat := by
  have hone : (p.primaries - 1).toNat = p.primaries.toNat - 1 :=
    UInt64.toNat_sub_of_le _ _ (UInt64.le_iff_toNat_le.2 hpos)
  simp only [RunPlan.checkReceivers, Violation.bind_eq_ok, Violation.unless_eq_ok,
    decide_eq_true_eq, UInt64.le_iff_toNat_le, UInt64.lt_iff_toNat_lt, UInt64.toNat_add, hone]

theorem RunPlan.checkResponse_eq_ok_iff : p.checkResponse = .ok () ↔
    p.primaries.toNat = 1 ∧ 3 ≤ p.cores.toNat ∧ p.tickPeriod ≠ 0 := by
  simp [RunPlan.checkResponse, Violation.bind_eq_ok, UInt64.le_iff_toNat_le,
    ← UInt64.toNat_inj]

/-- A plan breaks no rule exactly if its numbers are accepted. -/
theorem RunPlan.valid_iff_accepted : p.Valid ↔ p.Accepted := by
  have hchecks : p.Valid ↔ p.loop.Valid ∧ p.cores ≠ 0 ∧ (p.primaries ≠ 0 ∧ p.primaries ≤ p.cores) ∧
      p.signalOffset ≠ 0 ∧ (p.needsReceivers = true → p.checkReceivers = .ok ()) ∧
      (p.workload = .response → p.checkResponse = .ok ()) ∧
      (p.background = .interfere → p.tickPeriod ≠ 0) := by
    simp only [RunPlan.Valid, RunPlan.check, Violation.guarded_eq_ok,
      Violation.bind_eq_ok, Violation.unless_eq_ok, LoopPlan.Valid, Bool.and_eq_true,
      Bool.or_eq_true, bne_iff_ne, decide_eq_true_eq, ne_eq, ← imp_iff_not_or]
  rw [hchecks, RunPlan.checkResponse_eq_ok_iff, word_ne_zero_iff, word_ne_zero_iff,
    word_ne_zero_iff, UInt64.le_iff_toNat_le]
  constructor
  · rintro ⟨hloop, hcores, hprimaries, hoffset, hreceivers, hresponse, hinterference⟩
    rw [RunPlan.checkReceivers_eq_ok_iff hprimaries.1] at hreceivers
    exact ⟨hloop, hcores, hprimaries, hoffset, hreceivers, hresponse, hinterference⟩
  · rintro ⟨hloop, hcores, hprimaries, hoffset, hreceivers, hresponse, hinterference⟩
    rw [← RunPlan.checkReceivers_eq_ok_iff hprimaries.1] at hreceivers
    exact ⟨hloop, hcores, hprimaries, hoffset, hreceivers, hresponse, hinterference⟩

theorem RunPlan.Valid.fits (h : p.Valid) (hunwrapped : p.Unwrapped) : p.Fits :=
  ⟨RunPlan.valid_iff_accepted.1 h, hunwrapped⟩

/-! ## Who answers whom -/

theorem RunPlan.sender?_eq_some_iff {core c : Nat} : p.sender? core = some c ↔
    p.needsReceivers = true ∧ core = c + p.signalOffset.toNat ∧ c < p.primaries.toNat := by
  unfold RunPlan.sender?
  split
  case isTrue h =>
    simp only [Bool.and_eq_true, decide_eq_true_eq] at h
    simp only [Option.some.injEq, h.1.1, true_and]
    omega
  case isFalse h =>
    simp only [Bool.and_eq_true, decide_eq_true_eq] at h
    simp only [reduceCtorEq, false_iff]
    rintro ⟨hneeds, rfl, hc⟩
    exact h ⟨⟨hneeds, by omega⟩, by omega⟩

/-- The receiver of a primary. -/
theorem RunPlan.sender?_receiver (hneeds : p.needsReceivers = true) {c : Nat}
    (hc : c < p.primaries.toNat) : p.sender? (c + p.signalOffset.toNat) = some c :=
  RunPlan.sender?_eq_some_iff.2 ⟨hneeds, rfl, hc⟩

theorem RunPlan.needsReceivers_of_response (h : p.workload = .response) :
    p.needsReceivers = true := by
  rw [RunPlan.needsReceivers, h]
  rfl

/-! ## The search for a free core -/

/-- The search finds the least core in its range that answers nobody. -/
theorem RunPlan.firstFreeFrom_eq_some_iff {core left f : Nat} :
    p.firstFreeFrom core left = some f ↔ core ≤ f ∧ f < core + left ∧ p.sender? f = none ∧
      ∀ i, core ≤ i → i < f → p.sender? i ≠ none := by
  induction left generalizing core with
  | zero =>
    simp only [RunPlan.firstFreeFrom, reduceCtorEq, false_iff]
    omega
  | succ left ih =>
    simp only [RunPlan.firstFreeFrom, Option.isNone_iff_eq_none]
    split
    case isTrue hfree =>
      rw [Option.some_inj]
      constructor
      · rintro rfl
        exact ⟨by omega, by omega, hfree, by omega⟩
      · rintro ⟨hle, -, -, hleast⟩
        by_contra hne
        exact hleast core (by omega) (by omega) hfree
    case isFalse hbusy =>
      rw [ih]
      constructor
      · rintro ⟨hle, hlt, hfree, hleast⟩
        refine ⟨by omega, by omega, hfree, fun i hi hif => ?_⟩
        rcases Nat.eq_or_lt_of_le hi with rfl | hi
        · exact hbusy
        · exact hleast i hi hif
      · rintro ⟨hle, hlt, hfree, hleast⟩
        have hne : core ≠ f := fun heq => hbusy (heq ▸ hfree)
        exact ⟨by omega, by omega, hfree, fun i hi => hleast i (by omega)⟩

theorem RunPlan.firstFree?_eq_some_iff {f : Nat} : p.firstFree? = some f ↔
    p.primaries.toNat ≤ f ∧ f < p.cores.toNat ∧ p.sender? f = none ∧
      ∀ i, p.primaries.toNat ≤ i → i < f → p.sender? i ≠ none := by
  unfold RunPlan.firstFree?
  rw [RunPlan.firstFreeFrom_eq_some_iff]
  constructor
  · rintro ⟨hle, hlt, hrest⟩
    exact ⟨hle, by omega, hrest⟩
  · rintro ⟨hle, hlt, hrest⟩
    exact ⟨hle, by omega, hrest⟩

/-- With one primary and three cores some core is free. -/
theorem RunPlan.firstFree?_isSome (hprimaries : p.primaries.toNat = 1)
    (hcores : 3 ≤ p.cores.toNat) :
    ∃ f, p.firstFree? = some f := by
  -- of the two cores after the primary at most one is its receiver
  have hbusy : ∀ core, p.sender? core ≠ none → core = p.signalOffset.toNat := fun core hcore => by
    obtain ⟨c, hc⟩ := Option.ne_none_iff_exists'.1 hcore
    obtain ⟨-, rfl, hlt⟩ := RunPlan.sender?_eq_some_iff.1 hc
    omega
  by_cases hfirst : p.sender? 1 = none
  · exact ⟨1, RunPlan.firstFree?_eq_some_iff.2 ⟨by omega, by omega, hfirst, by omega⟩⟩
  · have hoffset := hbusy 1 hfirst
    have hsecond : p.sender? 2 = none := by
      by_contra hne
      have := hbusy 2 hne
      omega
    refine ⟨2, RunPlan.firstFree?_eq_some_iff.2 ⟨by omega, by omega, hsecond, fun i hi hlt => ?_⟩⟩
    obtain rfl : i = 1 := by omega
    exact hfirst

/-! ## Roles -/

theorem Background.role_eq (b : Background) : b.role = .interferer ∨ b.role = .idle := by
  cases b
  · exact .inr rfl
  · exact .inl rfl

theorem Role.assign_primary {core : Nat} (h : core < p.primaries.toNat) :
    Role.assign p core = .primary := if_pos h

theorem Role.assign_receiver {core c : Nat} (h : p.primaries.toNat ≤ core)
    (hsender : p.sender? core = some c) : Role.assign p core = .receiver (.ofNat c) := by
  simp only [Role.assign, Nat.not_lt.2 h, if_false, hsender]

theorem Role.assign_flusher {core : Nat} (hworkload : p.workload = .response)
    (hfree : p.firstFree? = some core) : Role.assign p core = .flusher := by
  obtain ⟨hle, -, hsender, -⟩ := RunPlan.firstFree?_eq_some_iff.1 hfree
  simp only [Role.assign, Nat.not_lt.2 hle, if_false, hsender, hworkload, hfree]
  simp

theorem Role.assign_rest {core : Nat} (h : p.primaries.toNat ≤ core)
    (hsender : p.sender? core = none)
    (hfree : p.workload = .response → p.firstFree? ≠ some core) :
    Role.assign p core = p.background.role := by
  simp only [Role.assign, Nat.not_lt.2 h, if_false, hsender]
  rw [if_neg]
  simpa using hfree

/-- Every core is in one of four places. -/
theorem Role.assign_cases (p : RunPlan) (core : Nat) :
    (core < p.primaries.toNat ∧ Role.assign p core = .primary) ∨
      (p.primaries.toNat ≤ core ∧ ∃ c, p.sender? core = some c ∧
        Role.assign p core = .receiver (.ofNat c)) ∨
      (p.workload = .response ∧ p.firstFree? = some core ∧ Role.assign p core = .flusher) ∨
      (p.primaries.toNat ≤ core ∧ p.sender? core = none ∧
        (p.workload = .response → p.firstFree? ≠ some core) ∧
        Role.assign p core = p.background.role) := by
  by_cases hlt : core < p.primaries.toNat
  · exact .inl ⟨hlt, Role.assign_primary hlt⟩
  have hle := Nat.not_lt.1 hlt
  cases hsender : p.sender? core with
  | some c => exact .inr (.inl ⟨hle, c, rfl, Role.assign_receiver hle hsender⟩)
  | none =>
    by_cases hflusher : p.workload = .response ∧ p.firstFree? = some core
    · exact .inr (.inr (.inl ⟨hflusher.1, hflusher.2, Role.assign_flusher hflusher.1 hflusher.2⟩))
    · have hrest : p.workload = .response → p.firstFree? ≠ some core :=
        fun hw hf => hflusher ⟨hw, hf⟩
      exact .inr (.inr (.inr ⟨hle, rfl, hrest, Role.assign_rest hle hsender hrest⟩))

theorem Role.assign_eq_primary_iff {core : Nat} :
    Role.assign p core = .primary ↔ core < p.primaries.toNat := by
  refine ⟨fun h => ?_, Role.assign_primary⟩
  rcases Role.assign_cases p core with
    ⟨hlt, -⟩ | ⟨-, c, -, hrole⟩ | ⟨-, -, hrole⟩ | ⟨-, -, -, hrole⟩
  · exact hlt
  · rw [hrole] at h
    cases h
  · rw [hrole] at h
    cases h
  · rcases p.background.role_eq with hb | hb <;> rw [hrole, hb] at h <;> cases h

theorem Role.assign_eq_receiver_iff {core : Nat} {s : UInt64} :
    Role.assign p core = .receiver s ↔
      p.primaries.toNat ≤ core ∧ ∃ c, p.sender? core = some c ∧ s = .ofNat c := by
  constructor
  · intro h
    rcases Role.assign_cases p core with
      ⟨-, hrole⟩ | ⟨hle, c, hc, hrole⟩ | ⟨-, -, hrole⟩ | ⟨-, -, -, hrole⟩
    · rw [hrole] at h
      cases h
    · rw [hrole] at h
      cases h
      exact ⟨hle, c, hc, rfl⟩
    · rw [hrole] at h
      cases h
    · rcases p.background.role_eq with hb | hb <;> rw [hrole, hb] at h <;> cases h
  · rintro ⟨hle, c, hc, rfl⟩
    exact Role.assign_receiver hle hc

theorem Role.assign_eq_flusher_iff {core : Nat} :
    Role.assign p core = .flusher ↔ p.workload = .response ∧ p.firstFree? = some core := by
  refine ⟨fun h => ?_, fun ⟨hworkload, hfree⟩ => Role.assign_flusher hworkload hfree⟩
  rcases Role.assign_cases p core with
    ⟨-, hrole⟩ | ⟨-, c, -, hrole⟩ | ⟨hworkload, hfree, -⟩ | ⟨-, -, -, hrole⟩
  · rw [hrole] at h
    cases h
  · rw [hrole] at h
    cases h
  · exact ⟨hworkload, hfree⟩
  · rcases p.background.role_eq with hb | hb <;> rw [hrole, hb] at h <;> cases h

/-! ## Workable plans -/

/-- The numbers of a plan are in range; where answers are needed every primary has its receiver
among the cores, which has that role; and for the response workload one primary measures and some
core flushes. -/
structure RunPlan.Workable (p : RunPlan) : Prop where
  loop : p.loop.Valid
  cores : 1 ≤ p.cores.toNat
  primaries : 1 ≤ p.primaries.toNat ∧ p.primaries.toNat ≤ p.cores.toNat
  offset : 1 ≤ p.signalOffset.toNat
  ticks : p.workload = .response ∨ p.background = .interfere → 0 < p.tickPeriod.toNat
  answered : p.workload = .roundTrip ∨ p.workload = .response → ∀ c < p.primaries.toNat,
    c + p.signalOffset.toNat < p.cores.toNat ∧
      Role.assign p (c + p.signalOffset.toNat) = .receiver (.ofNat c)
  flushed : p.workload = .response → p.primaries.toNat = 1 ∧
    ∃ core < p.cores.toNat, Role.assign p core = .flusher

theorem RunPlan.needsReceivers_iff :
    p.needsReceivers = true ↔ p.workload = .roundTrip ∨ p.workload = .response := by
  rw [RunPlan.needsReceivers]
  cases p.workload <;> simp [Workload.signals]

theorem RunPlan.Fits.workable (h : p.Fits) : p.Workable where
  loop := h.loop
  cores := h.cores
  primaries := h.primaries
  offset := h.offset
  ticks hticks := by
    rw [← word_ne_zero_iff]
    rcases hticks with hresponse | hinterfere
    · exact (h.response hresponse).2.2
    · exact h.interference hinterfere
  answered hneeds c hc := by
    rw [← RunPlan.needsReceivers_iff] at hneeds
    obtain ⟨hoffset, hlast⟩ := h.receivers hneeds
    exact ⟨by omega, Role.assign_receiver (by omega) (RunPlan.sender?_receiver hneeds hc)⟩
  flushed hresponse := by
    obtain ⟨hprimaries, hcores, -⟩ := h.response hresponse
    obtain ⟨f, hfree⟩ := RunPlan.firstFree?_isSome hprimaries hcores
    obtain ⟨-, hlt, -, -⟩ := RunPlan.firstFree?_eq_some_iff.1 hfree
    exact ⟨hprimaries, f, hlt, Role.assign_flusher hresponse hfree⟩

/-- The receiver of the first primary measures nothing, and that of the last is a core. -/
theorem RunPlan.Workable.lastReceiver (h : p.Workable) (hneeds : p.needsReceivers = true) :
    p.primaries.toNat ≤ p.signalOffset.toNat ∧
      p.primaries.toNat - 1 + p.signalOffset.toNat < p.cores.toNat := by
  rw [RunPlan.needsReceivers_iff] at hneeds
  have hpos := h.primaries.1
  obtain ⟨-, hfirst⟩ := h.answered hneeds 0 (by omega)
  obtain ⟨hlast, -⟩ := h.answered hneeds (p.primaries.toNat - 1) (by omega)
  obtain ⟨hle, -⟩ := Role.assign_eq_receiver_iff.1 hfirst
  exact ⟨by omega, hlast⟩

theorem RunPlan.Workable.fits (h : p.Workable) : p.Fits where
  loop := h.loop
  cores := h.cores
  primaries := h.primaries
  offset := h.offset
  lastReceiver hneeds := by
    obtain ⟨hoffset, hlast⟩ := h.lastReceiver hneeds
    have hcores := p.cores.toNat_lt
    rw [Nat.mod_eq_of_lt (by omega)]
    exact ⟨hoffset, hlast⟩
  unwrapped hneeds := by
    have hlast := (h.lastReceiver hneeds).2
    have hcores := p.cores.toNat_lt
    omega
  response hresponse := by
    obtain ⟨hprimaries, f, hf, hflusher⟩ := h.flushed hresponse
    obtain ⟨hoffset, hreceiver⟩ := h.answered (.inr hresponse) 0 (by omega)
    -- the primary, its receiver and the core that flushes are three
    obtain ⟨hle, -⟩ := Role.assign_eq_receiver_iff.1 hreceiver
    obtain ⟨-, hfree⟩ := Role.assign_eq_flusher_iff.1 hflusher
    obtain ⟨hprimary, -⟩ := RunPlan.firstFree?_eq_some_iff.1 hfree
    have hne : f ≠ 0 + p.signalOffset.toNat := fun heq => by
      rw [heq, hreceiver] at hflusher
      cases hflusher
    exact ⟨hprimaries, by omega, word_ne_zero_iff.2 (h.ticks (.inl hresponse))⟩
  interference hinterfere := word_ne_zero_iff.2 (h.ticks (.inr hinterfere))

/-! ## The layout -/

/-- Who does what in a run: the first cores measure; where answers are needed the cores at the
offset answer the primaries, one each, and otherwise nobody does; for the response workload the
least core left flushes, and otherwise nobody does; and the background is all the rest. -/
structure RunPlan.LaidOut (p : RunPlan) : Prop where
  primaries : ∀ core < p.cores.toNat, Role.assign p core = .primary ↔ core < p.primaries.toNat
  receivers : p.workload = .roundTrip ∨ p.workload = .response →
    (∀ c < p.primaries.toNat,
      Role.assign p (c + p.signalOffset.toNat) = .receiver (.ofNat c)) ∧
    Set.BijOn (· + p.signalOffset.toNat) {c | c < p.primaries.toNat}
      {core | core < p.cores.toNat ∧ ∃ s, Role.assign p core = .receiver s}
  unanswered : ¬ (p.workload = .roundTrip ∨ p.workload = .response) →
    ∀ core < p.cores.toNat, ∀ s, Role.assign p core ≠ .receiver s
  flusher : p.workload = .response → ∃ f < p.cores.toNat,
    (∀ core < p.cores.toNat, Role.assign p core = .flusher ↔ core = f) ∧
    IsLeast {core | core < p.cores.toNat ∧ Role.assign p core ≠ .primary ∧
      ∀ s, Role.assign p core ≠ .receiver s} f
  unflushed : p.workload ≠ .response → ∀ core < p.cores.toNat, Role.assign p core ≠ .flusher
  background : ∀ core < p.cores.toNat, Role.assign p core ≠ .primary →
    (∀ s, Role.assign p core ≠ .receiver s) → Role.assign p core ≠ .flusher →
    Role.assign p core = p.background.role

/-- Receivers stand at the offset, and nowhere else. -/
theorem RunPlan.Fits.bijOn_receivers (h : p.Fits) (hneeds : p.needsReceivers = true) :
    Set.BijOn (· + p.signalOffset.toNat) {c | c < p.primaries.toNat}
      {core | core < p.cores.toNat ∧ ∃ s, Role.assign p core = .receiver s} := by
  obtain ⟨hoffset, hlast⟩ := h.receivers hneeds
  refine ⟨fun c hc => ?_, fun c _ c' _ heq => Nat.add_right_cancel heq, ?_⟩
  · have hlt : c < p.primaries.toNat := hc
    exact ⟨by dsimp only; omega, _,
      Role.assign_receiver (by dsimp only; omega) (RunPlan.sender?_receiver hneeds hlt)⟩
  · -- whoever answers stands at the offset from the primary it answers
    rintro core ⟨-, s, hs⟩
    obtain ⟨-, c, hc, -⟩ := Role.assign_eq_receiver_iff.1 hs
    obtain ⟨-, rfl, hlt⟩ := RunPlan.sender?_eq_some_iff.1 hc
    exact ⟨c, hlt, rfl⟩

/-- A core that neither measures nor answers. -/
theorem Role.assign_free_iff {core : Nat} :
    (Role.assign p core ≠ .primary ∧ ∀ s, Role.assign p core ≠ .receiver s) ↔
      p.primaries.toNat ≤ core ∧ p.sender? core = none := by
  rw [Ne, Role.assign_eq_primary_iff, Nat.not_lt]
  refine and_congr_right fun hle => ⟨fun hnone => ?_, fun hnone s hs => ?_⟩
  · by_contra hsome
    obtain ⟨c, hc⟩ := Option.ne_none_iff_exists'.1 hsome
    exact hnone _ (Role.assign_receiver hle hc)
  · obtain ⟨-, c, hc, -⟩ := Role.assign_eq_receiver_iff.1 hs
    rw [hnone] at hc
    cases hc

/-- The core that flushes is the least one that neither measures nor answers. -/
theorem RunPlan.isLeast_firstFree {f : Nat} (hfree : p.firstFree? = some f) :
    IsLeast {core | core < p.cores.toNat ∧ Role.assign p core ≠ .primary ∧
      ∀ s, Role.assign p core ≠ .receiver s} f := by
  obtain ⟨hle, hlt, hsender, hleast⟩ := RunPlan.firstFree?_eq_some_iff.1 hfree
  refine ⟨⟨hlt, Role.assign_free_iff.2 ⟨hle, hsender⟩⟩, fun core hcore => ?_⟩
  obtain ⟨hle', hnone⟩ := Role.assign_free_iff.1 hcore.2
  by_contra hgt
  exact hleast core hle' (by omega) hnone

theorem RunPlan.Fits.laidOut (h : p.Fits) : p.LaidOut where
  primaries core _ := Role.assign_eq_primary_iff
  receivers hneeds := by
    rw [← RunPlan.needsReceivers_iff] at hneeds
    obtain ⟨hoffset, -⟩ := h.receivers hneeds
    exact ⟨fun c hc => Role.assign_receiver (by omega) (RunPlan.sender?_receiver hneeds hc),
      h.bijOn_receivers hneeds⟩
  unanswered hquiet core _ s hs := by
    obtain ⟨-, c, hc, -⟩ := Role.assign_eq_receiver_iff.1 hs
    exact hquiet (RunPlan.needsReceivers_iff.1 (RunPlan.sender?_eq_some_iff.1 hc).1)
  flusher hresponse := by
    obtain ⟨hprimaries, hcores, -⟩ := h.response hresponse
    obtain ⟨f, hfree⟩ := RunPlan.firstFree?_isSome hprimaries hcores
    refine ⟨f, (RunPlan.firstFree?_eq_some_iff.1 hfree).2.1, fun core _ => ?_,
      RunPlan.isLeast_firstFree hfree⟩
    rw [Role.assign_eq_flusher_iff, hfree, Option.some_inj, eq_comm (a := f)]
    exact and_iff_right hresponse
  unflushed hother core _ hflusher := hother (Role.assign_eq_flusher_iff.1 hflusher).1
  background core _ hprimary hreceiver hflusher := by
    obtain ⟨hle, hsender⟩ := Role.assign_free_iff.1 ⟨hprimary, hreceiver⟩
    exact Role.assign_rest hle hsender fun hw hf => hflusher (Role.assign_flusher hw hf)

/-- Where the number of the last receiver is a word, the check accepts exactly the plans whose
layout of roles works, and then every core has the role of its place. -/
theorem RunPlan.valid_layout (p : RunPlan) (hunwrapped : p.Unwrapped) :
    (p.Valid ↔ p.Workable) ∧ (p.Valid → p.LaidOut) :=
  ⟨⟨fun hvalid => (hvalid.fits hunwrapped).workable,
      fun hworkable => RunPlan.valid_iff_accepted.2 hworkable.fits.toAccepted⟩,
    fun hvalid => (hvalid.fits hunwrapped).laidOut⟩

/-- Three cores for the response workload, the receiver being the last: the core between flushes. -/
def farReceiver : RunPlan :=
  { RunPlan.standard with cores := 3, signalOffset := 2, workload := .response }

theorem RunPlan.valid_layout_farReceiver :
    farReceiver.Unwrapped ∧ farReceiver.Workable ∧ farReceiver.LaidOut ∧
      Role.assign farReceiver 1 = .flusher ∧ Role.assign farReceiver 2 = .receiver 0 := by
  have hunwrapped : farReceiver.Unwrapped := by decide
  have hvalid : farReceiver.Valid := by decide
  obtain ⟨hiff, hlaid⟩ := RunPlan.valid_layout farReceiver hunwrapped
  exact ⟨hunwrapped, hiff.1 hvalid, hlaid hvalid, by decide, by decide⟩

end LatencyGauge
