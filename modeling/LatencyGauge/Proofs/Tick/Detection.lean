/-
What two observations of an oracle tell about what happened between them. An observation does one
thing after another: it reads the counters at its leaves from left to right, sends the marker of a
flush point right before it comes to what the flush point guards, and its tick is the sum of what
was read, whatever the instruments do. So between two observations the tick changes by the sum of
what the counters at the leaves were advanced by, and a sample between them is thrown away for its
tick exactly if that sum does not vanish in 32 bits.
-/
import LatencyGauge.Proofs.Measure.Verdict
import LatencyGauge.Proofs.Tick.Observation

namespace LatencyGauge

variable {W : Type}

/-! ## One thing after another -/

/-- One thing that an observation does: it reads a counter, or it sends a line to a sink. -/
inductive Glance where
  | read (counter : Nat)
  | send (sink : Nat) (line : String)
deriving DecidableEq, Repr

/-- What one observation of an oracle does, in its order. -/
def Oracle.glances : Oracle → List Glance
  | .counter i => [.read i]
  | .pair a b => a.glances ++ b.glances
  | .flushPoint sink marker inner => (marker.map (.send sink)).toList ++ inner.glances

/-- Does one thing; what is read is added up. -/
def Glance.take (s : Instruments W) : Tick × W → Glance → Tick × W
  | (t, w), .read i => (t + (s.read i w).1, (s.read i w).2)
  | (t, w), .send sink line => (t, s.send sink line w)

/-- The line that is sent, with its sink. -/
def Glance.line? : Glance → Option (Nat × String)
  | .read _ => none
  | .send sink line => some (sink, line)

/-- Doing what an observation does adds its tick. -/
theorem Oracle.foldl_glances (o : Oracle) (s : Instruments W) (t : Tick) (w : W) :
    o.glances.foldl (Glance.take s) (t, w) =
      (t + (o.observeWith s w).1, (o.observeWith s w).2) := by
  induction o generalizing t w with
  | counter i => rfl
  | pair a b iha ihb =>
    rw [Oracle.glances, List.foldl_append, iha, ihb, UInt32.add_assoc]
    rfl
  | flushPoint sink marker inner ih =>
    rw [Oracle.glances, List.foldl_append]
    cases marker <;> exact ih ..

/-- An observation is what it does, one thing after another. -/
theorem Oracle.observeWith_eq (o : Oracle) (s : Instruments W) (w : W) :
    o.observeWith s w = o.glances.foldl (Glance.take s) (0, w) := by
  rw [o.foldl_glances, UInt32.zero_add]

/-- The lines that are sent are the markers of the flush points, one for each that has one. -/
theorem Oracle.filterMap_glances (o : Oracle) : o.glances.filterMap Glance.line? = o.markers := by
  induction o with
  | counter i => rfl
  | pair a b iha ihb => rw [Oracle.glances, List.filterMap_append, iha, ihb, Oracle.markers]
  | flushPoint sink marker inner ih =>
    rw [Oracle.glances, List.filterMap_append, ih, Oracle.markers]
    cases marker <;> rfl

/-! ## Parts of an oracle -/

/-- A part of an oracle, between what an observation does before it comes to the part and what it
does after that. -/
inductive Oracle.Part : Oracle → List Glance → Oracle → List Glance → Prop where
  | whole (o : Oracle) : Part o [] o []
  | left {a x : Oracle} {before after : List Glance} (b : Oracle) (h : Part a before x after) :
      Part (.pair a b) before x (after ++ b.glances)
  | right {b x : Oracle} {before after : List Glance} (a : Oracle) (h : Part b before x after) :
      Part (.pair a b) (a.glances ++ before) x after
  | guarded {inner x : Oracle} {before after : List Glance} (sink : Nat) (marker : Option String)
      (h : Part inner before x after) :
      Part (.flushPoint sink marker inner) ((marker.map (.send sink)).toList ++ before) x after

theorem Oracle.Part.glances_eq {o x : Oracle} {before after : List Glance}
    (h : o.Part before x after) : o.glances = before ++ (x.glances ++ after) := by
  induction h with
  | whole o => simp
  | left b _ ih => simp only [Oracle.glances, ih, List.append_assoc]
  | right a _ ih => simp only [Oracle.glances, ih, List.append_assoc]
  | guarded sink marker _ ih => simp only [Oracle.glances, ih, List.append_assoc]

/-- Every marker is sent for a flush point, right before what that guards. -/
theorem Oracle.part_of_glances {o : Oracle} {before after : List Glance} {sink : Nat}
    {line : String} (h : o.glances = before ++ .send sink line :: after) :
    ∃ inner rest, o.Part before (.flushPoint sink (some line) inner) rest ∧
      after = inner.glances ++ rest := by
  induction o generalizing before after with
  | counter i =>
    rcases List.singleton_eq_append_iff.1 h with ⟨-, hnil⟩ | ⟨-, hread⟩
    · cases hnil
    · cases hread
  | pair a b iha ihb =>
    rcases List.append_eq_append_iff.1 h with ⟨front, rfl, hb⟩ | ⟨back, ha, hafter⟩
    · obtain ⟨inner, rest, hpart, rfl⟩ := ihb hb
      exact ⟨inner, rest, .right a hpart, rfl⟩
    · -- the marker is the first thing behind the split, unless nothing of the left part is
      cases back with
      | nil =>
        have hb : b.glances = [] ++ .send sink line :: after := hafter.symm
        obtain ⟨inner, rest, hpart, rfl⟩ := ihb hb
        rw [List.append_nil] at ha
        refine ⟨inner, rest, ?_, rfl⟩
        simpa [ha] using Oracle.Part.right a hpart
      | cons g back =>
        obtain ⟨rfl, rfl⟩ := List.cons.inj hafter
        obtain ⟨inner, rest, hpart, rfl⟩ := iha ha
        exact ⟨inner, rest ++ b.glances, .left b hpart, List.append_assoc ..⟩
  | flushPoint sink' marker inner ih =>
    cases marker with
    | none =>
      obtain ⟨inner', rest, hpart, hafter⟩ := ih h
      exact ⟨inner', rest, .guarded sink' none hpart, hafter⟩
    | some m =>
      cases before with
      | nil =>
        cases h
        exact ⟨inner, [], .whole _, (List.append_nil _).symm⟩
      | cons g before =>
        obtain ⟨rfl, hinner⟩ := List.cons.inj h
        obtain ⟨inner', rest, hpart, hafter⟩ := ih hinner
        exact ⟨inner', rest, .guarded sink' (some m) hpart, hafter⟩

/-- What an observation does: one thing after another, with whatever instruments. It sends the
marker of every flush point that has one, and it sends a marker exactly where it comes to what a
flush point with that marker guards. A panel has the markers in its log and is otherwise as
before. -/
structure Oracle.Orderly (o : Oracle) : Prop where
  course : ∀ {W : Type} (s : Instruments W) (w : W),
    o.observeWith s w = o.glances.foldl (Glance.take s) (0, w)
  markers : o.glances.filterMap Glance.line? = o.markers
  placed : ∀ before sink line after, o.glances = before ++ .send sink line :: after ↔
    ∃ inner rest, o.Part before (.flushPoint sink (some line) inner) rest ∧
      after = inner.glances ++ rest
  panel : ∀ p, (o.observe p).2 = ⟨p.counters, o.markers.reverse ++ p.log⟩

theorem Oracle.orderly (o : Oracle) : o.Orderly where
  course := o.observeWith_eq
  markers := o.filterMap_glances
  placed before sink line after := by
    refine ⟨Oracle.part_of_glances, ?_⟩
    rintro ⟨inner, rest, hpart, rfl⟩
    exact hpart.glances_eq
  panel p := by rw [o.observe_eq]

/-! ## Amounts -/

/-- What the counters at the leaves were advanced by, each as often as it is a leaf. -/
def Oracle.total (amounts : Nat → Nat) : Oracle → Nat
  | .counter i => amounts i
  | .pair a b => a.total amounts + b.total amounts
  | .flushPoint _ _ inner => inner.total amounts

/-- Whether counters were advanced by amounts at the leaves of an oracle; they wrap. -/
def Oracle.Advanced (o : Oracle) (amounts : Nat → Nat) (p q : Panel) : Prop :=
  ∀ i, .read i ∈ o.glances → q.counters i = p.counters i + UInt32.ofNat (amounts i)

theorem Oracle.Advanced.value {o : Oracle} {amounts : Nat → Nat} {p q : Panel}
    (h : o.Advanced amounts p q) :
    o.value q.counters = o.value p.counters + UInt32.ofNat (o.total amounts) := by
  induction o with
  | counter i => exact h i (List.mem_singleton.2 rfl)
  | pair a b iha ihb =>
    have ha := iha fun i hi => h i (List.mem_append_left _ hi)
    have hb := ihb fun i hi => h i (List.mem_append_right _ hi)
    simp only [Oracle.value, Oracle.total, ha, hb, UInt32.ofNat_add]
    ac_rfl
  | flushPoint sink marker inner ih => exact ih fun i hi => h i (List.mem_append_right _ hi)

/-- Counters that are advanced one at a time. -/
theorem Panel.counters_foldl_advance (p : Panel) (is : List Nat) (i : Nat) :
    (is.foldl Panel.advance p).counters i = p.counters i + UInt32.ofNat (is.count i) := by
  induction is generalizing p with
  | nil => simp
  | cons j is ih =>
    rw [List.foldl_cons, ih, List.count_cons]
    by_cases hj : i = j
    · subst hj
      simp only [Panel.advance, Panel.put, if_true, beq_self_eq_true, UInt32.ofNat_add]
      rw [UInt32.add_assoc, UInt32.add_comm 1]
      rfl
    · have hne : (j == i) = false := beq_eq_false_iff_ne.2 fun h => hj h.symm
      simp [Panel.advance, Panel.put, hj, hne]

/-- A number wraps to zero exactly if it is a multiple of the number of ticks. -/
theorem tick_eq_zero_iff (n : Nat) : (UInt32.ofNat n : Tick) = 0 ↔ UInt32.size ∣ n := by
  rw [← UInt32.toNat_inj, UInt32.toNat_ofNat', Nat.dvd_iff_mod_eq_zero]
  rfl

/-! ## Two observations -/

/-- The tick of an oracle is the same exactly if its counters were advanced by whole rounds. -/
theorem Oracle.Advanced.observe_eq_iff {o : Oracle} {amounts : Nat → Nat} {p q : Panel}
    (h : o.Advanced amounts p q) :
    (o.observe p).1 = (o.observe q).1 ↔ UInt32.size ∣ o.total amounts := by
  rw [o.observe_eq, o.observe_eq, h.value, ← tick_eq_zero_iff]
  constructor
  · intro hsame
    exact UInt32.add_eq_left.1 hsame.symm
  · intro hzero
    rw [hzero, UInt32.add_zero]

/-- A sample is thrown away for its tick exactly if its ticks differ. -/
theorem Sample.verdict_eq_tickChanged_iff (plan : LoopPlan) (s : Sample) :
    s.verdict plan = .reject .tickChanged ↔ s.before ≠ s.after := by
  refine ⟨fun hverdict => ?_, Sample.verdict_of_disturbed⟩
  have hfirst := ((Sample.verdict_eq_reject_iff plan s .tickChanged).1 hverdict).2
  simpa [Sample.violates] using List.find?_some hfirst

/-- What two observations of an oracle tell: the same tick means that the counters at its leaves
were advanced by a multiple of 2^32 altogether. So a sample between them is thrown away for its tick
under every plan if they were advanced by less than that, and under no plan if they were not
advanced. Each observation is orderly. -/
theorem Oracle.observations_tell {o : Oracle} {amounts : Nat → Nat} {p q : Panel}
    (h : o.Advanced amounts p q) :
    ((o.observe p).1 = (o.observe q).1 ↔ UInt32.size ∣ o.total amounts) ∧
      (∀ (w : Window) (plan : LoopPlan),
        (0 < o.total amounts → o.total amounts < UInt32.size →
          Sample.verdict ⟨w, (o.observe p).1, (o.observe q).1⟩ plan = .reject .tickChanged) ∧
        (o.total amounts = 0 →
          Sample.verdict ⟨w, (o.observe p).1, (o.observe q).1⟩ plan ≠ .reject .tickChanged)) ∧
      o.Orderly := by
  have hsame := h.observe_eq_iff
  refine ⟨hsame, fun w plan => ⟨fun hpos hfew => ?_, fun hnone => ?_⟩, o.orderly⟩
  · rw [Sample.verdict_eq_tickChanged_iff]
    intro heq
    exact absurd (Nat.le_of_dvd hpos (hsame.1 heq)) (Nat.not_le.2 hfew)
  · rw [ne_eq, Sample.verdict_eq_tickChanged_iff]
    intro hne
    exact hne (hsame.2 (hnone ▸ Nat.dvd_zero _))

/-- Two flush points with markers around a pair that has a counter twice. -/
def nestedOracle : Oracle :=
  .flushPoint 0 (some "outer") (.pair (.counter 0) (.flushPoint 1 (some "inner")
    (.pair (.counter 1) (.flushPoint 0 none (.counter 0)))))

/-- Two counters that are about to wrap. -/
def fullPanel : Panel := ⟨fun _ => 0xFFFFFFFF, []⟩

/-- Advanced once, the counter that is a leaf twice shows twice; the other one makes up for nothing
while it wraps. The markers come from the outside to the inside, each right before its part. -/
theorem Oracle.observations_tell_nested :
    nestedOracle.Advanced ([0, 1].count ·) fullPanel ([0, 1].foldl Panel.advance fullPanel) ∧
      nestedOracle.total ([0, 1].count ·) = 3 ∧
      nestedOracle.glances =
        [.send 0 "outer", .read 0, .send 1 "inner", .read 1, .read 0] ∧
      Sample.verdict ⟨⟨5, 9, 0⟩, (nestedOracle.observe fullPanel).1,
        (nestedOracle.observe ([0, 1].foldl Panel.advance fullPanel)).1⟩ .standard =
          .reject .tickChanged ∧
      nestedOracle.Orderly := by
  have hadvanced : nestedOracle.Advanced ([0, 1].count ·) fullPanel
      ([0, 1].foldl Panel.advance fullPanel) := fun i _ => fullPanel.counters_foldl_advance _ i
  obtain ⟨-, hthrown, horderly⟩ := Oracle.observations_tell hadvanced
  have htotal : nestedOracle.total ([0, 1].count ·) = 3 := by decide
  refine ⟨hadvanced, htotal, by decide, ?_, horderly⟩
  exact (hthrown ⟨5, 9, 0⟩ .standard).1 (by rw [htotal]; decide) (by rw [htotal]; decide)

end LatencyGauge
