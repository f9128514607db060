/-
What an observation of an oracle shows and does. The tick is the sum of the counters at the leaves,
so it changes by the sum of what they were advanced by; every flush point with a marker sends it
once, and nothing else changes.
-/
import LatencyGauge.Tick.Oracle

namespace LatencyGauge

/-! ## Values -/

/-- The tick that an oracle shows of counters: the sum of all its leaves. -/
def Oracle.value (counters : Nat → Tick) : Oracle → Tick
  | .counter i => counters i
  | .pair a b => a.value counters + b.value counters
  | .flushPoint _ _ inner => inner.value counters

/-- What counters were advanced by shows as itself. -/
theorem Oracle.value_add (o : Oracle) (c d : Nat → Tick) :
    o.value (fun i => c i + d i) = o.value c + o.value d := by
  induction o with
  | counter i => rfl
  | pair a b iha ihb =>
    simp only [Oracle.value, iha, ihb]
    ac_rfl
  | flushPoint sink marker inner ih => exact ih

/-- An oracle shows an advance of a counter: the tick is another one afterwards. -/
def Oracle.Shows (o : Oracle) (i : Nat) : Prop := o.value (fun j => if j = i then 1 else 0) ≠ 0

instance (o : Oracle) (i : Nat) : Decidable (o.Shows i) := inferInstanceAs (Decidable (_ ≠ _))

theorem Oracle.Shows.value_advance {o : Oracle} {i : Nat} (h : o.Shows i) (p : Panel) :
    o.value (p.advance i).counters ≠ o.value p.counters := by
  have hstep : (p.advance i).counters = fun j => p.counters j + if j = i then 1 else 0 := by
    funext j
    by_cases hj : j = i
    · simp [Panel.advance, Panel.put, hj]
    · simp [Panel.advance, Panel.put, hj]
  rw [hstep, o.value_add]
  intro heq
  exact h (UInt32.add_eq_left.1 heq)

/-! ## Markers -/

/-- The lines that one observation of an oracle sends, each with its sink, in their order. -/
def Oracle.markers : Oracle → List (Nat × String)
  | .counter _ => []
  | .pair a b => a.markers ++ b.markers
  | .flushPoint sink marker inner => (marker.map (sink, ·)).toList ++ inner.markers

/-- An observation shows the value of the counters and sends the markers. -/
theorem Oracle.observe_eq (o : Oracle) (p : Panel) :
    o.observe p = (o.value p.counters, ⟨p.counters, o.markers.reverse ++ p.log⟩) := by
  induction o generalizing p with
  | counter i => rfl
  | pair a b iha ihb =>
    simp only [Oracle.observe_pair, iha, ihb, Oracle.value, Oracle.markers, List.reverse_append,
      List.append_assoc]
  | flushPoint sink marker inner ih =>
    rw [Oracle.observe_flushPoint, ih]
    cases marker with
    | none => rfl
    | some m => simp [Oracle.value, Oracle.markers, Panel.emit]

end LatencyGauge
