/-
Runs under way. As far as its fuel takes it, a run has been through its warm-up and has then made
samples or taken turns one after the other, whether or not it ever comes to an end. If it does, what
it has written down by then is the record of the whole run.
-/
import LatencyGauge.Proofs.Measure.Calls
import LatencyGauge.Proofs.Measure.Probe

namespace LatencyGauge

variable {W : Type}

/-! ## Runs with a probe -/

/-- Where a recorded run with a probe stands after at most `fuel` attempts. -/
def Rig.probeSoFar (r : Rig W) (plan : LoopPlan) (p : Probe W) (fuel : Nat) (w : W) :
    Tally × (W × List (Note W)) :=
  iterateUpTo (fun s => !s.1.goesOn plan) (r.recorded.step plan p.recorded) fuel
    (.start plan.baseline, p.recorded.warmUp plan.warmup.toNat (w, []))

/-- What a run with a probe has written down after at most `fuel` attempts. -/
def Rig.probeNotes (r : Rig W) (plan : LoopPlan) (p : Probe W) (fuel : Nat) (w : W) :
    List (Note W) :=
  (r.probeSoFar plan p fuel w).2.2

/-! ## Runs over a pair -/

/-- Where a recorded run over a pair stands after at most `fuel` forward attempts. -/
def Rig.pairSoFar (r : Rig W) (plan : LoopPlan) (reverseBaseline : Cycles) (op : Pair W)
    (fuel : Nat) (w : W) : PairTally × (W × List (Note W)) :=
  iterateUpTo (fun s => !s.1.goesOn plan) (r.recorded.pairStep plan op.recorded) fuel
    (.start plan.baseline reverseBaseline, op.recorded.warmUp plan.warmup.toNat (w, []))

/-- What a run over a pair has written down after at most `fuel` forward attempts. -/
def Rig.pairNotes (r : Rig W) (plan : LoopPlan) (reverseBaseline : Cycles) (op : Pair W)
    (fuel : Nat) (w : W) : List (Note W) :=
  (r.pairSoFar plan reverseBaseline op fuel w).2.2

theorem Rig.callsIn_pairNotes (r : Rig W) (plan : LoopPlan) (reverseBaseline : Cycles) (op : Pair W)
    (fuel : Nat) (w : W) :
    callsIn (r.pairNotes plan reverseBaseline op fuel w) =
      r.pairCallsMade plan reverseBaseline op fuel w := rfl

/-- A run over a pair that is under way has been through its warm-up and has taken turns. -/
theorem Rig.pairSoFar_turned (r : Rig W) (plan : LoopPlan) (reverseBaseline : Cycles) (op : Pair W)
    (fuel : Nat) (w : W) :
    ∃ (rounds : List (Rehearsal W)) (turns : List (Turn W)),
      rounds.length = plan.warmup.toNat ∧
      op.Rehearses w rounds (op.warmUp plan.warmup.toNat w) ∧
      plan.Turned r reverseBaseline op (op.warmUp plan.warmup.toNat w)
        (rounds.flatMap Rehearsal.notes) (r.pairSoFar plan reverseBaseline op fuel w) turns := by
  obtain ⟨rounds, hlen, hrounds, hwarm⟩ := op.warmUp_recorded plan.warmup.toNat w []
  have hstep : ∀ s l, (!s.1.goesOn plan) = false →
      plan.Turned r reverseBaseline op (op.warmUp plan.warmup.toNat w)
        (rounds.flatMap Rehearsal.notes) s l →
      ∃ x, plan.Turned r reverseBaseline op (op.warmUp plan.warmup.toNat w)
        (rounds.flatMap Rehearsal.notes) (r.recorded.pairStep plan op.recorded s) (l ++ [x]) :=
    fun s l hgo hs => hs.step (by simpa using hgo)
  obtain ⟨turns, -, hturned⟩ := iterateUpTo_trail hstep fuel
    (plan.turned_nil r reverseBaseline op _ _)
  rw [List.nil_append] at hturned hwarm
  rw [← hwarm] at hturned
  exact ⟨rounds, turns, hlen, hrounds, hturned⟩

theorem Rig.pairCallsMade_of_turned {r : Rig W} {plan : LoopPlan} {reverseBaseline : Cycles}
    {op : Pair W} {fuel : Nat} {v w : W} {rounds : List (Rehearsal W)} {turns : List (Turn W)}
    (h : plan.Turned r reverseBaseline op v (rounds.flatMap Rehearsal.notes)
      (r.pairSoFar plan reverseBaseline op fuel w) turns) :
    r.pairCallsMade plan reverseBaseline op fuel w =
      rounds.flatMap Rehearsal.calls ++ turns.flatMap Turn.calls := by
  rw [← r.callsIn_pairNotes, Rig.pairNotes, h.record, callsIn_run]

/-- A run over a pair that ends has then written down its whole record. -/
theorem Rig.runPair_soFar {r : Rig W} {plan : LoopPlan} {name : String} {reverseBaseline : Cycles}
    {op : Pair W} {fuel : Nat} {w w' : W} {report : PairReport}
    (h : r.runPair plan name reverseBaseline op fuel w = some (report, w')) :
    r.recorded.runPair plan name reverseBaseline op.recorded fuel (w, []) =
        some (report, (w', r.pairNotes plan reverseBaseline op fuel w)) ∧
      (r.pairSoFar plan reverseBaseline op fuel w).2.1 = w' := by
  obtain ⟨record, hrun⟩ := Rig.exists_record_of_runPair h
  obtain ⟨⟨t, v, record'⟩, hloop, heq⟩ := Option.map_eq_some_iff.1 hrun
  cases heq
  have hends : r.pairSoFar plan reverseBaseline op fuel w = (t, (w', record)) :=
    iterateUpTo_of_iterate hloop
  rw [Rig.pairNotes, hends]
  exact ⟨hrun, rfl⟩

end LatencyGauge
