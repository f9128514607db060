/-
Attempts on a stage. Where a world shows a stage, an attempt reads the clock of the stage before and
after its call and observes an oracle over the counters on both sides of it. So its sample tells what
the call did to the clock and to the counters; what the attempt adds is the settling delay, and the
markers of two observations.
-/
import LatencyGauge.Proofs.Measure.Turn
import LatencyGauge.Proofs.Tick.Observation
import LatencyGauge.Simulate.Script

namespace LatencyGauge

variable {W : Type}

/-! ## Stages -/

/-- An observation shows the value of the counters of a stage and sends the markers. -/
theorem Stage.observe_eq (o : Oracle) (s : Stage) :
    Stage.observe o s = (o.value s.panel.counters,
      { s with panel := ⟨s.panel.counters, o.markers.reverse ++ s.panel.log⟩ }) := by
  unfold Stage.observe
  rw [Oracle.observe_eq]

@[simp] theorem Stage.clock_observe (o : Oracle) (s : Stage) :
    (Stage.observe o s).2.clock = s.clock := rfl

@[simp] theorem Stage.counters_observe (o : Oracle) (s : Stage) :
    (Stage.observe o s).2.panel.counters = s.panel.counters := by
  rw [Stage.observe_eq]

@[simp] theorem Stage.clock_advance (s : Stage) (cycles : Cycles) :
    (s.advance cycles).clock = s.clock + cycles := rfl

@[simp] theorem Stage.panel_advance (s : Stage) (cycles : Cycles) :
    (s.advance cycles).panel = s.panel := rfl

/-- A window over which the clock went on shows how far it went. -/
theorem Window.elapsed?_of_advance {w : Window} {cycles : Cycles} (h : w.stop = w.start + cycles)
    (hclock : w.start.toNat + cycles.toNat < UInt64.size) : w.elapsed? = some cycles := by
  have hlength : w.stop.toNat = w.start.toNat + cycles.toNat := by
    rw [h, UInt64.toNat_add, Nat.mod_eq_of_lt hclock]
  have hforward : w.start ≤ w.stop := by
    rw [UInt64.le_iff_toNat_le]
    omega
  rw [Window.elapsed?, if_pos hforward, Option.some.injEq, ← UInt64.toNat_inj,
    UInt64.toNat_sub_of_le _ _ hforward]
  omega

/-! ## Worlds that show a stage -/

theorem Stage.rig_seen (o : Oracle) :
    (Stage.rig (Stage.observe o)).Seen id (Stage.rig (Stage.observe o)) :=
  ⟨fun _ => rfl, fun _ _ => rfl, fun _ => rfl⟩

section Shown

variable {r : Rig W} {stage : W → Stage} {o : Oracle} (hr : r.Seen stage (Stage.rig (Stage.observe o)))

include hr

theorem Rig.Seen.reading (w : W) : (r.now w).1 = (stage w).clock ∧ stage (r.now w).2 = stage w := by
  have h := hr.now w
  simp only [Stage.rig, Prod.mk.injEq] at h
  exact ⟨h.1.symm, h.2.symm⟩

theorem Rig.Seen.observation (w : W) :
    (r.observe w).1 = o.value (stage w).panel.counters ∧
      stage (r.observe w).2 = (Stage.observe o (stage w)).2 := by
  have h : Stage.observe o (stage w) = _ := hr.observe w
  rw [h]
  refine ⟨?_, rfl⟩
  have hfirst := congrArg Prod.fst h
  rw [Stage.observe_eq] at hfirst
  exact hfirst.symm

/-- A pause moves the clock, also where it is none at all. -/
theorem Rig.Seen.pausing (c : Cycles) (w : W) : stage (r.pause c w) = (stage w).advance c := by
  rw [← hr.pause]
  unfold Rig.pause
  split
  · rename_i hnone
    simp [hnone, Stage.advance]
  · rfl

end Shown

/-- An attempt, made from one world to another, at an operation in a world that shows a stage. The
readings and the ticks are those of the stage on both sides of the call. -/
structure Attempt.Brackets (f : Attempt W) (plan : LoopPlan) (o : Oracle) (stage : W → Stage)
    (op : Operation W) (w v : W) : Prop where
  world : stage f.call.world = (Stage.observe o (stage w)).2
  code : f.call.code = (op f.call.world).1
  start : f.start = (stage f.call.world).clock
  stop : f.stop = (stage (op f.call.world).2).clock
  before : f.before = o.value (stage f.call.world).panel.counters
  after : f.after = o.value (stage (op f.call.world).2).panel.counters
  left : stage v = (Stage.observe o ((stage (op f.call.world).2).advance plan.settle)).2

theorem Rig.Seen.tried {r : Rig W} {stage : W → Stage} {o : Oracle}
    (hr : r.Seen stage (Stage.rig (Stage.observe o))) {plan : LoopPlan} {op : Operation W} {w v : W}
    {f : Attempt W} (h : r.tried plan op w = (f, v)) : f.Brackets plan o stage op w v := by
  obtain ⟨hbefore, hopened⟩ := hr.observation w
  obtain ⟨hstart, hread⟩ := hr.reading (r.observe w).2
  have hworld : stage (r.now (r.observe w).2).2 = (Stage.observe o (stage w)).2 :=
    hread.trans hopened
  obtain ⟨hstop, hreread⟩ := hr.reading (op (r.now (r.observe w).2).2).2
  have hsettled := hr.pausing plan.settle (r.now (op (r.now (r.observe w).2).2).2).2
  rw [hreread] at hsettled
  obtain ⟨hafter, hclosed⟩ :=
    hr.observation (r.pause plan.settle (r.now (op (r.now (r.observe w).2).2).2).2)
  rw [hsettled] at hafter hclosed
  cases h
  constructor
  case world => exact hworld
  case code => rfl
  case start => exact hstart.trans (congrArg Stage.clock hread.symm)
  case stop => exact hstop
  case before =>
    rw [hworld, Stage.counters_observe]
    exact hbefore
  case after => exact hafter
  case left => exact hclosed

/-! ## Parts that a rig leaves alone -/

/-- What a rig does leaves a part of the world as it is. -/
structure Rig.Keeps {A : Type} (r : Rig W) (part : W → A) : Prop where
  now : ∀ w, part (r.now w).2 = part w
  wait : ∀ c w, part (r.wait c w) = part w
  observe : ∀ w, part (r.observe w).2 = part w

section Kept

variable {A : Type} {r : Rig W} {part : W → A} (hk : r.Keeps part)

include hk

theorem Rig.Keeps.pause (c : Cycles) (w : W) : part (r.pause c w) = part w := by
  unfold Rig.pause
  split
  · rfl
  · exact hk.wait c w

theorem Rig.Keeps.recover (plan : LoopPlan) (verdict : Verdict) (w : W) :
    part (r.recover plan verdict w) = part w := by
  unfold Rig.recover
  split
  · exact hk.pause _ w
  · rfl

/-- Around the call, an attempt leaves the part alone. -/
theorem Rig.Keeps.tried {plan : LoopPlan} {op : Operation W} {w v : W} {f : Attempt W}
    (h : r.tried plan op w = (f, v)) :
    part f.call.world = part w ∧ part v = part (op f.call.world).2 := by
  cases h
  constructor
  · exact (hk.now _).trans (hk.observe w)
  · exact (hk.observe _).trans ((hk.pause _ _).trans (hk.now _))

end Kept

end LatencyGauge
