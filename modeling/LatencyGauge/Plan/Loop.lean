/-
The plan of one measuring loop: how many samples, how many attempts at most, which samples to
throw away and how long to wait. A plan is made from a preset by settings, each refused at once if
its argument is out of range; a plan that came from elsewhere is checked as a whole.
-/
import LatencyGauge.Plan.Violation
import LatencyGauge.Statistics.Totals

namespace LatencyGauge

/-! ## Loop plans -/

/-- What to do with a sample whose operation returned a code other than zero. -/
inductive FailurePolicy where
  | ignore
  | retry
  | countSeparately
deriving DecidableEq, Repr

/-- The parameters of one measuring loop. -/
structure LoopPlan where
  samples : UInt64
  maxAttempts : Option UInt64
  warmup : UInt64
  baseline : Cycles
  ceiling : Cycles
  quiescence : Cycles
  settle : Cycles
  onFailure : FailurePolicy
  tolerance : Float
deriving BEq, Repr

/-- The greatest 64-bit word. -/
def greatestWord : UInt64 := UInt64.ofNat (Nat.pow 2 64 - 1)

/-- A wait after an interrupt that lets its tail pass. -/
def quietCycles : Cycles := 10000

/-- Samples across cores that take longer are put down to firmware. -/
def firmwareCeiling : Cycles := 50000

/-- A million samples or so, no bound on attempts, no ceiling and no expectation. -/
def LoopPlan.standard : LoopPlan where
  samples := 1048576
  maxAttempts := none
  warmup := 0
  baseline := 0
  ceiling := greatestWord
  quiescence := 0
  settle := 0
  onFailure := .countSeparately
  tolerance := 0.05

/-! ## Checking -/

/-- Tolerances are finite and not negative. -/
def toleranceOk (t : Float) : Bool := t.isFinite && t >= 0.0

/-- The first rule that a loop plan breaks, if any. -/
def LoopPlan.check (p : LoopPlan) : Except Violation Unit := do
  Violation.unless (p.samples != 0) .noSamples
  Violation.unless (p.maxAttempts != some 0) .noAttempts
  Violation.unless (p.ceiling != 0) .noCeiling
  Violation.unless (toleranceOk p.tolerance) .badTolerance

/-- A loop plan that breaks no rule. -/
def LoopPlan.Valid (p : LoopPlan) : Prop := p.check = .ok ()

instance (p : LoopPlan) : Decidable p.Valid :=
  match h : p.check with
  | .ok () => .isTrue h
  | .error _ => .isFalse (by unfold LoopPlan.Valid; simp [h])

theorem LoopPlan.valid_iff (p : LoopPlan) :
    p.Valid ↔ p.samples ≠ 0 ∧ p.maxAttempts ≠ some 0 ∧ p.ceiling ≠ 0 ∧ toleranceOk p.tolerance := by
  unfold LoopPlan.Valid LoopPlan.check Violation.unless
  by_cases h1 : p.samples = 0 <;> by_cases h2 : p.maxAttempts = some 0 <;>
    by_cases h3 : p.ceiling = 0 <;> by_cases h4 : toleranceOk p.tolerance = true <;>
    simp [h1, h2, h3, h4, bind, Except.bind]

/-! ## Settings -/

/-- One field of a loop plan and the value to give it. -/
inductive LoopSetting where
  | samples (n : UInt64)
  | maxAttempts (n : UInt64)
  | warmup (n : UInt64)
  | baseline (c : Cycles)
  | ceiling (c : Cycles)
  | quiescence (c : Cycles)
  | settle (c : Cycles)
  | onFailure (policy : FailurePolicy)
  | tolerance (t : Float)
deriving Repr

/-- A plan with one field changed, whatever the value. -/
def LoopPlan.store (p : LoopPlan) : LoopSetting → LoopPlan
  | .samples n => { p with samples := n }
  | .maxAttempts n => { p with maxAttempts := some n }
  | .warmup n => { p with warmup := n }
  | .baseline c => { p with baseline := c }
  | .ceiling c => { p with ceiling := c }
  | .quiescence c => { p with quiescence := c }
  | .settle c => { p with settle := c }
  | .onFailure policy => { p with onFailure := policy }
  | .tolerance t => { p with tolerance := t }

/-- Refuses a value that is out of its field's range. -/
def LoopSetting.check : LoopSetting → Except Violation Unit
  | .samples n => Violation.unless (0 < n) .noSamples
  | .maxAttempts n => Violation.unless (0 < n) .noAttempts
  | .ceiling c => Violation.unless (0 < c) .noCeiling
  | .tolerance t => Violation.unless (toleranceOk t) .badTolerance
  | .warmup _ | .baseline _ | .quiescence _ | .settle _ | .onFailure _ => .ok ()

/-- A plan with one field changed, if the value is in range. -/
def LoopPlan.set (p : LoopPlan) (s : LoopSetting) : Except Violation LoopPlan := do
  s.check
  pure (p.store s)

/-- A plan with fields changed one after the other, up to the first value out of range. -/
def LoopPlan.setAll (p : LoopPlan) (settings : List LoopSetting) : Except Violation LoopPlan :=
  settings.foldlM LoopPlan.set p

/-! ## Presets -/

/-- A calibrated starting point. -/
inductive LoopPreset where
  | standard
  | pingpong
  | ipi
  | response
  | capActivate
  | threadSwitch
  | memMap
  | pgtblCons
  | captblCons
deriving DecidableEq, Repr

/-- A signal to another core, answered through a mailbox. -/
def LoopPlan.ipi : LoopPlan :=
  { LoopPlan.standard with
    baseline := 18122, ceiling := firmwareCeiling, quiescence := quietCycles }

/-- The plan of a preset. -/
def LoopPreset.plan : LoopPreset → LoopPlan
  | .standard => .standard
  | .pingpong => { LoopPlan.standard with baseline := 638 }
  | .ipi => .ipi
  | .response => { LoopPlan.ipi with baseline := 3000 }
  | .capActivate =>
    { LoopPlan.standard with baseline := 800, settle := quietCycles, onFailure := .countSeparately }
  | .threadSwitch => { LoopPlan.standard with baseline := 463 }
  | .memMap =>
    { LoopPlan.standard with
      baseline := 2749, quiescence := quietCycles, onFailure := .countSeparately }
  | .pgtblCons => { LoopPlan.standard with baseline := 337, quiescence := quietCycles }
  | .captblCons => { LoopPlan.standard with baseline := 62518, quiescence := quietCycles }

/-- The names of the presets. -/
def LoopPreset.table : List (String × LoopPreset) :=
  [("new", .standard), ("default", .standard), ("pingpong", .pingpong), ("ipi", .ipi),
    ("response", .response), ("cap_activate", .capActivate), ("thread_switch", .threadSwitch),
    ("mem_map", .memMap), ("pgtbl_cons", .pgtblCons), ("captbl_cons", .captblCons)]

/-- The preset of a name; any other name stands for the standard plan. -/
def LoopPreset.named (name : String) : LoopPreset :=
  (LoopPreset.table.lookup name).getD .standard

end LatencyGauge
