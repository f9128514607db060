/-
Whole runs. A run's result is what the machine's cores produced in the order of the cores, however
their steps interleaved; a plan that breaks a rule starts no core. In the simulated schedule all
cores step in turn, every reading lies a fixed number of cycles after the one before, and the timer
steps once in many turns.
-/
import LatencyGauge.Host.Machine

namespace LatencyGauge

/-! ## Results -/

/-- The host of a run: the name of its cycle counter, the counter's speed, and the cores whose
threads are pinned. -/
structure HostInfo where
  clock : String
  cyclesPerNs : Float
  pinned : Nat → Bool

/-- The entry of a core that produced an outcome. -/
def coreReport (p : RunPlan) (h : HostInfo) (core : Nat) (o : Outcome) : CoreReport :=
  ⟨UInt64.ofNat core, Role.assign p core, h.pinned core, o⟩

/-- A run whose cores have all come to their ends: completion is announced, in case a lost primary
did not, and the timer stops. -/
def Machine.finish (m : Machine) : Machine :=
  let m := { m with shared := m.shared.complete }
  m.stepTimer.stepTimer.stepTimer

/-- What a finished run reports. -/
def Machine.report (m : Machine) (h : HostInfo) : Except Fault RunReport := do
  let outcomes ← m.outcomes
  pure {
    plan := m.plan
    clock := h.clock
    cyclesPerNs := h.cyclesPerNs
    ticksFired := UInt64.ofNat m.timer.fired
    cores := outcomes.zipIdx.map fun (o, core) => coreReport m.plan h core o }

/-- The result of a run in which the given events happened, if they bring all cores to an end. -/
def RunPlan.outcome (p : RunPlan) (h : HostInfo) (events : List Event) :
    Option (Except Fault RunReport) :=
  match p.check with
  | .error v => some (.error (.invalidPlan v))
  | .ok () =>
    let m := (Machine.start p).run events
    if m.over then some (m.finish.report h) else none

/-! ## The simulated schedule -/

/-- The cycles between two readings. -/
def readingStride : Nat := 100

/-- The timer steps once in so many turns. -/
def turnsPerTick : Nat := 4096

/-- The reading of a core in a turn. -/
def simulatedReading (cores turn core : Nat) : Reading :=
  ⟨UInt64.ofNat ((turn * cores + core + 1) * readingStride), 0⟩

/-- One turn: every core steps once, and then perhaps the timer. -/
def Machine.turn (s : Nat × Machine) : Nat × Machine :=
  let (turn, m) := s
  let cores := m.cores.size
  let m := sweep (fun core m => m.stepCore core (simulatedReading cores turn core)) cores m
  (turn + 1, if turn % turnsPerTick = 0 then m.stepTimer else m)

/-- Simulates a run for at most `fuel` turns: its result, and the lines for the sink in order. -/
def RunPlan.simulate (p : RunPlan) (h : HostInfo) (fuel : Nat) :
    Option (Except Fault RunReport × List String) :=
  match p.check with
  | .error v => some (.error (.invalidPlan v), [])
  | .ok () =>
    (iterate (fun s => s.2.over) Machine.turn fuel (0, Machine.start p)).map fun (_, m) =>
      (m.finish.report h, m.shared.lines.reverse)

end LatencyGauge
