/-
A token ring over mailboxes and a barrier. In every lap the first core posts a number to the
second and waits for it to come round; every other core takes the number and posts it increased
by one to its neighbour. All cores enter the barrier once before the first lap and once after
each.
-/
import LatencyGauge.Iterate
import LatencyGauge.Sync.Barrier
import LatencyGauge.Sync.Mailboxes

namespace LatencyGauge

/-! ## Cores of a ring -/

/-- What a core does next. -/
inductive RingStage where
  | clearing
  | gate (g : Gate)
  | launching
  | polling
  | emptying (token : UInt64)
  | passing (token : UInt64)
  | ended
deriving DecidableEq, Repr

/-- A core, the laps it has begun, and the tokens it has seen, the latest first. -/
structure RingCore where
  stage : RingStage
  laps : Nat
  seen : List UInt64
deriving DecidableEq, Repr

/-- A ring. -/
structure Ring where
  laps : Nat
  barrier : Barrier
  boxes : Mailboxes
  cores : Array RingCore
deriving DecidableEq, Repr

/-- A ring before it starts. -/
def Ring.create (cores laps : Nat) : Ring :=
  ⟨laps, .fresh, .create cores cores, Array.replicate cores ⟨.clearing, 0, []⟩⟩

/-- What a core does after the barrier: the next lap, if there is one. -/
def RingCore.enterLap (c : RingCore) (core laps : Nat) : RingCore :=
  if c.laps < laps then
    { c with stage := if core = 0 then .launching else .polling, laps := c.laps + 1 }
  else { c with stage := .ended }

/-- The token that starts a lap. -/
def Ring.token (r : Ring) (lap : Nat) : UInt64 := UInt64.ofNat (lap * r.cores.size + 1)

/-- One step of a core: what it does to itself, to the barrier and to the mailboxes. -/
def Ring.stepCore (r : Ring) (core : Nat) (c : RingCore) : RingCore × Barrier × Mailboxes :=
  let next := (core + 1) % r.cores.size
  match c.stage with
  | .clearing => ({ c with stage := .gate .outside }, r.barrier, r.boxes.write core 0)
  | .gate .inside => (c.enterLap core r.laps, r.barrier, r.boxes)
  | .gate g =>
    let (g, b) := g.step (UInt64.ofNat r.cores.size) r.barrier
    ({ c with stage := .gate g }, b, r.boxes)
  | .launching =>
    ({ c with stage := .polling }, r.barrier, r.boxes.write next (r.token (c.laps - 1)))
  | .polling =>
    let token := r.boxes.peek core
    (if token = 0 then c else { c with stage := .emptying token, seen := token :: c.seen },
      r.barrier, r.boxes)
  | .emptying token =>
    ({ c with stage := if core = 0 then .gate .outside else .passing token }, r.barrier,
      r.boxes.write core 0)
  | .passing token =>
    ({ c with stage := .gate .outside }, r.barrier, r.boxes.write next (token + 1))
  | .ended => (c, r.barrier, r.boxes)

/-- One step of one core of a ring. -/
def Ring.step (core : Nat) (r : Ring) : Ring :=
  match r.cores[core]? with
  | none => r
  | some c =>
    let (c, barrier, boxes) := r.stepCore core c
    { r with barrier := barrier, boxes := boxes, cores := r.cores.setIfInBounds core c }

/-- Whether all cores have ended. -/
def Ring.over (r : Ring) : Bool := r.cores.all fun c => c.stage == .ended

/-- Runs a ring, all cores stepping in turn, for at most `fuel` turns. -/
def Ring.run (fuel : Nat) (r : Ring) : Option Ring :=
  iterate Ring.over (fun r => sweep Ring.step r.cores.size r) fuel r

end LatencyGauge
