/-
A primary core as a machine. It connects to its receiver if it has one, warms up, makes attempts
until its plan is satisfied, makes an unfiltered pass if one is asked for, and leaves; the last
primary to leave announces completion. Every step touches at most one shared word and takes at
most one reading. What the attempts amount to is counted as in `Measure`.
-/
import LatencyGauge.Host.Report
import LatencyGauge.Host.Shared
import LatencyGauge.Measure.Loop
import LatencyGauge.Sync.Exchange

namespace LatencyGauge

/-! ## Pages -/

/-- Taking a page and giving it back; the state tells whether the page is held. -/
def pages : Pair Bool where
  forward held := (if held then -1 else 0, true)
  reverse held := (if held then 0 else -1, false)

/-! ## Names -/

/-- A workload in the name of a measurement. -/
def Workload.label : Workload → String
  | .null => "null"
  | .spin _ => "spin"
  | .roundTrip => "round trip"
  | .response => "response"
  | .allocFree => "alloc"

/-- The name of a core's measurement. -/
def RunPlan.measurementName (p : RunPlan) (core : Nat) : String :=
  s!"core {core} {p.workload.label}"

/-- Whether a workload comes with its inverse. -/
def Workload.isPaired : Workload → Bool
  | .allocFree => true
  | _ => false

/-- Whether a plan asks for an unfiltered pass and its workload can make one; a pass over no windows
is none. -/
def RunPlan.wantsUnfiltered (p : RunPlan) : Bool :=
  p.unfiltered && !p.needsReceivers && !p.workload.isPaired && p.loop.samples != 0

/-- The link of a primary with its receiver. -/
def RunPlan.link (p : RunPlan) (sender : Nat) : Link :=
  ⟨sender, (UInt64.ofNat sender + p.signalOffset).toNat, p.payload⟩

/-! ## State -/

/-- What a primary does next. -/
inductive Duty where
  | connecting
  | choosing
  | clearing
  | requesting (r : Request)
  | opening
  | starting
  | working (start : Cycles)
  | exchanging (s : Sender)
  | settling
  | closing
  | restoring (v : Verdict)
  | recovering
  | averaging (start : Option Cycles)
  | leaving
  | announcing
  | ended
deriving DecidableEq, Repr

/-- A primary: what it does next, the windows of its warm-up that are left, the half that is
measured, what was counted, the tick before the window and the window of the attempt that is under
way, whether a page is held, the average of the unfiltered pass, and what went wrong. -/
structure Primary where
  duty : Duty
  warmups : Nat
  half : Half
  tally : PairTally
  before : Tick
  window : Window
  held : Bool
  unfiltered : Option Float
  fault : Option Fault

/-- A primary at the start of its work. -/
def Primary.start (p : RunPlan) : Primary where
  duty := if p.needsReceivers then .connecting else .choosing
  warmups := p.loop.warmup.toNat
  half := .forward
  tally := .start p.loop.baseline p.reverseBaseline
  before := 0
  window := ⟨0, 0, 0⟩
  held := false
  unfiltered := none
  fault := none

/-! ## Choices between steps -/

/-- Whether more attempts are to be made. -/
def Primary.goesOn (p : RunPlan) (x : Primary) : Bool :=
  if p.workload.isPaired then x.tally.goesOn p.loop else x.tally.forward.goesOn p.loop

/-- One warm-up call of both halves. -/
def Primary.warm (x : Primary) : Primary :=
  { x with warmups := x.warmups - 1, held := (pages.reverse (pages.forward x.held).2).2 }

/-- Begins the next window, or ends the loop. -/
def Primary.choose (p : RunPlan) (x : Primary) : Primary :=
  if 0 < x.warmups then
    if p.workload.isPaired then x.warm else { x with duty := .clearing }
  else if x.goesOn p then { x with duty := .clearing }
  else { x with duty := if p.wantsUnfiltered then .averaging none else .leaving }

/-- Where a window begins. -/
def RunPlan.windowDuty (p : RunPlan) : Duty :=
  if p.needsReceivers then .exchanging .starting else .starting

/-- What follows the preparations of a window; in the warm-up nobody looks at the tick. -/
def Primary.prepared (p : RunPlan) (x : Primary) : Primary :=
  { x with duty := if 0 < x.warmups then p.windowDuty else .opening }

/-- What follows a window; in the warm-up it is forgotten. -/
def Primary.windowed (w : Window) (x : Primary) : Primary :=
  if 0 < x.warmups then { x with warmups := x.warmups - 1, duty := .choosing }
  else { x with window := w, duty := .settling }

/-- The operation that is measured. -/
def Primary.operate (p : RunPlan) (x : Primary) : Code × Bool :=
  if p.workload.isPaired then
    match x.half with
    | .forward => pages.forward x.held
    | .reverse => pages.reverse x.held
  else (0, x.held)

/-- What follows a verdict when the state is as it should be. -/
def Verdict.duty : Verdict → Duty
  | .reject .tickChanged => .recovering
  | _ => .choosing

/-- Counts a sample of a single operation. -/
def Primary.judgeSingle (v : Verdict) (x : Primary) : Primary :=
  { x with tally := { x.tally with forward := x.tally.forward.take v }, duty := v.duty }

/-- Counts a sample of the forward half; one that was thrown away is undone. -/
def Primary.judgeForward (v : Verdict) (x : Primary) : Primary :=
  let t := { x.tally with forward := x.tally.forward.take v }
  match v with
  | .reject _ => { x with tally := t, duty := if x.window.code = 0 then .restoring v else v.duty }
  | .failed => { x with tally := { t with iterations := t.iterations + 1 }, duty := .choosing }
  | .accept _ => { x with tally := t, half := .reverse, duty := .opening }

/-- Counts a sample of the reverse half. -/
def Primary.judgeReverse (v : Verdict) (x : Primary) : Primary :=
  { x with
    tally := { x.tally with
      reverse := x.tally.reverse.take v
      iterations := x.tally.iterations + (if v.completes then 1 else 0) }
    half := .forward
    duty := v.duty }

/-- Counts the sample of an attempt. -/
def Primary.judge (p : RunPlan) (after : Tick) (x : Primary) : Primary :=
  let v := Sample.verdict ⟨x.window, x.before, after⟩ p.loop
  if p.workload.isPaired then
    match x.half with
    | .forward => x.judgeForward v
    | .reverse => x.judgeReverse v
  else x.judgeSingle v

/-! ## Steps -/

/-- One step of a primary. -/
def Primary.step (p : RunPlan) (core : Nat) (r : Reading) (x : Primary) (s : Shared) :
    Primary × Shared :=
  match x.duty with
  | .connecting =>
    match s.boxes.link core p.signalOffset p.payload with
    | .error f => ({ x with duty := .leaving, fault := some f }, s)
    | .ok l => (if s.boxes.flag l.receiver then { x with duty := .choosing } else x, s)
  | .choosing => (x.choose p, s)
  | .clearing =>
    if p.needsReceivers then
      let s := { s with boxes := s.boxes.write core 0 }
      if p.workload = .response then ({ x with duty := .requesting .starting }, s)
      else (x.prepared p, s)
    else (x.prepared p, s)
  | .requesting (.ended _) => (x.prepared p, s)
  | .requesting q =>
    let (q, h) := q.step s.handshake
    ({ x with duty := .requesting q }, { s with handshake := h })
  | .opening =>
    let (t, s) := s.observe p.marker r
    ({ x with before := t, duty := p.windowDuty }, s)
  | .starting => ({ x with duty := .working r.cycles }, s)
  | .working start =>
    let (code, held) := x.operate p
    (Primary.windowed ⟨start, r.cycles, code⟩ { x with held := held }, s)
  | .exchanging (.ended w) => (x.windowed w, s)
  | .exchanging q =>
    let (q, boxes) := q.step (p.link core) r.cycles s.boxes
    ({ x with duty := .exchanging q }, { s with boxes := boxes })
  | .settling => ({ x with duty := .closing }, s)
  | .closing =>
    let (t, s) := s.observe p.marker r
    (x.judge p t, s)
  | .restoring v => ({ x with held := (pages.reverse x.held).2, duty := v.duty }, s)
  | .recovering => ({ x with duty := .choosing }, s)
  | .averaging none => ({ x with duty := .averaging (some r.cycles) }, s)
  | .averaging (some start) =>
    let x := { x with unfiltered := some (average start r.cycles p.loop.samples.toNat) }
    ({ x with duty := .leaving }, s)
  | .leaving =>
    let (last, s) := s.leave
    ({ x with duty := if last then .announcing else .ended }, s)
  | .announcing => ({ x with duty := .ended }, s.complete)
  | .ended => (x, s)

/-- How long the next step of a primary waits. -/
def Primary.delay (p : RunPlan) (x : Primary) : Cycles :=
  match x.duty with
  | .settling => p.loop.settle
  | .recovering => p.loop.quiescence
  | _ => 0

/-! ## Results -/

/-- What a primary measured. -/
def Primary.measurement (p : RunPlan) (core : Nat) (x : Primary) : Measurement :=
  let name := p.measurementName core
  if p.workload.isPaired then .paired (x.tally.report name p.loop)
  else .single (x.tally.forward.report name p.loop x.tally.forward.completed) x.unfiltered

/-- What a primary produced. -/
def Primary.result (p : RunPlan) (core : Nat) (x : Primary) : Except Fault Outcome :=
  match x.fault with
  | some f => .error f
  | none => .ok (.measured (x.measurement p core))

end LatencyGauge
