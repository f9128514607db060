/-
The command line program: it reads the arguments, reads and writes the files, and prints. A run is
stepped here, all cores in turn, with readings of the system's monotonic clock in nanoseconds.
-/
import LatencyGauge.Cli.Program
import LatencyGauge.Host.Run

namespace LatencyGauge

/-! ## Files -/

/-- The faults that the system's error numbers stand for. -/
def FileFault.numbered : List (UInt32 × FileFault) :=
  [(2, .missing), (6, .noDevice), (13, .denied), (20, .notDirectory), (21, .directory),
    (28, .full), (36, .nameTooLong)]

/-- The fault of an error with a number, which may come negated, and a text. -/
def FileFault.ofNumber (number : UInt32) (text : String) : FileFault :=
  let number := min number (0 - number)
  (FileFault.numbered.lookup number).getD (.other s!"{text} (os error {number})")

/-- The fault behind an error of the system. -/
def FileFault.ofError : IO.Error → FileFault
  | .noFileOrDirectory _ number text => .ofNumber number text
  | .permissionDenied _ number text => .ofNumber number text
  | .inappropriateType _ number text => .ofNumber number text
  | .invalidArgument _ number text => .ofNumber number text
  | .resourceExhausted _ number text => .ofNumber number text
  | .noSuchThing _ number text => .ofNumber number text
  | .otherError number text => .ofNumber number text
  | e => .other (toString e)

/-- Reads a file. -/
def readFile (path : String) : IO (Except FileFault ByteArray) := do
  try
    return .ok (← IO.FS.readBinFile path)
  catch e =>
    return .error (.ofError e)

/-- Writes a file. -/
def writeFile (path text : String) : IO (Except FileFault Unit) := do
  try
    IO.FS.withFile path .write fun h => do
      h.putStr text
      h.flush
    return .ok ()
  catch e =>
    return .error (.ofError e)

/-! ## Runs -/

/-- A reading of the monotonic clock. -/
def readClock : IO Cycles := do
  return UInt64.ofNat (← IO.monoNanosNow)

/-- Waits until a clock reading is reached. -/
partial def waitUntil (reading : Cycles) : IO Unit := do
  if (← readClock) < reading then waitUntil reading

/-- Lets every core make a step. -/
def stepCores (m : Machine) : IO Machine := do
  let mut m := m
  for i in [0:m.cores.size] do
    let wait := ((m.cores[i]?).map (Position.delay m.plan)).getD 0
    if wait != 0 then waitUntil ((← readClock) + wait)
    m := m.stepCore i ⟨← readClock, 0⟩
  return m

/-- Steps a run to its end; the timer ticks when its period is over. -/
partial def stepAll (m : Machine) (lastTick : Cycles) : IO Machine := do
  if m.over then return m
  let m ← stepCores m
  let now ← readClock
  if m.timer.next = .sleeping then
    if now - lastTick < m.plan.tickPeriod * 1000 then stepAll m lastTick
    else stepAll m.stepTimer now
  else stepAll m.stepTimer lastTick

/-- The host that a run reports; threads are not pinned. -/
def thisHost : HostInfo := ⟨"monotonic", 1.0, fun _ => false⟩

/-! ## The program -/

/-- Says why the program gives up. -/
def giveUp (f : Failure) : IO UInt32 := do
  IO.eprintln f.message
  return f.code

/-- What the program says when it stops at its arguments. -/
def Stop.say : Stop → IO Unit
  | .usage => IO.eprintln "error: unusable arguments\n\nFor more information, try '--help'."
  | .help => IO.print helpText
  | .version => IO.print versionLine

/-- Carries out a task. -/
def perform : Task → IO UInt32
  | .save path text => do
    match ← writeFile path text with
    | .error f => giveUp (.unwritable path f)
    | .ok () =>
      IO.print (savedLine path)
      return 0
  | .run p json => do
    let m ← stepAll (.start p) (← readClock)
    match m.finish.report thisHost with
    | .error f => giveUp (.broken f)
    | .ok r =>
      let out ← IO.getStdout
      IO.print (runOutput json (← out.isTty) m.shared.lines.reverse r)
      return 0

/-- Does what the arguments say; the result is the exit code. -/
def runProgram (arguments : List String) : IO UInt32 := do
  let content ← match configNamed? arguments with
    | some path => readFile path
    | none => pure (.error .missing)
  match decision arguments fun _ => content with
  | .stop s =>
    s.say
    return s.code
  | .giveUp f => giveUp f
  | .work _ t => perform t

end LatencyGauge

/-- The program's entry. -/
def main (arguments : List String) : IO UInt32 := LatencyGauge.runProgram arguments
