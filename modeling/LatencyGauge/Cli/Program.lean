/-
What the command line program does with its arguments. The effective plan is that of the file, or
else of the preset, with the options' overrides, and it is checked before anything is saved or run.
Reading files, writing them and running belong to the caller.
-/
import LatencyGauge.Cli.Options
import LatencyGauge.Output.Json
import LatencyGauge.Output.Lines
import LatencyGauge.Output.Styled
import LatencyGauge.Plan.Json

namespace LatencyGauge

/-! ## Presets -/

/-- A preset of the program. -/
inductive RunPreset where
  | null
  | spin
  | roundTrip
  | response
  | alloc
deriving DecidableEq, Repr

/-- The plan of a preset. -/
def RunPreset.plan : RunPreset → RunPlan
  | .null => { RunPlan.standard with cores := 1, workload := .null }
  | .spin => { RunPlan.standard with cores := 1, workload := .spin 100 }
  | .roundTrip =>
    { RunPlan.standard with cores := 2, workload := .roundTrip, loop := LoopPreset.ipi.plan }
  | .response =>
    { RunPlan.standard with
      cores := 4
      workload := .response
      background := .interfere
      loop := LoopPreset.response.plan }
  | .alloc =>
    { RunPlan.standard with
      cores := 1
      workload := .allocFree
      loop := LoopPreset.memMap.plan
      reverseBaseline := 3248 }

/-- The names of the presets. -/
def RunPreset.names : List (String × RunPreset) :=
  [("null", .null), ("spin", .spin), ("roundtrip", .roundTrip), ("ipi", .roundTrip),
    ("response", .response), ("alloc", .alloc), ("alloc-free", .alloc)]

/-- The preset of a name, in capital or small letters. -/
def RunPreset.named? (name : String) : Option RunPreset :=
  RunPreset.names.lookup (String.ofList (name.toList.map Char.toLower))

/-- The preset that is used when none is named. -/
def RunPreset.usual : String := "roundtrip"

/-! ## Failures -/

/-- Why the program gives up. -/
inductive Failure where
  | unreadable (path : String) (f : Fault)
  | unknownPreset (name : String)
  | invalid (v : Violation)
  | unwritable (path : String) (f : FileFault)
  | broken (f : Fault)
deriving DecidableEq, Repr

/-- A failure in words. -/
def Failure.message : Failure → String
  | .unreadable path f => s!"Cannot load {path}: {f.message}"
  | .unknownPreset name =>
    s!"Unknown preset '{name}'. Available: null, spin, roundtrip, response, alloc"
  | .invalid v => Fault.message (.invalidPlan v)
  | .unwritable path f => s!"Cannot write {path}: {Fault.message (.file f)}"
  | .broken f => s!"Run failed: {f.message}"

/-! ## The effective plan -/

/-- The plan that options start from. -/
def Options.base (o : Options) (readFile : String → Except FileFault ByteArray) :
    Except Failure RunPlan :=
  match o.config with
  | some path =>
    match RunPlan.ofFile (readFile path) with
    | .ok p => .ok p
    | .error f => .error (.unreadable path f)
  | none =>
    let name := o.preset.getD RunPreset.usual
    match RunPreset.named? name with
    | some preset => .ok preset.plan
    | none => .error (.unknownPreset name)

/-- A loop plan with the overrides of options. -/
def Options.overrideLoop (o : Options) (p : LoopPlan) : LoopPlan :=
  { p with
    samples := o.samples.getD p.samples
    maxAttempts := o.maxAttempts.or p.maxAttempts
    baseline := o.baseline.getD p.baseline
    ceiling := o.ceiling.getD p.ceiling }

/-- A run plan with the overrides of options. -/
def Options.override (o : Options) (p : RunPlan) : RunPlan :=
  { p with
    cores := o.cores.getD p.cores
    loop := o.overrideLoop p.loop
    tickPeriod := o.tickPeriod.getD p.tickPeriod
    background := if o.interfere then .interfere else p.background
    payload := if o.sentinel then .sentinel else p.payload
    marker := o.marker.or p.marker
    pinned := p.pinned && !o.unpinned
    unfiltered := p.unfiltered || o.unfiltered }

/-- The plan that options amount to, if it breaks no rule. -/
def Options.plan (o : Options) (readFile : String → Except FileFault ByteArray) :
    Except Failure RunPlan := do
  let p := o.override (← o.base readFile)
  match p.check with
  | .ok () => .ok p
  | .error v => .error (.invalid v)

/-! ## Tasks -/

/-- What is left to do once the plan is known. -/
inductive Task where
  | save (path text : String)
  | run (p : RunPlan) (json : Bool)

/-- The task of a plan under options. -/
def Options.task (o : Options) (p : RunPlan) : Task :=
  match o.saveTo with
  | some path => .save path p.text
  | none => .run p o.json

/-! ## Decisions -/

/-- The exit code of a program that stops at its arguments. -/
def Stop.code : Stop → UInt32
  | .usage => 2
  | .help | .version => 0

/-- The exit code of a program that gives up. -/
def Failure.code (_ : Failure) : UInt32 := 1

/-- What the program decides to do: nothing but say something, or the task of its effective plan. -/
inductive Decision where
  | stop (s : Stop)
  | giveUp (f : Failure)
  | work (p : RunPlan) (t : Task)

/-- The program's decision about its arguments and the files that it can read. -/
def decision (arguments : List String) (readFile : String → Except FileFault ByteArray) :
    Decision :=
  match Options.read arguments with
  | .error s => .stop s
  | .ok o =>
    match o.plan readFile with
    | .error f => .giveUp f
    | .ok p => .work p (o.task p)

/-- The file that arguments name, if they can be read and name one. -/
def configNamed? (arguments : List String) : Option String :=
  match Options.read arguments with
  | .error _ => none
  | .ok o => o.config

/-- What is printed once a plan is saved. -/
def savedLine (path : String) : String := s!"Configuration written to {path}\n"

/-- Lines, each with its end. -/
def unlines (lines : List String) : String := String.join (lines.map (· ++ "\n"))

/-- What a run prints: its report as JSON; or what it sent to the sink, the report in lines and,
after an empty line, the report for a terminal. -/
def runOutput (json colour : Bool) (sent : List String) (r : RunReport) : String :=
  if json then r.text ++ "\n" else unlines (sent ++ r.lines) ++ "\n" ++ r.terminal colour

/-! ## Help -/

/-- The name and the number of the program. -/
def versionLine : String := "llping 0.1.0\n"

/-- An option in the help text, with its description in a column of its own. -/
def helpLine (spelling description : String) : String :=
  String.ofList
    ((spelling.toList ++ List.replicate (37 - spelling.length) ' ') ++ description.toList)

/-- The help text. -/
def helpText : String :=
  unlines [
    "Measure operation latency with interrupt-contaminated samples filtered out",
    "",
    "Usage: llping [OPTIONS]",
    "",
    "Options:",
    helpLine "  -p, --preset <PRESET>"
      "Preset: null, spin, roundtrip, response, alloc [default: roundtrip]",
    helpLine "  -c, --config <CONFIG>" "JSON configuration file (overrides the preset)",
    helpLine "      --cores <CORES>" "Participating cores",
    helpLine "  -s, --samples <SAMPLES>" "Completed iterations per test",
    helpLine "      --max-attempts <MAX_ATTEMPTS>"
      "Upper bound on attempts, including rejected ones",
    helpLine "      --baseline <BASELINE>" "A-priori expected mean in cycles",
    helpLine "      --ceiling <CEILING>" "Reject samples above this many cycles",
    helpLine "      --tick-us <TICK_US>" "Emulated timer period in microseconds (0 disables)",
    helpLine "      --interfere" "Run interference on every spare core",
    helpLine "      --sentinel"
      "Treat the receiver reply as an opaque sentinel instead of a timestamp",
    helpLine "      --marker <MARKER>" "Text emitted at every flush point",
    helpLine "      --no-pin" "Do not pin threads to CPUs",
    helpLine "      --unfiltered" "Also report the unfiltered average",
    helpLine "      --json" "Print the report as JSON",
    helpLine "      --save-config <SAVE_CONFIG>"
      "Write the effective configuration to this path and exit",
    helpLine "  -h, --help" "Print help",
    helpLine "  -V, --version" "Print version"]

end LatencyGauge
