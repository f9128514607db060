/-
Command line options. Arguments are read from left to right; the first one that does not fit ends
the reading, and so does a request for help or for the version. No option is given twice, an option
with a value takes it from the same argument or from the next, and a next argument that starts with
a dash is no value, a lone dash apart.
-/
import LatencyGauge.Number.Digits
import LatencyGauge.Statistics.Totals

namespace LatencyGauge

open Number

/-! ## Options -/

/-- Options that take a value. -/
inductive Setting where
  | preset
  | config
  | cores
  | samples
  | maxAttempts
  | baseline
  | ceiling
  | tickPeriod
  | marker
  | saveTo
deriving DecidableEq, Repr

/-- Options that take none. -/
inductive Flag where
  | interfere
  | sentinel
  | unpinned
  | unfiltered
  | json
deriving DecidableEq, Repr

/-- What an option's name stands for. -/
inductive Switch where
  | setting (s : Setting)
  | flag (f : Flag)
  | help
  | version
deriving DecidableEq, Repr

/-- The options that were given. -/
structure Options where
  preset : Option String
  config : Option String
  cores : Option UInt64
  samples : Option UInt64
  maxAttempts : Option UInt64
  baseline : Option Cycles
  ceiling : Option Cycles
  tickPeriod : Option UInt64
  marker : Option String
  saveTo : Option String
  interfere : Bool
  sentinel : Bool
  unpinned : Bool
  unfiltered : Bool
  json : Bool
deriving DecidableEq, Repr

/-- No options. -/
def Options.empty : Options :=
  ⟨none, none, none, none, none, none, none, none, none, none,
    false, false, false, false, false⟩

/-! ## Names -/

/-- The long names. -/
def Switch.names : List (String × Switch) :=
  [("preset", .setting .preset), ("config", .setting .config), ("cores", .setting .cores),
    ("samples", .setting .samples), ("max-attempts", .setting .maxAttempts),
    ("baseline", .setting .baseline), ("ceiling", .setting .ceiling),
    ("tick-us", .setting .tickPeriod), ("interfere", .flag .interfere),
    ("sentinel", .flag .sentinel), ("marker", .setting .marker), ("no-pin", .flag .unpinned),
    ("unfiltered", .flag .unfiltered), ("json", .flag .json), ("save-config", .setting .saveTo),
    ("help", .help), ("version", .version)]

/-- The short names. -/
def Switch.letters : List (Char × Switch) :=
  [('p', .setting .preset), ('c', .setting .config), ('s', .setting .samples), ('h', .help),
    ('V', .version)]

/-! ## Values -/

/-- The number that digits spell, a plus sign before them being allowed; it has 64 bits. -/
def readCount (text : String) : Option UInt64 :=
  let digits := match text.toList with
    | '+' :: r => r
    | r => r
  match takeDigits digits with
  | ([], _) => none
  | (ds, []) => if spelled ds < Nat.pow 2 64 then some (UInt64.ofNat (spelled ds)) else none
  | _ => none

/-- A path; it is not empty. -/
def readPath (text : String) : Option String := if text.isEmpty then none else some text

/-- Fills a slot that is empty with a value that could be read. -/
def fillOnce {α : Type} (slot value : Option α) (store : Option α → Options) : Option Options :=
  match slot, value with
  | none, some v => some (store (some v))
  | _, _ => none

/-- Gives an option its value. -/
def Options.give (o : Options) (s : Setting) (text : String) : Option Options :=
  match s with
  | .preset => fillOnce o.preset (some text) fun v => { o with preset := v }
  | .config => fillOnce o.config (readPath text) fun v => { o with config := v }
  | .cores => fillOnce o.cores (readCount text) fun v => { o with cores := v }
  | .samples => fillOnce o.samples (readCount text) fun v => { o with samples := v }
  | .maxAttempts => fillOnce o.maxAttempts (readCount text) fun v => { o with maxAttempts := v }
  | .baseline => fillOnce o.baseline (readCount text) fun v => { o with baseline := v }
  | .ceiling => fillOnce o.ceiling (readCount text) fun v => { o with ceiling := v }
  | .tickPeriod => fillOnce o.tickPeriod (readCount text) fun v => { o with tickPeriod := v }
  | .marker => fillOnce o.marker (some text) fun v => { o with marker := v }
  | .saveTo => fillOnce o.saveTo (readPath text) fun v => { o with saveTo := v }

/-- Raises a flag, once. -/
def Options.raise (o : Options) : Flag → Option Options
  | .interfere => if o.interfere then none else some { o with interfere := true }
  | .sentinel => if o.sentinel then none else some { o with sentinel := true }
  | .unpinned => if o.unpinned then none else some { o with unpinned := true }
  | .unfiltered => if o.unfiltered then none else some { o with unfiltered := true }
  | .json => if o.json then none else some { o with json := true }

/-! ## Arguments -/

/-- Why reading ended before the last argument. -/
inductive Stop where
  | usage
  | help
  | version
deriving DecidableEq, Repr

/-- An argument on its own. -/
inductive Argument where
  | flag (f : Flag)
  | given (s : Setting) (text : String)
  | wanting (s : Setting)
  | terminator
  | stop (s : Stop)
deriving DecidableEq, Repr

/-- A switch that stands without a value. -/
def Switch.argument : Switch → Argument
  | .setting s => .wanting s
  | .flag f => .flag f
  | .help => .stop .help
  | .version => .stop .version

/-- A switch that stands with a value. -/
def Switch.given (text : List Char) : Switch → Argument
  | .setting s => .given s (String.ofList text)
  | _ => .stop .usage

/-- An argument after two dashes: a name, and a value after an equals sign. -/
def Argument.long (cs : List Char) : Argument :=
  match Switch.names.lookup (String.ofList (cs.takeWhile (· != '='))), cs.dropWhile (· != '=') with
  | none, _ => .stop .usage
  | some s, [] => s.argument
  | some s, _ :: text => s.given text

/-- An argument after a dash: a letter, and a value that may follow an equals sign. Help and the
version are granted whatever follows their letters. -/
def Argument.short (letter : Char) (rest : List Char) : Argument :=
  match Switch.letters.lookup letter, rest with
  | none, _ => .stop .usage
  | some s, [] => s.argument
  | some (.setting s), '=' :: text => (Switch.setting s).given text
  | some (.setting s), text => (Switch.setting s).given text
  | some s, _ => s.argument

/-- An argument that is not the value of the one before. -/
def Argument.read (text : String) : Argument :=
  match text.toList with
  | ['-', '-'] => .terminator
  | '-' :: '-' :: cs => .long cs
  | '-' :: c :: cs => .short c cs
  | _ => .stop .usage

/-- Whether an argument can be the value of the one before. -/
def isValue (text : String) : Bool :=
  match text.toList with
  | '-' :: _ :: _ => false
  | _ => true

/-- Goes on with options unless there are none to go on with. -/
def orUsage : Option Options → Except Stop Options
  | some o => .ok o
  | none => .error .usage

/-- Reads arguments, with the options that were given before them. Nothing may follow a
terminator. -/
def Options.readFrom : List String → Options → Except Stop Options
  | [], o => .ok o
  | text :: rest, o =>
    match Argument.read text with
    | .stop s => .error s
    | .terminator => if rest.isEmpty then .ok o else .error .usage
    | .flag f => (orUsage (o.raise f)).bind (Options.readFrom rest)
    | .given s value => (orUsage (o.give s value)).bind (Options.readFrom rest)
    | .wanting s =>
      match rest with
      | [] => .error .usage
      | value :: rest =>
        if isValue value then (orUsage (o.give s value)).bind (Options.readFrom rest)
        else .error .usage

/-- Reads the arguments of a program. -/
def Options.read (arguments : List String) : Except Stop Options :=
  Options.readFrom arguments .empty

end LatencyGauge
