/-
Reports for a terminal. The text is made of fragments, some of which have a style; with colour a
styled fragment is put between the sequence that opens its style and the reset, without colour it
is plain.
-/
import LatencyGauge.Host.Report
import LatencyGauge.Number.Fixed

namespace LatencyGauge

open Number

/-! ## Styles -/

/-- How a fragment looks. -/
inductive Style where
  | bold
  | dimmed
  | green
  | yellow
  | boldRed
  | boldYellow
deriving DecidableEq, Repr

/-- The codes of a style. -/
def Style.codes : Style → String
  | .bold => "1"
  | .dimmed => "2"
  | .green => "32"
  | .yellow => "33"
  | .boldRed => "1;31"
  | .boldYellow => "1;33"

/-- The sequence that opens a style. -/
def Style.opening (s : Style) : List Char := ('\x1b' :: '[' :: s.codes.toList) ++ ['m']

/-- The sequence that ends every style. -/
def reset : List Char := ['\x1b', '[', '0', 'm']

/-- A text with an opening sequence repeated after every reset inside it. -/
def reopened (opening : List Char) : List Char → List Char
  | '\x1b' :: '[' :: '0' :: 'm' :: r => reset ++ opening ++ reopened opening r
  | c :: r => c :: reopened opening r
  | [] => []

/-- A text in a style. -/
def Style.wrap (s : Style) (text : List Char) : List Char :=
  s.opening ++ reopened s.opening text ++ reset

/-! ## Fragments -/

/-- A piece of text, with a style or without. -/
structure Fragment where
  style : Option Style
  text : String
deriving DecidableEq, Repr

/-- A plain piece. -/
def plain (text : String) : Fragment := ⟨none, text⟩

/-- A styled piece. -/
def styled (s : Style) (text : String) : Fragment := ⟨some s, text⟩

/-- A fragment as text, in colour or not. -/
def Fragment.chars (colour : Bool) (f : Fragment) : List Char :=
  match f.style with
  | some s => if colour then s.wrap f.text.toList else f.text.toList
  | none => f.text.toList

/-- Fragments one after the other. -/
def render (colour : Bool) (fs : List Fragment) : String :=
  String.ofList (fs.flatMap (Fragment.chars colour))

/-! ## A run in fragments -/

/-- The fragments of a loop's statistics. -/
def Summary.fragments (s : Summary) (cyclesPerNs : Float) : List Fragment :=
  [plain "  mean     ", styled .green (fixed 0 s.mean false),
    plain s!" cycles ({fixed 1 (s.mean / cyclesPerNs) false} ns)\n",
    plain s!"  max      {s.max.toNat} cycles\n",
    plain (s!"  stddev   {fixed 1 s.deviation false} cycles from baseline " ++
      s!"{s.baseline.toNat}\n"),
    plain s!"  samples  {s.count.toNat}\n"]

/-- The fragments of a caution. -/
def Caution.fragments (c : Caution) : List Fragment :=
  [plain "  ", styled .boldYellow "\u26a0", plain " ", styled .yellow c.message, plain "\n"]

/-- The fragments of a loop. -/
def LoopReport.fragments (r : LoopReport) (cyclesPerNs : Float) : List Fragment :=
  [plain "\n", styled .bold r.name, plain "\n"] ++
    (match r.summary with
      | some s => s.fragments cyclesPerNs
      | none => [plain "  ", styled .boldRed "no accepted samples", plain "\n"]) ++
    (if 0 < r.rejected.total then
      [plain "  rejected ", styled .yellow (toString r.rejected.total.toNat),
        plain s!" of {r.attempts.toNat} attempts\n"]
    else []) ++
    r.cautions.flatMap Caution.fragments

/-- The fragments of a measurement. -/
def Measurement.fragments (m : Measurement) (cyclesPerNs : Float) : List Fragment :=
  m.loops.flatMap (LoopReport.fragments · cyclesPerNs) ++
    (match m.unfiltered? with
      | some average => [styled .dimmed s!"  unfiltered {fixed 0 average false} cycles\n"]
      | none => [])

/-- The fragments of a run. -/
def RunReport.fragments (r : RunReport) : List Fragment :=
  [styled .bold "tickgate",
    plain (s!" {r.cores.length} cores, {r.clock} at " ++
      s!"{fixed 3 r.cyclesPerNs false} cycles/ns\n")] ++
    r.measurements.flatMap fun (_, m) => m.fragments r.cyclesPerNs

/-- A run for a terminal, in colour or not. -/
def RunReport.terminal (r : RunReport) (colour : Bool) : String := render colour r.fragments

end LatencyGauge
