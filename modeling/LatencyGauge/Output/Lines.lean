/-
Reports as plain lines: one about the run, then for every loop its summary, its rejections and its
cautions, and one for every core that answered, flushed or interfered.
-/
import LatencyGauge.Host.Report
import LatencyGauge.Number.Fixed

namespace LatencyGauge

open Number

/-! ## Lines of a loop -/

/-- The statistics of a loop in one line. -/
def LoopReport.summaryLine (r : LoopReport) : String :=
  match r.summary with
  | some s =>
    s!"{r.name}: avg {fixed 0 s.mean false}, max {s.max.toNat}, stddev^2 " ++
      s!"{fixed 0 s.variance false} ({s.count.toNat} samples, baseline {s.baseline.toNat})"
  | none => s!"{r.name}: no accepted samples in {r.attempts.toNat} attempts"

/-- The rejections of a loop in one line. -/
def LoopReport.rejectionLine (r : LoopReport) : String :=
  s!"{r.name}: {r.attempts.toNat} attempts, {r.rejected.total.toNat} rejected " ++
    s!"(tick {r.rejected.tickChanged.toNat}, failed {r.rejected.failed.toNat}, " ++
    s!"clock {r.rejected.clockAnomaly.toNat}, outlier {r.rejected.outlier.toNat}), " ++
    s!"{r.failed.toNat} failures counted"

/-- A caution of a loop in one line. -/
def LoopReport.cautionLine (r : LoopReport) (c : Caution) : String :=
  s!"{r.name}: warning: {c.message}"

/-- All lines of a loop. -/
def LoopReport.lines (r : LoopReport) : List String :=
  r.summaryLine :: r.rejectionLine :: r.cautions.map r.cautionLine

/-! ## Lines of a run -/

/-- The line of an unfiltered pass, if there was one. -/
def Measurement.unfilteredLines : Measurement → List String
  | .single report (some average) => [s!"{report.name}: unfiltered avg {fixed 0 average false}"]
  | .single _ none => []
  | .paired _ => []

/-- The lines of a core. -/
def CoreReport.lines (c : CoreReport) : List String :=
  match c.outcome with
  | .measured m => m.loops.flatMap LoopReport.lines ++ m.unfilteredLines
  | .served requests => [s!"core {c.core.toNat}: answered {requests.toNat} round trips"]
  | .flushed flushes => [s!"core {c.core.toNat}: {flushes.toNat} flushes"]
  | .interfered r =>
    [s!"core {c.core.toNat}: {r.finished.toNat} interference rounds, {r.failures.toNat} failed"]
  | .idle => []

/-- The line about a run as a whole. -/
def RunReport.headLine (r : RunReport) : String :=
  s!"{r.cores.length} cores, clock {r.clock} ({fixed 3 r.cyclesPerNs false} cycles/ns), " ++
    s!"{r.ticksFired.toNat} ticks"

/-- All lines of a run. -/
def RunReport.lines (r : RunReport) : List String :=
  r.headLine :: r.cores.flatMap CoreReport.lines

end LatencyGauge
