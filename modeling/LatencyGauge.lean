import LatencyGauge.Cli.Program
import LatencyGauge.Clock.Wait
import LatencyGauge.Host.Placement
import LatencyGauge.Host.Run
import LatencyGauge.Main
import LatencyGauge.Measure.Logged
import LatencyGauge.Number.Hexadecimal
import LatencyGauge.Proofs.Host.Layout
import LatencyGauge.Proofs.Host.Losses
import LatencyGauge.Proofs.Iteration
import LatencyGauge.Proofs.Measure.Probe
import LatencyGauge.Proofs.Measure.Stuck
import LatencyGauge.Proofs.Plan.RoundTrip
import LatencyGauge.Proofs.Statistics.Exact
import LatencyGauge.Proofs.Sync.LockStep
import LatencyGauge.Proofs.Sync.RoundTrips
import LatencyGauge.Proofs.Sync.Rounds
import LatencyGauge.Simulate.Feed
import LatencyGauge.Simulate.Synthetic
import LatencyGauge.Sync.Ring
import LatencyGauge.Proofs.Json.Kept
import LatencyGauge.Proofs.Output.RoundTrip
import LatencyGauge.Proofs.Statistics.Spread
import LatencyGauge.Proofs.Json.Members
import LatencyGauge.Proofs.Plan.Spellings
import LatencyGauge.Proofs.Measure.Budget
import LatencyGauge.Proofs.Measure.Trial
import LatencyGauge.Proofs.Measure.Conservation
import LatencyGauge.Proofs.Measure.Epoch
import LatencyGauge.Proofs.Measure.Interrupts
import LatencyGauge.Proofs.Measure.Staged
import LatencyGauge.Proofs.Tick.Observation
import LatencyGauge.Proofs.Tick.Detection
import LatencyGauge.Proofs.Sync.Background
import LatencyGauge.Proofs.Sync.Pigeonholes
import LatencyGauge.Proofs.Host.Reports
import LatencyGauge.Proofs.Clock.Waits
import LatencyGauge.Proofs.Plan.Settings
import LatencyGauge.Proofs.Output.Colour
import LatencyGauge.Proofs.Cli.Effective
import LatencyGauge.Proofs.Host.Shares
