import PixieSdk.Error
import PixieSdk.Json
import PixieSdk.Param
import PixieSdk.Module
import PixieSdk.Crate.State
import PixieSdk.Crate.Workers
import PixieSdk.Crate.Initialize
import PixieSdk.Crate.Enumeration
import PixieSdk.Config.Import
import PixieSdk.Crate.Lifecycle
import PixieSdk.Crate.Invariants
import PixieSdk.Crate.RestartLoops
import PixieSdk.Config.Export
import PixieSdk.Config.RoundTrip
import PixieSdk.Crate.Concurrency
import PixieSdk.Afe.Arith
import PixieSdk.Afe.Baseline
import PixieSdk.Afe.LinearFit
import PixieSdk.Afe.State
import PixieSdk.Afe.Fixture
import PixieSdk.Afe.Boot
import PixieSdk.Afe.AdjustOffsets
import PixieSdk.Afe.Db04
import PixieSdk.Afe.Acquire
import PixieSdk.Afe.FlatTraces
import PixieSdk.Afe.SwapDetection
import PixieSdk.Sim.ModuleDefs
import PixieSdk.Sim.VarDefaults
import PixieSdk.Sim.Lifecycle
