import LocalPlatform.Accounts.CostBasisAgreement
import LocalPlatform.Paper.SettlementSafety
import LocalPlatform.Accounts.DeploymentProgress
import LocalPlatform.Scheduler.OrphanRecovery
import LocalPlatform.Experiments.Summary
import LocalPlatform.Experiments.DispatchBound
import LocalPlatform.Market.Calendar
import LocalPlatform.Backtest.Gates
import LocalPlatform.Backtest.Terminal
import LocalPlatform.Scheduler.LeaseBound
import LocalPlatform.Api.AtMostOnce
import LocalPlatform.Broker.Replay
import LocalPlatform.Broker.Economics
import LocalPlatform.Objects.Immutability
import LocalPlatform.Universe.ImportPaths
import LocalPlatform.Ml.WalkForward
import LocalPlatform.Backtest.Holdings
import LocalPlatform.Market.RateLimit
import LocalPlatform.Futures.Continuous
import LocalPlatform.Strategies.PaperValidated
import LocalPlatform.Alerts.Episodes
import LocalPlatform.DataFiles.RoundTrip
import LocalPlatform.DataFiles.FactorMeaning
import LocalPlatform.Releases.Publication
import LocalPlatform.Certification.ChangedLake
import LocalPlatform.Derived.Completeness
import LocalPlatform.DataSync.Fencing
import LocalPlatform.DataSync.OneActive
import LocalPlatform.DataSync.Coverage
import LocalPlatform.DataSync.Completion
import LocalPlatform.Universe.Snapshots
import LocalPlatform.Experiments.Leakage
import LocalPlatform.Research.Absorption
import LocalPlatform.Experiments.ExactProduct
import LocalPlatform.Artifacts.PromotionRuns
import LocalPlatform.Backtest.Revalidation
import LocalPlatform.Tasks.Logs
import LocalPlatform.Instruments.ContractIds
import LocalPlatform.Research.GapFeatures
import LocalPlatform.Strategies.PullbackSnapshot
import LocalPlatform.Research.FactorPortfolio
import LocalPlatform.Artifacts.TargetPortfolio
import LocalPlatform.Market.BoundedReads
import LocalPlatform.Market.ScopeRoots
import LocalPlatform.DataSync.RawRecords
import LocalPlatform.Market.BasicPreview
import LocalPlatform.Backtest.CanonicalResult
