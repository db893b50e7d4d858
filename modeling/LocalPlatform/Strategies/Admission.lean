import LocalPlatform.Lib.Machine
import LocalPlatform.Lib.Rows
import LocalPlatform.Paper.Values
import Mathlib.Algebra.Order.Field.Rat
import Mathlib.Data.String.Basic

/-!
# Strategy admission

A strategy is admitted for a set of parameters and a profile in three steps: `register_baseline`
records trusted runs, `evaluate_admission` compares later runs with them, and
`validate_paper_stage` adds a stopped Paper session.

* `Evidence` is what the three calls read: the runs, the sessions with their reports, and the
  templates.  The digest of the compact text of a parameter set is a function of it.
* `loadRuns` are the checks of the runs, and `evaluationOf` the gates of an evaluation.
* `registerBaseline`, `evaluateAdmission` and `validatePaperStage` are the calls.  A call that
  raises leaves the tables as they are.
* The metrics of a run are those that `normalize_metrics` reads from its result; numbers are exact.
-/

namespace LocalPlatform.Strategies

open Machines Tables
open Paper (strip)

/-! ## Parameters -/

/-- A JSON value; numbers, lists and objects by their text. -/
inductive Value where
  | null
  | bool (value : Bool)
  | number (text : String) (isZero : Bool)
  | text (value : String)
  | other (text : String) (isEmpty : Bool)
  deriving DecidableEq

def Value.truthy : Value → Bool
  | .null => false
  | .bool value => value
  | .number _ isZero => !isZero
  | .text value => value != ""
  | .other _ isEmpty => !isEmpty

def Value.str : Value → String
  | .null => "None"
  | .bool value => if value then "True" else "False"
  | .number digits _ => digits
  | .text value => value
  | .other json _ => json

abbrev Parameters := List (String × Value)

/-- `parameters.get(key)`, where it is true. -/
def Parameters.given (parameters : Parameters) (key : String) : Option Value :=
  (parameters.lookup key).filter Value.truthy

/-- `_SCOPE_PARAMETERS` -/
def scopeParameters : List String :=
  ["ticker", "symbol", "start", "end", "dockerImage", "benchmarkSymbol", "assetClass", "market",
    "venue", "resolution", "dataType", "source", "provider", "providerSource", "initialCash",
    "initial_cash", "cash", "name", "projectId", "ashareStatusFile", "strategySnapshotDir",
    "strategySnapshotMainFile", "strategySnapshotAlgorithmClass", "strategySnapshotLanguage",
    "datasetVersion", "datasetCertified", "datasetProduction", "datasetEnvironment",
    "datasetQaStatus", "datasetQaReportId", "allowResearchSource", "preflight",
    "strategyTemplateKey", "strategyMode", "researchOnly", "tradable", "admissionEligible",
    "trendPullbackInputFile", "trendPullbackInputSha256", "trendPullbackInputSchemaVersion",
    "trendPullbackInputCoverage", "ashareNextOpenFillModel"]

/-- `parameters.setdefault(key, value)` -/
def Parameters.setDefault (parameters : Parameters) (key : String) (value : Value) : Parameters :=
  if (parameters.lookup key).isSome then parameters else parameters ++ [(key, value)]

/-- The parameters of a strategy, as they are digested. -/
def strategyParameters (parameters : Parameters) : Parameters :=
  let own : Parameters := parameters.filter (fun entry => entry.1 ∉ scopeParameters)
  orderBy Prod.fst
    ((own.setDefault "feeModel" (.text "default")).setDefault "slippageModel" (.text "default"))

/-! ## Runs, sessions and profiles -/

inductive Metric where
  | cumReturn
  | annReturn
  | sharpe
  | mdd
  | calmar
  | winRate
  | profitFactor
  | expectancy
  | trades
  deriving DecidableEq

def Metric.key : Metric → String
  | .cumReturn => "cum_return"
  | .annReturn => "ann_return"
  | .sharpe => "sharpe"
  | .mdd => "mdd"
  | .calmar => "calmar"
  | .winRate => "win_rate"
  | .profitFactor => "profit_factor"
  | .expectancy => "expectancy"
  | .trades => "trades"

abbrev Metrics := Metric → Option ℚ

structure RunGate where
  name : String
  passed : Bool
  deriving DecidableEq

/-- A backtest run with its result, its experiment and the template of its project. -/
structure RunRow where
  id : String
  projectId : Option String
  status : String
  parameters : Parameters
  hasMetrics : Bool
  metrics : Metrics
  validationPassed : Bool
  gates : List RunGate
  strategyVersionId : Option String
  projectTemplateKey : Option Value

structure Report where
  tradeDate : String
  severity : Option String
  status : Option String
  passed : Option Bool
  deriving DecidableEq

structure PaperSession where
  projectId : Option String
  status : String
  parameters : Parameters
  sourceBacktestId : Option String
  strategyVersionId : Option String
  reports : List Report

structure Template where
  admissionEligible : Option Bool
  strategyMode : Option String
  requiredAdmissionGates : List String
  deriving DecidableEq

/-- What the calls read. -/
structure Evidence where
  runs : String → Option RunRow
  sessions : String → Option PaperSession
  templates : String → Option Template
  sha256 : Parameters → String

/-- `parameters_sha256` -/
def Evidence.parametersSha256 (evidence : Evidence) (parameters : Parameters) : String :=
  evidence.sha256 (strategyParameters parameters)

inductive Severity where
  | required
  | warning
  deriving DecidableEq

structure Tolerance where
  metric : Metric
  absolute : ℚ
  relative : ℚ
  severity : Severity
  deriving DecidableEq

structure AdmissionProfile where
  minSharpe : ℚ
  maxMdd : ℚ
  minCalmar : ℚ
  minTrades : ℚ
  minProfitFactor : ℚ
  minWinRate : ℚ
  tolerances : List Tolerance
  deriving DecidableEq

def standard : AdmissionProfile :=
  { minSharpe := 20 / 100
    maxMdd := 35 / 100
    minCalmar := 15 / 100
    minTrades := 3
    minProfitFactor := 1
    minWinRate := 40 / 100
    tolerances :=
      [⟨.cumReturn, 8 / 100, 25 / 100, .required⟩, ⟨.sharpe, 35 / 100, 35 / 100, .required⟩,
        ⟨.mdd, 6 / 100, 30 / 100, .required⟩, ⟨.trades, 8, 50 / 100, .warning⟩] }

def institutional : AdmissionProfile :=
  { minSharpe := 35 / 100
    maxMdd := 25 / 100
    minCalmar := 25 / 100
    minTrades := 5
    minProfitFactor := 105 / 100
    minWinRate := 45 / 100
    tolerances :=
      [⟨.cumReturn, 5 / 100, 20 / 100, .required⟩, ⟨.sharpe, 25 / 100, 25 / 100, .required⟩,
        ⟨.mdd, 4 / 100, 20 / 100, .required⟩, ⟨.trades, 5, 35 / 100, .warning⟩,
        ⟨.profitFactor, 20 / 100, 20 / 100, .warning⟩] }

/-- `PROFILES` -/
def profileOf (name : String) : Except String AdmissionProfile :=
  if name = "standard" then .ok standard
  else if name = "institutional" then .ok institutional
  else .error ("Unknown admission profile: " ++ name)

/-! ## The runs of a call -/

def requiredRegimes : List String := ["bull", "bear", "range", "high-vol"]

section Load

variable (evidence : Evidence)

/-- `_load_run` -/
def loadRun (strategyId runId : String) : Except String RunRow :=
  match evidence.runs runId with
  | none => .error ("Backtest run not found: " ++ runId)
  | some run =>
    if run.projectId ≠ some strategyId then
      .error ("Backtest run " ++ runId ++ " does not belong to strategy " ++ strategyId ++ ".")
    else if run.status ∉ ["success", "succeeded"] then
      .error ("Backtest run " ++ runId ++ " is not successful.")
    else if ¬ run.hasMetrics then
      .error ("Backtest run " ++ runId ++ " has no persisted result metrics.")
    else .ok run

def templateKey (run : RunRow) : String :=
  (((Parameters.given run.parameters "strategyTemplateKey").or
    (run.projectTemplateKey.filter Value.truthy)).map (fun value => strip value.str)).getD ""

/-- The gates of a template that a run has not passed. -/
def missingGates (template : Template) (run : RunRow) : List String :=
  (template.requiredAdmissionGates.filter (fun name => name ≠ "" ∧
    -- a later gate of a name overwrites an earlier one
    ¬ (((run.gates.filter (fun gate => gate.name = name)).getLast?).any RunGate.passed))).dedup

/-- `_assert_admission_eligible` for one run -/
def assertEligible (run : RunRow) : Except String Unit :=
  let key := templateKey run
  if run.parameters.lookup "admissionEligible" = some (.bool false) then
    let mode := ((Parameters.given run.parameters "strategyMode").map Value.str).getD
      (if key = "" then "unknown" else key)
    .error ("Strategy run " ++ run.id ++ " (" ++ mode ++
      ") is research-only and cannot enter strategy admission.")
  else if key = "" then .ok ()
  else
    match evidence.templates key with
    | none => .ok ()
    | some template =>
      if template.admissionEligible = some false then
        .error ("Strategy template " ++ key ++ " (" ++
          ((template.strategyMode.filter (· ≠ "")).getD key) ++
          ") is research-only and cannot enter strategy admission.")
      else if missingGates template run ≠ [] then
        .error ("Strategy template " ++ key ++ " is missing required admission execution gates: " ++
          String.intercalate ", " (orderBy id (missingGates template run)))
      else .ok ()

abbrev Regimes := List (String × String)

def hasRegime (regimes : Regimes) (runId : String) : Bool :=
  (regimes.lookup runId).any (fun regime => regime ∈ requiredRegimes ++ ["mixed"])

def missingRegimes (runIds : List String) (regimes : Regimes) : List String :=
  requiredRegimes.filter (fun regime => runIds.all (fun runId => regimes.lookup runId ≠ some regime))

def runHash (run : RunRow) : String := evidence.parametersSha256 run.parameters

/-- `_load_runs` -/
def loadRuns (strategyId : String) (runIds : List String) (regimes : Regimes) :
    Except String (List RunRow) :=
  if runIds = [] then .error "At least one completed run is required."
  else if ¬ runIds.Nodup then .error "runIds must be unique."
  else if runIds.filter (fun runId => ¬ hasRegime regimes runId) ≠ [] then
    .error ("Every run must have a valid regime: " ++
      String.intercalate ", " (runIds.filter (fun runId => ¬ hasRegime regimes runId)))
  else if missingRegimes runIds regimes ≠ [] then
    .error ("Missing required regimes: " ++
      String.intercalate ", " (orderBy id (missingRegimes runIds regimes)))
  else
    (runIds.mapM (loadRun evidence strategyId)).bind fun runs =>
      (runs.mapM (assertEligible evidence)).bind fun _ =>
        if runs.any (fun run => run.strategyVersionId.all (· = "")) then
          .error "Every admission run must have a persisted strategy version."
        else if (runs.map RunRow.strategyVersionId).dedup.length ≠ 1 then
          .error "All admission runs must use the same strategy version."
        else if (runs.map (runHash evidence)).dedup.length ≠ 1 then
          .error "All admission runs must use the same strategy parameter set."
        else .ok runs

end Load

/-! ## Snapshots and evaluations -/

structure RunSnapshot where
  runId : String
  regime : Option String
  metrics : Metrics
  validationPassed : Bool

/-- `_run_snapshot` -/
def runSnapshot (regimes : Regimes) (run : RunRow) : RunSnapshot :=
  { runId := run.id
    regime := regimes.lookup run.id
    metrics := run.metrics
    validationPassed := run.validationPassed }

def mean (values : List ℚ) : Option ℚ :=
  if values = [] then none else some (values.sum / values.length)

/-- `_aggregate` -/
def aggregate (runs : List RunSnapshot) : Metrics := fun metric =>
  let values := runs.filterMap (fun run => run.metrics metric)
  match metric with
  | .mdd => values.max?
  | .trades => some values.sum
  | _ => mean values

structure Snapshot where
  sampleSet : String
  runs : List RunSnapshot
  aggregate : Metrics

structure Gate where
  name : String
  severity : Severity
  passed : Bool
  deriving DecidableEq

inductive Verdict where
  | pass
  | watch
  | fail
  deriving DecidableEq

inductive Stage where
  | baselineRegistered
  | admissionPassed
  | paperValidated
  deriving DecidableEq

structure Evaluation where
  status : Verdict
  runs : List RunSnapshot
  aggregate : Metrics
  gates : List Gate

def thresholdGate (name : String) (passed : Bool) : Gate :=
  { name := name, severity := .required, passed := passed }

def atLeast (actual : Option ℚ) (bound : ℚ) : Bool := actual.any (fun value => bound ≤ value)

def atMost (actual : Option ℚ) (bound : ℚ) : Bool := actual.any (fun value => value ≤ bound)

/-- `_regression_gates` for one metric -/
def regressionGate (actual baseline : Metrics) (tolerance : Tolerance) : Gate :=
  { name := "baseline_drift:" ++ tolerance.metric.key
    severity := tolerance.severity
    passed :=
      match actual tolerance.metric, baseline tolerance.metric with
      | some current, some expected =>
        decide (|current - expected| ≤ max tolerance.absolute (|expected| * tolerance.relative))
      | _, _ => false }

def gatesOf (profile : AdmissionProfile) (baseline : Metrics) (runs : List RunSnapshot) :
    List Gate :=
  let actual := aggregate runs
  [thresholdGate "trusted_backtests" (runs.all RunSnapshot.validationPassed),
    thresholdGate "min_sharpe" (atLeast (actual .sharpe) profile.minSharpe),
    thresholdGate "max_drawdown" (atMost (actual .mdd) profile.maxMdd),
    thresholdGate "min_calmar" (atLeast (actual .calmar) profile.minCalmar),
    thresholdGate "min_trades" (atLeast (actual .trades) profile.minTrades),
    thresholdGate "min_profit_factor" (atLeast (actual .profitFactor) profile.minProfitFactor),
    thresholdGate "min_win_rate" (atLeast (actual .winRate) profile.minWinRate)] ++
    profile.tolerances.map (regressionGate actual baseline)

def verdictOf (gates : List Gate) : Verdict :=
  if gates.any (fun gate => gate.severity = .required ∧ ¬ gate.passed) then .fail
  else if gates.any (fun gate => gate.severity = .warning ∧ ¬ gate.passed) then .watch
  else .pass

/-- The evaluation of runs against the aggregate of a baseline. -/
def evaluationOf (profile : AdmissionProfile) (baseline : Metrics) (runs : List RunSnapshot) :
    Evaluation :=
  let gates := gatesOf profile baseline runs
  { status := verdictOf gates, runs := runs, aggregate := aggregate runs, gates := gates }

def Verdict.stage : Verdict → Stage
  | .pass => .admissionPassed
  | .watch => .admissionPassed
  | .fail => .baselineRegistered

/-! ## The tables -/

structure Admission where
  id : String
  strategyId : String
  strategyVersionId : Option String
  parametersSha256 : String
  profileName : String
  sampleSet : String
  currentStage : Stage
  baseline : Snapshot
  evaluation : Option Evaluation

/-- The columns of the unique constraint; the profile version is a constant. -/
def Admission.key (admission : Admission) : String × String × String :=
  (admission.strategyId, admission.parametersSha256, admission.profileName)

structure StageEvent where
  admissionId : String
  stage : Stage
  sourceId : Option String
  deriving DecidableEq

structure State where
  admissions : List Admission
  events : List StageEvent

/-- `get_admission` -/
def getAdmission (s : State) (strategyId hash profileName : String) : Option Admission :=
  find Admission.key s.admissions (strategyId, hash, profileName)

/-- `update strategy_admissions ... where id = ?`, and the event of it. -/
def State.record (s : State) (id : String) (change : Admission → Admission) (stage : Stage)
    (sourceId : Option String) : State :=
  { admissions := s.admissions.map (fun old => if old.id = id then change old else old)
    events := s.events ++ [{ admissionId := id, stage := stage, sourceId := sourceId }] }

/-! ## The calls -/

structure RegisterCall where
  strategyId : String
  runIds : List String
  regimes : Regimes
  parameters : Parameters
  profileName : String
  sampleSet : String
  newId : String

structure EvaluateCall where
  strategyId : String
  runIds : List String
  regimes : Regimes
  parameters : Parameters
  profileName : String

structure ValidateCall where
  strategyId : String
  sessionId : String
  parameters : Parameters
  profileName : String
  minReportDays : ℤ

section Calls

variable (evidence : Evidence)

def hashMismatch : String := "Submitted parameters do not match the admission runs."

/-- `register_baseline` -/
def registerBaseline (s : State) (call : RegisterCall) : Except String State :=
  (profileOf call.profileName).bind fun _ =>
    (loadRuns evidence call.strategyId call.runIds call.regimes).bind fun runs =>
      let hash := evidence.parametersSha256 call.parameters
      if runs.any (fun run => runHash evidence run ≠ hash) then .error hashMismatch
      else if runs.any (fun run => ¬ run.validationPassed) then
        .error ("Baseline runs failed trusted-backtest validation: " ++
          String.intercalate ", " ((runs.filter (fun run => ¬ run.validationPassed)).map RunRow.id))
      else
        let snapshots := runs.map (runSnapshot call.regimes)
        let snapshot : Snapshot :=
          { sampleSet := call.sampleSet, runs := snapshots, aggregate := aggregate snapshots }
        let version := runs.head?.bind RunRow.strategyVersionId
        match getAdmission s call.strategyId hash call.profileName with
        | some existing =>
          .ok (s.record existing.id
            (fun old => { old with
              strategyVersionId := version
              sampleSet := call.sampleSet
              currentStage := .baselineRegistered
              baseline := snapshot
              evaluation := none })
            .baselineRegistered call.runIds.head?)
        | none =>
          if s.admissions.any (fun old => old.id = call.newId) then
            .error "UNIQUE constraint failed: strategy_admissions.id"
          else
            .ok
              { admissions := s.admissions ++
                  [{ id := call.newId
                     strategyId := call.strategyId
                     strategyVersionId := version
                     parametersSha256 := hash
                     profileName := call.profileName
                     sampleSet := call.sampleSet
                     currentStage := .baselineRegistered
                     baseline := snapshot
                     evaluation := none }]
                events := s.events ++
                  [{ admissionId := call.newId, stage := .baselineRegistered,
                     sourceId := call.runIds.head? }] }

/-- `evaluate_admission` -/
def evaluateAdmission (s : State) (call : EvaluateCall) : Except String State :=
  (profileOf call.profileName).bind fun profile =>
    let hash := evidence.parametersSha256 call.parameters
    match getAdmission s call.strategyId hash call.profileName with
    | none =>
      .error ("A registered baseline was not found for this strategy, parameter set, " ++
        "and profile.")
    | some admission =>
      (loadRuns evidence call.strategyId call.runIds call.regimes).bind fun runs =>
        if runs.any (fun run => runHash evidence run ≠ hash) then .error hashMismatch
        else
          let evaluation := evaluationOf profile admission.baseline.aggregate
            (runs.map (runSnapshot call.regimes))
          .ok (s.record admission.id
            (fun old => { old with
              currentStage := evaluation.status.stage
              evaluation := some evaluation })
            evaluation.status.stage call.runIds.head?)

def Report.critical (report : Report) : Bool :=
  let severity := (((report.severity.filter (· ≠ "")).or (report.status.filter (· ≠ ""))).getD
    "ok").toLower
  severity ∈ ["critical", "failed", "fail", "error"] ∨ report.passed = some false

/-- `validate_paper_stage` -/
def validatePaperStage (s : State) (call : ValidateCall) : Except String State :=
  (profileOf call.profileName).bind fun _ =>
    if call.minReportDays < 1 then .error "minReportDays must be at least 1."
    else
      let hash := evidence.parametersSha256 call.parameters
      match getAdmission s call.strategyId hash call.profileName with
      | none =>
        .error "A strategy admission was not found for this parameter set and profile."
      | some admission =>
        if admission.currentStage = .baselineRegistered then
          .error "Strategy admission must pass before paper validation."
        else
          match evidence.sessions call.sessionId with
          | none => .error ("Paper session not found: " ++ call.sessionId)
          | some session =>
            if session.projectId ≠ some call.strategyId then
              .error "Paper session does not belong to this strategy."
            else if session.status ≠ "stopped" then
              .error "Paper session must be stopped before validation."
            else if session.reports.length < call.minReportDays then
              .error ("Paper validation requires at least " ++ toString call.minReportDays ++
                " daily reports.")
            else if session.reports.any Report.critical then
              .error ("Paper validation has critical QA reports: " ++ String.intercalate ", "
                (((orderBy Report.tradeDate session.reports).filter Report.critical).take 10
                  |>.map Report.tradeDate))
            else
              .ok (s.record admission.id
                (fun old => { old with currentStage := .paperValidated })
                .paperValidated (some call.sessionId))

inductive Call where
  | register (call : RegisterCall)
  | evaluate (call : EvaluateCall)
  | validate (call : ValidateCall)

def perform (s : State) : Call → Except String State
  | .register call => registerBaseline evidence s call
  | .evaluate call => evaluateAdmission evidence s call
  | .validate call => validatePaperStage evidence s call

/-- The calls one after the other; one that raises changes nothing. -/
def admissions : Machine State Call where
  allowed := fun _ _ => True
  next := fun s call =>
    match perform evidence s call with
    | .ok next => next
    | .error _ => s

end Calls

def start : State where
  admissions := []
  events := []

end LocalPlatform.Strategies
