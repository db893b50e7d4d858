import LocalPlatform.Lib.Json
import LocalPlatform.Lib.Table
import LocalPlatform.Lib.Transaction
import LocalPlatform.Paper.Values

/-!
# Experiment batches

A batch of `experiment_batches.py` is a list of items, one backtest each.  In a
`walk_forward` batch every window (a project, a symbol and a fold) has train,
validation and out-of-sample items for the same candidates, and the
out-of-sample items wait until the validation items have chosen one of them.

* The model keeps the rows of one batch.  An item is named by its index, and a
  window and a candidate by the values that their names are computed from.
* A digest is the payload that it is the digest of.
* `createBatch` writes what `create_batch` writes for the items of
  `expandWalkForward`.
* A timestamp is not kept: no decision reads one.
-/

namespace LocalPlatform.Experiments

open Floats Paper

/-! ## Values -/

/-- What these services raise. -/
inductive BatchError where
  | leanWebError (message : String)
  | notFound (message : String)
  | keyError (message : String)
  | valueError (message : String)
  | overflowError (message : String)
  | integrityError (constraint : String)
  deriving DecidableEq

/-- A value of the `statistics` of a run. -/
inductive StatValue where
  | null
  | text (s : String)
  | number (x : PyFloat)
  deriving DecidableEq

abbrev Statistics := List (String × StatValue)

/-- `float(text)` -/
def floatText (s : String) : Option PyFloat := (readFloat s.toList).map PyFloat.round

/-- `_number` -/
def number : StatValue → Option PyFloat
  | .null => none
  | .text s =>
    if s = "" then none
    else floatText (String.ofList (s.toList.filter (fun c => c ≠ '%' ∧ c ≠ ',')))
  | .number x => some x

/-- `_metric` -/
def metric (statistics : Statistics) (keys : List String) : StatValue :=
  let named := fun (key : String) (entry : String × StatValue) => lower entry.1 == lower key
  match keys.find? (fun key => statistics.any (named key)) with
  | none => .null
  | some key => ((statistics.reverse.find? (named key)).map Prod.snd).getD .null

/-! ## Items -/

/-- The status of an item. -/
inductive ItemStatus where
  | pending
  | dispatching
  | queued
  | running
  | success
  | failed
  | skipped
  | cancelled
  | blockedSelection
  deriving DecidableEq

/-- `TERMINAL` -/
def terminal : List ItemStatus := [.success, .failed, .skipped, .cancelled]

/-- `ACTIVE` -/
def active : List ItemStatus := [.dispatching, .queued, .running]

/-- A project, a symbol and a fold. -/
structure WindowKey where
  projectId : String
  symbol : String
  fold : Int
  deriving DecidableEq

abbrev Overrides := List (String × String)

/-- `experiment_batch_items` -/
structure BatchItem where
  id : Nat
  projectId : String
  symbol : String
  fold : Option Int
  phase : String
  candidateKey : Option String
  overrides : Overrides
  status : ItemStatus
  attempt : Nat := 0
  relatedId : Option String := none
  taskId : Option String := none
  error : Option String := none
  statistics : Statistics := []
  deriving DecidableEq

/-- `str(optimizationCandidateKey or "base")` -/
def BatchItem.candidate (item : BatchItem) : String := firstText [item.candidateKey, some "base"]

def windowPhases : List String := ["train", "validation", "oos"]

/-- The window of an item that belongs to one. -/
def BatchItem.window (item : BatchItem) : Option WindowKey :=
  match item.fold with
  | none => none
  | some fold =>
    if item.phase ∈ windowPhases then
      some { projectId := item.projectId, symbol := item.symbol, fold := fold }
    else none

/-- The windows of `_walk_forward_item_groups`, in the order of their first
items. -/
def groupKeys (items : List BatchItem) : List WindowKey :=
  (items.filterMap BatchItem.window).eraseDups

def phaseItems (items : List BatchItem) (key : WindowKey) (phase : String) : List BatchItem :=
  items.filter (fun item => item.window == some key && item.phase == phase)

/-! ## Evidence of a walk-forward batch -/

/-- The objective of a selection. -/
inductive Objective where
  | sharpe
  | totalReturn
  | drawdown
  deriving DecidableEq

/-- An objective that is not known is `sharpe`. -/
def Objective.ofName (name : String) : Objective :=
  if name = "return" then .totalReturn
  else if name = "drawdown" then .drawdown
  else .sharpe

/-- `validation{objective.title()}` -/
def Objective.selectionMetric : Objective → String
  | .sharpe => "validationSharpe"
  | .totalReturn => "validationReturn"
  | .drawdown => "validationDrawdown"

/-- The result of `_validation_metrics`. -/
structure ValidationMetrics where
  totalReturn : Option PyFloat
  sharpe : Option PyFloat
  drawdown : Option PyFloat
  trades : Option PyFloat
  turnover : Option PyFloat
  constraintViolations : Int
  deriving DecidableEq

/-- A row of the ranking of a window. -/
structure RankingRow where
  candidateKey : String
  parameters : Overrides
  metrics : ValidationMetrics
  deriving DecidableEq

/-- `parameter_candidates`.  The name of a candidate is made of its window and its
key. -/
structure Candidate where
  window : WindowKey
  candidateKey : String
  parameters : Overrides
  validation : Option ValidationMetrics := none
  tradeCount : Option Int := none
  selected : Bool := false
  notSelectedReason : Option String := none
  deriving DecidableEq

/-- The payload of a selection fingerprint. -/
structure SelectionPayload where
  windowId : WindowKey
  metric : String
  tieBreak : String
  ranking : List RankingRow
  deriving DecidableEq

/-- `parameter_selection_events` -/
structure SelectionEvent where
  window : WindowKey
  selectedCandidate : String
  selectionMetric : String
  tieBreakRule : String
  selectedParameters : Overrides
  candidateRanking : List RankingRow
  fingerprint : SelectionPayload
  deriving DecidableEq

/-- The payload of the fingerprint of an out-of-sample input: the plan of the
window, and the selection once it is frozen. -/
structure OosInput where
  window : WindowKey
  selection : Option (SelectionPayload × Overrides) := none
  deriving DecidableEq

/-- `walk_forward_windows` -/
structure Window where
  key : WindowKey
  status : String := "VALIDATION_PENDING"
  oosInput : OosInput
  deriving DecidableEq

/-- `oos_evaluations` -/
structure OosEvaluation where
  window : WindowKey
  selectedCandidate : String
  oosItemId : Nat
  oosInput : OosInput
  oosRunId : Option String := none
  resultDigest : Option Statistics := none
  status : String := "PENDING"
  deriving DecidableEq

/-- A window in a certificate. -/
structure CertifiedWindow where
  window : WindowKey
  oosRunId : String
  oosInput : OosInput
  resultDigest : Statistics
  selectedCandidate : String
  selectedParameters : Overrides
  candidateRanking : List RankingRow
  fingerprint : SelectionPayload
  leakage : String
  deriving DecidableEq

/-- `walk_forward_runs` -/
structure WalkForwardRun where
  status : String := "VALIDATION_PENDING"
  lineageStatus : String := "complete"
  certificate : Option (List CertifiedWindow) := none
  deriving DecidableEq

/-! ## The database -/

/-- `experiment_batches` -/
structure Batch where
  kind : String
  mode : String
  status : String := "queued"
  cancelRequested : Bool := false
  objectiveMetric : Option String := none
  configObjective : Option String := none
  deriving DecidableEq

/-- `str(objective_metric or config.objective or "sharpe")` -/
def Batch.objective (batch : Batch) : Objective :=
  .ofName (firstText [batch.objectiveMetric, batch.configObjective, some "sharpe"])

/-- `experiment_batch_attempts` -/
structure ItemAttempt where
  itemId : Nat
  attempt : Nat
  relatedId : Option String
  taskId : Option String
  status : ItemStatus
  error : Option String := none
  deriving DecidableEq

/-- `backtest_runs`, as far as a batch reads and writes it. -/
structure BacktestRun where
  id : String
  taskId : String
  batchItemId : Option Nat := none
  status : String
  error : Option String := none
  statistics : Statistics := []
  deriving DecidableEq

/-- The rows of a batch, its evidence and its runs. -/
structure ExperimentDb where
  batch : Batch
  items : List BatchItem
  attempts : List ItemAttempt := []
  runs : List BacktestRun := []
  walkForwardRun : Option WalkForwardRun := none
  windows : List Window := []
  leakageChecks : List (WindowKey × String) := []
  candidates : List Candidate := []
  events : List SelectionEvent := []
  evaluations : List OosEvaluation := []
  deriving DecidableEq

/-- `select * from parameter_selection_events where window_id=?` -/
def ExperimentDb.event (db : ExperimentDb) (key : WindowKey) : Option SelectionEvent :=
  Tables.find SelectionEvent.window db.events key

/-- `select * from oos_evaluations where window_id=?` -/
def ExperimentDb.evaluation (db : ExperimentDb) (key : WindowKey) : Option OosEvaluation :=
  Tables.find OosEvaluation.window db.evaluations key

/-- `select * from experiment_batch_items where id=?` -/
def ExperimentDb.item (db : ExperimentDb) (itemId : Nat) : Option BatchItem :=
  Tables.find BatchItem.id db.items itemId

/-- `select * from backtest_runs where id=?` -/
def ExperimentDb.backtest (db : ExperimentDb) (runId : String) : Option BacktestRun :=
  Tables.find BacktestRun.id db.runs runId

/-! ## `create_batch` -/

/-- An item of `expand`. -/
structure PlannedItem where
  projectId : String
  symbol : String
  fold : Int
  phase : String
  candidateKey : String
  overrides : Overrides
  deriving DecidableEq

/-- The items of a walk-forward batch: every project, symbol, fold, phase and
candidate of the project.  A candidate that is named by nothing is `base`. -/
def expandWalkForward (projects symbols : List String) (folds : List Int)
    (candidates : String → List (String × Overrides)) : List PlannedItem :=
  projects.flatMap fun projectId => symbols.flatMap fun symbol => folds.flatMap fun fold =>
    windowPhases.flatMap fun phase => (candidates projectId).map fun candidate =>
      { projectId := projectId
        symbol := symbol
        fold := fold
        phase := phase
        candidateKey := firstText [some candidate.1, some "base"]
        overrides := candidate.2 }

/-- The row of an item, with its index. -/
def newItem (planned : PlannedItem × Nat) : BatchItem where
  id := planned.2
  projectId := planned.1.projectId
  symbol := planned.1.symbol
  fold := some planned.1.fold
  phase := planned.1.phase
  candidateKey := some planned.1.candidateKey
  overrides := planned.1.overrides
  status := if planned.1.phase = "oos" then .blockedSelection else .pending

/-- The columns of an item that its `item_key` is made of. -/
def BatchItem.itemKey (item : BatchItem) : String × String × Option Int × String × Option String :=
  (item.projectId, item.symbol, item.fold, item.phase, item.candidateKey)

/-- The candidates of a window, in the order of their first items. -/
def candidateNames (items : List BatchItem) (key : WindowKey) : List String :=
  ((items.filter (fun item => item.window == some key)).map BatchItem.candidate).eraseDups

/-- The item of a window, a phase and a candidate. -/
def candidateItem (items : List BatchItem) (key : WindowKey) (phase name : String) :
    Option BatchItem :=
  (phaseItems items key phase).find? (fun item => item.candidate == name)

/-- The phase that the plan of a window looks up and does not find. -/
def missingPhase (items : List BatchItem) (key : WindowKey) : Option String :=
  match windowPhases.find? (fun phase => (phaseItems items key phase).isEmpty) with
  | some phase => some phase
  | none => (candidateNames items key).findSome? (fun name =>
      ["validation", "train"].find? (fun phase => (candidateItem items key phase name).isNone))

/-- The candidates of `_persist_walk_forward_plan`. -/
def planCandidates (items : List BatchItem) (key : WindowKey) : List Candidate :=
  (candidateNames items key).map fun name =>
    { window := key
      candidateKey := name
      parameters := ((candidateItem items key "validation" name).map BatchItem.overrides).getD [] }

/-- The transaction of `create_batch` for a `walk_forward` batch whose leakage
checks pass. -/
def createBatch (kind : String) (objective : Option String) (planned : List PlannedItem) :
    Except BatchError ExperimentDb :=
  let items := planned.zipIdx.map newItem
  if ¬ (items.map BatchItem.itemKey).Nodup then
    .error (.integrityError "experiment_batch_items.batch_id, experiment_batch_items.item_key")
  else
    match (groupKeys items).findSome? (missingPhase items) with
    | some phase => .error (.keyError phase)
    | none =>
      .ok
        { batch := { kind := kind, mode := "walk_forward", configObjective := objective }
          items := items
          walkForwardRun := some {}
          windows := (groupKeys items).map (fun key =>
            { key := key, oosInput := { window := key } })
          leakageChecks := (groupKeys items).map (fun key => (key, "ALLOW"))
          candidates := (groupKeys items).flatMap (planCandidates items) }

end LocalPlatform.Experiments
