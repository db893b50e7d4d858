import LocalPlatform.Accounts.CycleAudit

/-!
# Deployments of a Paper account

A deployment runs one cycle on every trading day.  This module holds the tables
that a cycle leaves behind (signals, reports, snapshots, notifications and the
progress of its deployment) and the services that start and fail a cycle.

* `accountDb` is the database that a projection reads.  Its table of cycles is
  a view of the execution cycles.
* The exchange calendar, with the clock it is read at, is a parameter.
-/

namespace LocalPlatform.Accounts

open Paper Transaction

/-! ## Tables -/

/-- `paper_strategy_deployments`, as far as its cycles read and write it. -/
structure Deployment where
  id : String
  paperAccountId : String
  status : String
  signalMode : String
  strategyFingerprint : String
  datasetFingerprint : String
  lastSuccessfulTradingDate : Option String := none
  nextScheduledAt : Option String := none
  consecutiveFailures : Nat := 0
  deriving DecidableEq

/-- The column `signal_key`: one of the texts `{cycle}:no_signal`,
`{cycle}:{event}` and `{cycle}:signal-only:{event}`. -/
inductive SignalKey where
  | noSignal (cycleId : String)
  | intent (cycleId : String) (eventKey : EventKey)
  | signalOnly (cycleId : String) (eventKey : EventKey)
  deriving DecidableEq

/-- The column `evidence_json`. -/
inductive Evidence where
  | reason (text : String)
  | order (order : LeanOrder)
  deriving DecidableEq

/-- `paper_strategy_signals`.  A missing `signalTimestamp` is the time of the
insertion. -/
structure StrategySignal where
  paperAccountId : String
  deploymentId : String
  cycleId : String
  signalKey : SignalKey
  signalType : String
  symbol : Option String
  signalTimestamp : Option String
  intendedExecutionDate : String
  targetQuantity : Option ℚ := none
  previousQuantity : Option ℚ := none
  evidence : Evidence
  disposition : String
  noTradeReason : Option String
  intentId : Option IntentId := none
  leanRunId : Option String
  dataTimestamp : String
  deriving DecidableEq

/-- `paper_account_daily_reports` -/
structure StoredReport where
  paperAccountId : String
  deploymentId : String
  cycleId : String
  tradingDate : String
  report : AccountReport
  resultDigest : Digest AccountReport
  deriving DecidableEq

/-- `paper_account_daily_snapshots`, one row of an account generation and a
trading date. -/
structure AccountSnapshot where
  projection : AccountProjection
  benchmarkSymbol : String
  benchmarkReturn : ℚ
  sourceLedgerSequence : Nat
  sourceCheckpointDigest : Digest CheckpointState
  deriving DecidableEq

/-- The payload of a notification. -/
inductive NotificationPayload where
  | cycleFailed (tradingDate failureCode detail : String)
  | counts (tradingDate : String) (counts : List (String × Nat)) (deepLink : String)
  deriving DecidableEq

/-- `paper_notification_outbox`.  The deduplication key is made of the other
columns but the payload. -/
structure Notification where
  paperAccountId : String
  deploymentId : Option String
  cycleId : Option String
  eventType : String
  payload : NotificationPayload
  status : String := "pending"
  attempt : Nat := 0
  deriving DecidableEq

/-- The database of the deployment services. -/
structure DeploymentDb where
  accounts : AccountDb
  cycles : CycleDb
  deployments : String → Option Deployment
  signals : List StrategySignal
  reports : List StoredReport
  snapshots : String → Nat → String → Option AccountSnapshot
  outbox : List Notification

/-- `next_trade_date`, `_next_market_close`, `_is_open_trading_day` and
`date.today()`. -/
structure TradeCalendar where
  nextTradeDate : String → String
  nextMarketClose : String → String
  isOpen : String → Bool
  today : String

/-- The name of a status in the database. -/
def CycleStatus.name : CycleStatus → String
  | .scheduled => "scheduled"
  | .waitingData => "waiting_data"
  | .queued => "queued"
  | .running => "running"
  | .finalizing => "finalizing"
  | .succeeded => "succeeded"
  | .skipped => "skipped"
  | .failed => "failed"

/-- A cycle as `_account_context` and the projections read it. -/
def cycleContext (accounts : AccountDb) (cycle : ExecutionCycle) : CycleContext where
  id := cycle.id
  paperAccountId := cycle.paperAccountId
  shadowSessionId := ((accounts.accounts cycle.paperAccountId).map PaperAccount.shadowSessionId).getD ""
  deploymentId := cycle.deploymentId
  accountGeneration := cycle.accountGeneration
  tradingDate := cycle.tradingDate
  status := cycle.status.name
  paperRunId := cycle.paperRunId

def DeploymentDb.accountDb (db : DeploymentDb) : AccountDb :=
  { db.accounts with
    paper := { db.accounts.paper with
      cycles := db.cycles.cycles.map (cycleContext db.accounts) } }

/-- The database after a projection, which does not write the Paper tables. -/
def DeploymentDb.withAccounts (accounts : AccountDb) (db : DeploymentDb) : DeploymentDb :=
  { db with accounts := { accounts with paper := db.accounts.paper } }

def onAccounts {α : Type} (m : TxM AccountDb AccountError α) : TxM DeploymentDb AccountError α :=
  TxM.zoom DeploymentDb.accountDb DeploymentDb.withAccounts m

def onCycles {α : Type} (f : CycleDb → Except AccountError (α × CycleDb)) :
    TxM DeploymentDb AccountError α :=
  TxM.zoom DeploymentDb.cycles (fun cycles db => { db with cycles := cycles }) (TxM.tx f)

/-! ## Reads -/

/-- `get_cycle` -/
def getCycle (cycleId : String) (db : DeploymentDb) : Except AccountError ExecutionCycle :=
  match db.cycles.find cycleId with
  | some cycle => .ok cycle
  | none => .error cycleNotFound

/-- `get_deployment` -/
def getDeployment (deploymentId : String) (db : DeploymentDb) : Except AccountError Deployment :=
  match db.deployments deploymentId with
  | some deployment => .ok deployment
  | none => .error (.paper (.keyError "Paper deployment not found."))

/-- `_account_checkpoint` -/
def accountCheckpoint (accountId : String) (generation : Nat) (db : AccountDb) :
    Except AccountError AccountCheckpoint :=
  match (db.checkpoints.filter (fun row => row.paperAccountId == accountId &&
      row.generation == generation)).argmax AccountCheckpoint.sourceLedgerSequence with
  | some row => .ok row
  | none => .error (.paper (.valueError "Account opening checkpoint is unavailable."))

/-! ## Notifications -/

/-- Two notifications with one deduplication key. -/
def Notification.sameKey (a b : Notification) : Bool :=
  a.eventType == b.eventType && a.paperAccountId == b.paperAccountId &&
    a.deploymentId == b.deploymentId && a.cycleId == b.cycleId

/-- `_enqueue_notification`, which does nothing for a key that is there. -/
def enqueueNotification (outbox : List Notification) (row : Notification) : List Notification :=
  if outbox.any row.sameKey then outbox else outbox ++ [row]

/-! ## Starting and failing a cycle -/

/-- The update of a deployment. -/
def DeploymentDb.updateDeployment (db : DeploymentDb) (deploymentId : String)
    (f : Deployment → Deployment) : DeploymentDb :=
  { db with
    deployments := Function.update db.deployments deploymentId
      ((db.deployments deploymentId).map f) }

/-- A failure more; the third in a row is an error. -/
def Deployment.failed (deployment : Deployment) : Deployment :=
  { deployment with
    consecutiveFailures := deployment.consecutiveFailures + 1
    status := if 3 ≤ deployment.consecutiveFailures + 1 then "error" else deployment.status }

/-- The second transaction of `fail_cycle`. -/
def recordFailure (cycle : ExecutionCycle) (cycleId failureCode detail : String)
    (db : DeploymentDb) : DeploymentDb :=
  let db' := db.updateDeployment cycle.deploymentId Deployment.failed
  { db' with
    outbox := enqueueNotification db.outbox
      { paperAccountId := cycle.paperAccountId
        deploymentId := some cycle.deploymentId
        cycleId := some cycleId
        eventType := "cycle_failed"
        payload := .cycleFailed cycle.tradingDate failureCode detail } }

/-- `fail_cycle` -/
def failDeploymentCycle (cycleId failureCode detail : String) :
    TxM DeploymentDb AccountError ExecutionCycle := do
  let cycle ← onCycles (failCycle cycleId failureCode detail)
  let _ ← TxM.tx (fun db => .ok ((), recordFailure cycle cycleId failureCode detail db))
  pure cycle

/-- `ensure_cycle`; a new cycle is named `cycleId`. -/
def ensureDeploymentCycle (deploymentId tradingDate : String) (diagnostic : Bool)
    (cycleId : String) : TxM DeploymentDb AccountError ExecutionCycle := do
  let deployment ← TxM.read (getDeployment deploymentId)
  let account ← TxM.read (fun db => getAccount deployment.paperAccountId db.accounts)
  let checkpoint ← TxM.read (fun db =>
    accountCheckpoint account.id account.currentGeneration db.accounts)
  onCycles (fun cycles => .ok (ensureCycle cycleId
    { paperAccountId := account.id
      accountGeneration := account.currentGeneration
      deploymentId := deploymentId
      tradingDate := tradingDate
      strategyFingerprint := deployment.strategyFingerprint
      datasetFingerprint := deployment.datasetFingerprint
      accountOpeningCheckpointDigest := some checkpoint.digest
      diagnostic := diagnostic } cycles))

/-- The date that `run_now` takes when it is given none. -/
def nextRunDate (calendar : TradeCalendar) (deployment : Deployment) (account : PaperAccount)
    (db : DeploymentDb) : String :=
  ((deployment.lastSuccessfulTradingDate.map calendar.nextTradeDate) <|>
    (db.accounts.paper.sessions account.shadowSessionId).bind Session.startDate).getD
      calendar.today

/-- `run_now`.  A queued cycle is then published. -/
def runNow (calendar : TradeCalendar) (deploymentId : String) (tradingDate : Option String)
    (cycleId : String) : TxM DeploymentDb AccountError ExecutionCycle := do
  let deployment ← TxM.read (getDeployment deploymentId)
  let account ← TxM.read (fun db => getAccount deployment.paperAccountId db.accounts)
  if deployment.status ≠ "active" then
    TxM.fail (.paper (.valueError "Only active deployments can run."))
  else if account.status ≠ "active" then
    TxM.fail (.paper (.valueError "Paper account must be active."))
  else do
    let date ← TxM.read (fun db =>
      .ok (tradingDate.getD (nextRunDate calendar deployment account db)))
    let cycle ← ensureDeploymentCycle deploymentId date false cycleId
    if cycle.status ∈ ([.queued, .running, .finalizing, .succeeded, .skipped] :
        List CycleStatus) then
      pure cycle
    else if !calendar.isOpen date then
      onCycles (Dispatch.nonTradingDay.run cycle.id)
    else onCycles (Dispatch.runNow.run cycle.id)

end LocalPlatform.Accounts
