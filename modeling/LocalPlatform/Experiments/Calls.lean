import LocalPlatform.Experiments.Selection
import LocalPlatform.Lib.Machine

/-!
# The calls on a batch

A batch is changed by `refresh`, `dispatch_window`, `reconcile_backtest`,
`finish_research_item`, `cancel`, `retry_failed` and `restart_cancelled`.  Each
one is a program of committed transactions.

* What the backtest service and the broker answer is a parameter of a dispatch.
* The worker of a run writes its row before it calls `reconcile_backtest`, and
  `deliver` does both.
* `batchMachine` runs the calls in any order.
-/

namespace LocalPlatform.Experiments

open Paper Transaction Machines

/-! ## `refresh` -/

def countStatus (items : List BatchItem) (status : ItemStatus) : Nat :=
  items.countP (fun item => item.status == status)

def selectionSkips (items : List BatchItem) : Nat :=
  items.countP (fun item =>
    item.status == .skipped && item.error == some "not_selected_by_validation")

/-- The status that `refresh` computes. -/
def refreshStatus (cancelRequested : Bool) (items : List BatchItem) : String :=
  let blockingSkips := countStatus items .skipped - selectionSkips items
  let completed := countStatus items .success + countStatus items .failed +
    countStatus items .skipped + countStatus items .cancelled
  let inFlight := countStatus items .dispatching + countStatus items .queued +
    countStatus items .running
  if completed = items.length then
    if cancelRequested ∧ countStatus items .success = 0 then "cancelled"
    else if countStatus items .failed ≠ 0 ∨ blockingSkips ≠ 0 ∨ countStatus items .cancelled ≠ 0 then
      "partial"
    else "success"
  else if countStatus items .failed ≠ 0 ∧ inFlight = 0 ∧ countStatus items .pending = 0 then
    "partial"
  else if inFlight ≠ 0 ∨ countStatus items .success ≠ 0 ∨ countStatus items .failed ≠ 0 then
    "running"
  else "queued"

/-- `TERMINAL | {"partial"}` on the status of a batch. -/
def finishedStatuses : List String := ["success", "failed", "skipped", "cancelled", "partial"]

/-- The transaction that writes the status. -/
def storeStatus (status : String) (db : ExperimentDb) : ExperimentDb :=
  { db with
    batch := { db.batch with status := status }
    walkForwardRun :=
      if status ∈ finishedStatuses then
        db.walkForwardRun.map (fun run =>
          { run with status := if status = "success" then "COMPLETED" else "FAILED" })
      else db.walkForwardRun }

/-- The checks of a window in a certificate. -/
def certifyWindow (db : ExperimentDb) (window : Window) : Except BatchError CertifiedWindow :=
  let fold := window.key.fold
  match db.leakageChecks.find? (fun check => check.1 == window.key) with
  | none => .error (.leanWebError s!"Walk-forward leakage gate did not pass for fold {fold}.")
  | some check =>
    if check.2 ≠ "ALLOW" then
      .error (.leanWebError s!"Walk-forward leakage gate did not pass for fold {fold}.")
    else
      match db.event window.key with
      | none => .error (.leanWebError s!"Walk-forward selection is not frozen for fold {fold}.")
      | some event =>
        match db.evaluation window.key with
        | none =>
          .error (.leanWebError s!"Walk-forward OOS evidence is incomplete for fold {fold}.")
        | some evaluation =>
          match evaluation.status, evaluation.oosRunId, evaluation.resultDigest with
          | "COMPLETED", some runId, some digest =>
            if runId = "" then
              .error (.leanWebError s!"Walk-forward OOS evidence is incomplete for fold {fold}.")
            else
              .ok
                { window := window.key
                  oosRunId := runId
                  oosInput := evaluation.oosInput
                  resultDigest := digest
                  selectedCandidate := event.selectedCandidate
                  selectedParameters := event.selectedParameters
                  candidateRanking := event.candidateRanking
                  fingerprint := event.fingerprint
                  leakage := check.2 }
          | _, _, _ =>
            .error (.leanWebError s!"Walk-forward OOS evidence is incomplete for fold {fold}.")

/-- `issue_walk_forward_certificate` -/
def issueCertificate (db : ExperimentDb) :
    Except BatchError (List CertifiedWindow × ExperimentDb) :=
  match db.walkForwardRun with
  | none => .error (.notFound "Walk-forward evidence not found.")
  | some run =>
    match run.certificate with
    | some certificate => .ok (certificate, db)
    | none =>
      if run.status ≠ "COMPLETED" ∨ run.lineageStatus ≠ "complete" then
        .error (.leanWebError "Walk-forward lineage is not complete.")
      else if db.windows.isEmpty then
        .error (.leanWebError "Walk-forward certificate requires at least one fold.")
      else
        match db.windows.mapM (certifyWindow db) with
        | .error e => .error e
        | .ok certificate =>
          .ok (certificate,
            { db with walkForwardRun := some { run with certificate := some certificate } })

/-- The items that `refresh` counts: it reads them again if a window was frozen. -/
def currentItems (changed : Bool) (items : List BatchItem) :
    TxM ExperimentDb BatchError (List BatchItem) :=
  if changed then TxM.read (fun db => .ok db.items) else pure items

/-- The part of `refresh` after its counts. -/
def publishStatus (batch : Batch) (status : String) : TxM ExperimentDb BatchError Unit := do
  TxM.tx (fun db => .ok ((), storeStatus status db))
  if status = "success" ∧ batch.mode = "walk_forward" then do
    let _ ← TxM.tx issueCertificate
    pure ()
  else pure ()

/-- `refresh` -/
def refresh : TxM ExperimentDb BatchError Unit := do
  let (batch, items) ← TxM.read (fun db => .ok (db.batch, db.items))
  let changed ← advanceSelection batch items
  let current ← currentItems changed items
  publishStatus batch (refreshStatus batch.cancelRequested current)

/-- `detail` -/
def detail : TxM ExperimentDb BatchError (Batch × List BatchItem) := do
  refresh
  TxM.read (fun db => .ok (db.batch, db.items))

/-! ## `reconcile_backtest` -/

/-- The status of an item whose run has a status. -/
def itemStatusOf (status : String) : ItemStatus :=
  if status = "success" then .success
  else if status = "skipped" then .skipped
  else if status = "cancelled" then .cancelled
  else if status = "queued" then .queued
  else if status = "running" then .running
  else .failed

def updateItem (itemId : Nat) (f : BatchItem → BatchItem) (db : ExperimentDb) : ExperimentDb :=
  { db with items := db.items.map (fun item => if item.id = itemId then f item else item) }

/-- The first transaction of `reconcile_backtest`. -/
def reconcileItem (run : BacktestRun) (itemId : Nat) (db : ExperimentDb) :
    Except BatchError (Unit × ExperimentDb) :=
  match db.item itemId with
  | none => .error (.valueError "Batch item not found.")
  | some item =>
    let status := itemStatusOf run.status
    let updated := updateItem itemId (fun item =>
      { item with status := status, statistics := run.statistics, error := run.error }) db
    .ok ((), { updated with
      attempts := updated.attempts.map (fun attempt =>
        if attempt.itemId = itemId ∧ attempt.attempt = item.attempt then
          { attempt with status := status, error := run.error }
        else attempt) })

/-- `_persist_oos_evaluation` -/
def persistOosEvaluation (itemId : Nat) (run : BacktestRun) (db : ExperimentDb) : ExperimentDb :=
  let succeeded := itemStatusOf run.status = .success
  match db.evaluations.find? (fun evaluation => evaluation.oosItemId == itemId) with
  | none => db
  | some found =>
    { db with
      evaluations := db.evaluations.map (fun evaluation =>
        if evaluation.window = found.window then
          { evaluation with
            oosRunId := some run.id
            resultDigest := if succeeded then some run.statistics else none
            status := if succeeded then "COMPLETED" else "FAILED" }
        else evaluation)
      windows := db.windows.map (fun window =>
        if window.key = found.window then
          { window with status := if succeeded then "OOS_COMPLETED" else "OOS_FAILED" }
        else window) }

/-- `reconcile_backtest` -/
def reconcileBacktest (runId : String) : TxM ExperimentDb BatchError Unit := do
  let run ← TxM.read (fun db => .ok (db.backtest runId))
  match run with
  | none => pure ()
  | some run =>
    match run.batchItemId with
    | none => pure ()
    | some itemId => do
      TxM.tx (reconcileItem run itemId)
      TxM.tx (fun db => .ok ((), persistOosEvaluation itemId run db))

def updateRun (runId : String) (f : BacktestRun → BacktestRun) (db : ExperimentDb) : ExperimentDb :=
  { db with runs := db.runs.map (fun run => if run.id = runId then f run else run) }

/-- The worker of a run writes its row and reconciles it. -/
def deliver (runId status : String) (error : Option String) (statistics : Statistics) :
    TxM ExperimentDb BatchError Unit := do
  TxM.tx (fun db => .ok ((), updateRun runId (fun run =>
    { run with status := status, error := error, statistics := statistics }) db))
  reconcileBacktest runId

/-- The transaction of `finish_research_item`. -/
def finishItem (itemId : Nat) (statistics : Statistics) (error : Option String) :
    TxM ExperimentDb BatchError Unit :=
  let status : ItemStatus := if error.any (· ≠ "") then .failed else .success
  TxM.tx (fun db =>
    let updated := updateItem itemId (fun item =>
      { item with status := status, statistics := statistics, error := error }) db
    match db.item itemId with
    | none => .ok ((), updated)
    | some item =>
      .ok ((), { updated with
        attempts := updated.attempts.map (fun attempt =>
          if attempt.itemId = itemId ∧ attempt.attempt = item.attempt then
            { attempt with status := status, error := error }
          else attempt) }))

/-- `finish_research_item` -/
def finishResearchItem (itemId : Nat) (statistics : Statistics) (error : Option String) :
    TxM ExperimentDb BatchError Unit := do
  finishItem itemId statistics error
  refresh

/-! ## `dispatch_window` -/

/-- What a dispatch is told from outside: how many items may be under way, what
the backtest service answers for an item, and what the broker answers. -/
structure DispatchEnv where
  window : Nat
  createRun : Nat → Except String (String × String)
  failedRun : Nat → String × String
  publish : Nat → Except String String

/-- The claim of an item. -/
def claimItem (itemId : Nat) (db : ExperimentDb) : Except BatchError (Bool × ExperimentDb) :=
  match db.item itemId with
  | none => .ok (false, db)
  | some item =>
    if item.status ≠ .pending then .ok (false, db)
    else .ok (true, updateItem itemId (fun item => { item with status := .dispatching }) db)

/-- The transaction that records a dispatch, which failed or not. -/
def recordAttempt (item : BatchItem) (relatedId taskId : Option String) (status : ItemStatus)
    (error : Option String) (db : ExperimentDb) : ExperimentDb :=
  let updated := updateItem item.id (fun row =>
    { row with
      status := status
      attempt := item.attempt + 1
      relatedId := relatedId <|> row.relatedId
      taskId := taskId <|> row.taskId
      error := error <|> row.error }) db
  { updated with
    attempts := updated.attempts ++
      [{ itemId := item.id
         attempt := item.attempt + 1
         relatedId := relatedId
         taskId := taskId
         status := status
         error := error }] }

def addRun (run : BacktestRun) (db : ExperimentDb) : ExperimentDb :=
  { db with runs := db.runs ++ [run] }

/-- The part of `_dispatch_item` for a backtest, once the item is claimed. -/
def dispatchBacktest (env : DispatchEnv) (item : BatchItem) : TxM ExperimentDb BatchError Unit :=
  match env.createRun item.id with
  | .error message => do
    let (runId, taskId) := env.failedRun item.id
    TxM.tx (fun db => .ok ((), addRun
      { id := runId, taskId := taskId, status := "failed", error := some message } db))
    TxM.tx (fun db => .ok ((), recordAttempt item (some runId) (some taskId) .failed
      (some message) db))
  | .ok (runId, taskId) => do
    TxM.tx (fun db => .ok ((), addRun
      { id := runId, taskId := taskId, status := "created" } db))
    TxM.tx (fun db => .ok ((), recordAttempt item (some runId) (some taskId) .queued none
      (updateRun runId (fun run => { run with batchItemId := some item.id }) db)))
    match env.publish item.id with
    | .error message => do
      TxM.tx (fun db => .ok ((), updateRun runId (fun run =>
        { run with status := "failed", error := some message }) db))
      reconcileBacktest runId
    | .ok _ =>
      TxM.tx (fun db => .ok ((), updateRun runId (fun run => { run with status := "queued" }) db))

/-- The part of `_dispatch_item` for a research item, once it is claimed. -/
def dispatchResearch (env : DispatchEnv) (item : BatchItem) : TxM ExperimentDb BatchError Unit :=
  match env.publish item.id with
  | .error message =>
    TxM.tx (fun db => .ok ((), recordAttempt item none none .failed (some message) db))
  | .ok taskId =>
    TxM.tx (fun db => .ok ((), recordAttempt item none (some taskId) .queued none db))

/-- `_dispatch_item` -/
def dispatchItem (env : DispatchEnv) (batch : Batch) (item : BatchItem) :
    TxM ExperimentDb BatchError Unit := do
  let claimed ← TxM.tx (claimItem item.id)
  if claimed then
    if batch.kind = "research" then dispatchResearch env item else dispatchBacktest env item
  else pure ()

/-- `TERMINAL` on the status of a batch. -/
def terminalStatuses : List String := ["success", "failed", "skipped", "cancelled"]

/-- `dispatch_window` -/
def dispatchWindow (env : DispatchEnv) : TxM ExperimentDb BatchError Unit := do
  let (batch, items) ← detail
  if batch.cancelRequested ∨ batch.status ∈ terminalStatuses then pure ()
  else do
    let inFlight := items.countP (fun item => item.status ∈ active)
    let pending := (items.filter (fun item => item.status == .pending)).take (env.window - inFlight)
    let _ ← TxM.forEach (dispatchItem env batch) pending
    refresh

/-! ## `cancel`, `retry_failed` and `restart_cancelled` -/

/-- `is_terminal` on the status of a run. -/
def runIsTerminal (status : String) : Bool :=
  ["success", "failed", "cancelled", "succeeded", "interrupted"].contains (lower (strip status))

/-- `cancel_backtest` -/
def cancelBacktest (runId : String) : TxM ExperimentDb BatchError Unit := do
  let run ← TxM.read (fun db =>
    match db.backtest runId with
    | none => .error (.keyError "Backtest run not found.")
    | some run => .ok run)
  if runIsTerminal run.status then pure ()
  else do
    TxM.tx (fun db => .ok ((), updateRun runId (fun run =>
      { run with status := "cancelled", error := some "Cancellation requested by user." }) db))
    let _ ← TxM.attempt (reconcileBacktest runId)
    pure ()

/-- The statuses that `cancel` ends. -/
def cancellable : List ItemStatus := [.pending, .dispatching, .queued, .blockedSelection]

/-- The transaction of `cancel`. -/
def cancelItems (db : ExperimentDb) : ExperimentDb :=
  let items := db.items.map (fun item =>
    if item.status ∈ cancellable then { item with status := .cancelled } else item)
  { db with
    batch := { db.batch with cancelRequested := true }
    items := items
    attempts := db.attempts.map (fun attempt =>
      if items.any (fun item => item.status == .cancelled && item.id == attempt.itemId &&
            item.attempt == attempt.attempt && decide (0 < item.attempt)) ∧
          attempt.status ∉ [.success, .failed, .cancelled] then
        { attempt with status := .cancelled }
      else attempt) }

/-- `cancel` -/
def cancel : TxM ExperimentDb BatchError Unit := do
  let (_, items) ← detail
  TxM.tx (fun db => .ok ((), cancelItems db))
  let _ ← TxM.forEach cancelBacktest
    ((items.filter (fun item => item.status ∈ active)).filterMap (fun item =>
      item.relatedId.filter (· ≠ "")))
  refresh

/-- Items with these statuses wait again. -/
def requeueItems (statuses : List ItemStatus) (db : ExperimentDb) : ExperimentDb :=
  { db with
    batch := { db.batch with status := "queued", cancelRequested := false }
    items := db.items.map (fun item =>
      if item.status ∈ statuses then
        { item with status := .pending, relatedId := none, taskId := none, error := none }
      else item) }

/-- `retry_failed` -/
def retryFailed (env : DispatchEnv) : TxM ExperimentDb BatchError Unit := do
  let (batch, items) ← detail
  if batch.status ∉ finishedStatuses then
    TxM.fail (.leanWebError "Only a completed batch can retry failed items.")
  else if ¬ items.any (fun item => item.status == .failed) then
    TxM.fail (.leanWebError "The batch has no failed items to retry.")
  else do
    TxM.tx (fun db => .ok ((), requeueItems [.failed] db))
    dispatchWindow env

/-- The statuses that `restart_cancelled` starts again. -/
def restartable : List ItemStatus := [.cancelled, .failed, .skipped]

/-- `restart_cancelled` -/
def restartCancelled (env : DispatchEnv) : TxM ExperimentDb BatchError Unit := do
  let (batch, items) ← detail
  if ¬ batch.cancelRequested ∨ batch.status ∉ finishedStatuses then
    TxM.fail (.leanWebError "Only a completed cancelled batch can be restarted.")
  else if ¬ items.any (fun item => item.status ∈ restartable) then
    TxM.fail (.leanWebError "The cancelled batch has no unfinished items to restart.")
  else do
    TxM.tx (fun db => .ok ((), requeueItems restartable db))
    dispatchWindow env

/-! ## Every sequence of calls -/

/-- A call on the batch, or the delivery of a run. -/
inductive BatchAction where
  | refresh
  | dispatchWindow (env : DispatchEnv)
  | deliver (runId status : String) (error : Option String) (statistics : Statistics)
  | finishResearchItem (itemId : Nat) (statistics : Statistics) (error : Option String)
  | cancel
  | retryFailed (env : DispatchEnv)
  | restartCancelled (env : DispatchEnv)

/-- The program of a call. -/
def BatchAction.program : BatchAction → TxM ExperimentDb BatchError Unit
  | .refresh => Experiments.refresh
  | .dispatchWindow env => Experiments.dispatchWindow env
  | .deliver runId status error statistics => Experiments.deliver runId status error statistics
  | .finishResearchItem itemId statistics error =>
    Experiments.finishResearchItem itemId statistics error
  | .cancel => Experiments.cancel
  | .retryFailed env => Experiments.retryFailed env
  | .restartCancelled env => Experiments.restartCancelled env

/-- Every sequence of calls.  A research item is finished in a research batch
only. -/
abbrev batchMachine : Machine ExperimentDb BatchAction where
  allowed := fun db action =>
    match action with
    | .finishResearchItem _ _ _ => db.batch.kind = "research"
    | _ => True
  next := fun db action => (action.program db).state

instance (db : ExperimentDb) (action : BatchAction) : Decidable (batchMachine.allowed db action) :=
  match action with
  | .finishResearchItem _ _ _ => inferInstanceAs (Decidable (db.batch.kind = "research"))
  | .refresh | .dispatchWindow _ | .deliver _ _ _ _ | .cancel | .retryFailed _
  | .restartCancelled _ => .isTrue trivial

end LocalPlatform.Experiments
