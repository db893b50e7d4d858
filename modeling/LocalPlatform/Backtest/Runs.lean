import LocalPlatform.Lib.Interleaving
import LocalPlatform.Lib.Register

/-!
# The parties that write the status of a backtest run

A row of `backtest_runs` and its row of `tasks` are written by the request that publishes the run
(`mark_backtest_queued`, `fail_backtest_queue`), by the deliveries of `run_backtest_task`, by
`cancel_backtest` and by `reconcile_backtest_runs`.  Each of them is a list of tasks, one for each
`db()` block.

* What the strategy, LEAN and the file system do in a delivery is its `Delivery` script.  An
  error may come at any point of it, and a worker that dies is a call that takes no more steps.
* `update_backtest` writes the status whatever it is.  `RunDb.write` also appends it to
  `history`, the log of all statuses that were written.
* A task that writes after a look carries `seen`, the length of the log at the look.

The columns for fingerprints, validation, statistics and durations, the logs and the metrics are
left out.
-/

namespace LocalPlatform.Backtest

open Interleavings

/-! ## Rows -/

/-- `BACKTEST_STATUSES` -/
inductive RunStatus where
  | created
  | queued
  | running
  | success
  | failed
  | cancelled
  deriving DecidableEq

/-- `TERMINAL_STATUSES` -/
def RunStatus.isTerminal : RunStatus → Bool
  | .success => true
  | .failed => true
  | .cancelled => true
  | _ => false

/-- The text of a status. -/
def RunStatus.text : RunStatus → String
  | .created => "created"
  | .queued => "queued"
  | .running => "running"
  | .success => "success"
  | .failed => "failed"
  | .cancelled => "cancelled"

/-- A row of `backtest_runs`; times are in seconds. -/
structure BacktestRow where
  status : RunStatus
  error : Option String
  createdAt : Int
  queuedAt : Option Int
  startedAt : Option Int
  finishedAt : Option Int
  exitCode : Option Int
  resultJsonPath : Option String
  executionId : Option String
  containerName : Option String
  certificateId : Option String
  trustStatus : Option String
  trustReason : Option String
  jobTimeoutSeconds : Int
  deriving DecidableEq

/-- A row of `tasks`. -/
structure TaskRow where
  status : RunStatus
  error : Option String
  finishedAt : Option Int
  deriving DecidableEq

structure RunDb where
  row : BacktestRow
  task : Option TaskRow
  history : List RunStatus
  deriving DecidableEq

/-- `update_backtest` with a status and other fields -/
def RunDb.write (db : RunDb) (status : RunStatus) (fields : BacktestRow → BacktestRow) : RunDb :=
  { db with
    row := { fields db.row with status := status }
    history := db.history ++ [status] }

/-- `update_task` -/
def RunDb.updateTask (db : RunDb) (fields : TaskRow → TaskRow) : RunDb :=
  { db with task := db.task.map fields }

def cancellationMessage : String := "Cancellation requested by user."

/-! ## Calls -/

/-- An `update_backtest` without a status. -/
structure RowPatch where
  executionId : Option (Option String)
  containerName : Option (Option String)
  certificateId : Option (Option String)
  deriving DecidableEq

def RowPatch.apply (patch : RowPatch) (row : BacktestRow) : BacktestRow :=
  { row with
    executionId := patch.executionId.getD row.executionId
    containerName := patch.containerName.getD row.containerName
    certificateId := patch.certificateId.getD row.certificateId }

/-- What LEAN and the audit of its result answer. -/
structure LeanOutput where
  exitCode : Int
  resultJsonPath : Option String
  timedOut : Bool
  error : Option String
  auditPassed : Bool
  auditMessage : Option String
  executionId : Option String
  containerName : Option String
  deriving DecidableEq

/-- `raw_success` -/
def LeanOutput.rawSuccess (output : LeanOutput) : Bool :=
  output.exitCode == 0 && output.resultJsonPath.any (fun path => path != "") && !output.timedOut

def LeanOutput.status (output : LeanOutput) : RunStatus :=
  if output.rawSuccess && output.auditPassed then .success else .failed

def LeanOutput.failure (output : LeanOutput) : Option String :=
  if output.status = .success then none
  else some (((if output.rawSuccess then output.auditMessage else none).or
    (output.error.filter (fun error => error != ""))).getD
      "Docker run failed or did not produce result JSON.")

/-- What a delivery of `run_backtest_task` meets. -/
structure Delivery where
  now : Int
  /-- `_task_project` raises. -/
  projectError : Option String
  leaseFree : Bool
  /-- The updates before LEAN has run, and an error before its result is there. -/
  preparation : List RowPatch
  preparationError : Option String
  output : LeanOutput
  /-- The updates between the result and the end, and an error among them. -/
  persistence : List RowPatch
  persistenceError : Option String
  /-- An error after the last status was written. -/
  closingError : Option String
  deriving DecidableEq

/-- One `db()` block of a call, with what the call has read before. -/
inductive RunTask where
  /-- `mark_backtest_queued` -/
  | markQueued (now : Int)
  /-- `fail_backtest_queue` -/
  | failQueue (error : String) (now : Int)
  /-- `get_backtest` of `cancel_backtest` -/
  | cancelLook (now : Int)
  | cancelTask (now : Int) (seen : Nat)
  | cancelRun (now : Int) (seen : Nat)
  /-- `reconcile_backtest_runs`, for this run -/
  | reconcile (now staleSeconds : Int)
  /-- `_reconcile_terminal_backtest_redelivery` -/
  | redelivery (delivery : Delivery)
  | redeliveryTask (status : RunStatus) (error : Option String) (finishedAt : Option Int)
  /-- `get_backtest` at the start of `run_backtest_task` -/
  | look (delivery : Delivery) (seen : Nat)
  | rejectTask (delivery : Delivery) (error : String) (seen : Nat)
  | rejectRun (delivery : Delivery) (error : String) (seen : Nat)
  /-- No lease: the task and the run go back to `queued`. -/
  | waitTask (seen : Nat)
  | waitRun (seen : Nat)
  | startTask (delivery : Delivery) (seen : Nat)
  | startRun (delivery : Delivery) (seen : Nat)
  | patch (patch : RowPatch)
  /-- `get_backtest` after LEAN has run -/
  | executedLook (delivery : Delivery) (seen : Nat)
  | persistRun (delivery : Delivery) (seen : Nat)
  | finalLook (delivery : Delivery) (seen : Nat)
  | finalRun (delivery : Delivery) (certificate : Option String) (seen : Nat)
  /-- `get_backtest` after an error -/
  | raisedLook (delivery : Delivery) (error : String) (seen : Nat)
  | failRun (delivery : Delivery) (error : String) (exitCode : Int) (seen : Nat)
  | closeTask (status : RunStatus) (error : Option String) (finishedAt : Option Int)
  deriving DecidableEq

/-- A call of one of the parties. -/
inductive RunCall where
  | markQueued (now : Int)
  | failQueue (error : String) (now : Int)
  | cancel (now : Int)
  | reconcile (now staleSeconds : Int)
  | deliver (delivery : Delivery)
  deriving DecidableEq

def RunCall.tasks : RunCall → List RunTask
  | .markQueued now => [.markQueued now]
  | .failQueue error now => [.failQueue error now]
  | .cancel now => [.cancelLook now]
  | .reconcile now staleSeconds => [.reconcile now staleSeconds]
  | .deliver delivery => [.redelivery delivery]

/-! ## Blocks -/

/-- The reason for which `reconcile_backtest_runs` ends a run, with the status it gets. -/
def reconcileReason (db : RunDb) (now staleSeconds : Int) : Option (String × RunStatus) :=
  match db.task with
  | none => some ("owner_task_missing", .failed)
  | some task =>
    if task.status.isTerminal then
      some (s!"owner_task_{task.status.text}_domain_active",
        if task.status = .cancelled then .cancelled else .failed)
    else if db.row.status = .running then
      if max 60 db.row.jobTimeoutSeconds + max 60 staleSeconds <
          now - db.row.startedAt.getD db.row.createdAt then
        some ("execution_timeout_without_terminal_state", .failed)
      else none
    else none

/-- `reconcile_backtest_runs` for one run.  It leaves a terminal run alone. -/
def reconcileRun (db : RunDb) (now staleSeconds : Int) : RunDb :=
  if db.row.status.isTerminal then db
  else
    match reconcileReason db now staleSeconds with
    | none => db
    | some (reason, status) =>
      let message := s!"Reconciled active backtest: {reason}."
      (db.write status (fun row =>
        { row with error := row.error.or (some message), finishedAt := row.finishedAt.or (some now) })
        ).updateTask (fun task =>
          if task.status.isTerminal then task
          else
            { status := status
              error := task.error.or (some message)
              finishedAt := task.finishedAt.or (some now) })

/-- The tasks after the status is `running`: the updates of the preparation, and then LEAN's
result or an error. -/
def Delivery.afterStart (delivery : Delivery) (seen : Nat) : List RunTask :=
  delivery.preparation.map RunTask.patch ++
    [match delivery.preparationError with
      | some error => .raisedLook delivery error seen
      | none => .executedLook delivery seen]

def Delivery.afterResult (delivery : Delivery) (seen : Nat) : List RunTask :=
  delivery.persistence.map RunTask.patch ++
    [match delivery.persistenceError with
      | some error => .raisedLook delivery error seen
      | none => .finalLook delivery seen]

/-- The fields of the last update of a delivery. -/
def finalFields (delivery : Delivery) (certificate : Option String) (row : BacktestRow) :
    BacktestRow :=
  let success := delivery.output.status = .success
  let trust := if success then (if certificate.isSome then "trusted" else "unverified") else "invalid"
  { row with
    finishedAt := some delivery.now
    trustStatus := some trust
    trustReason :=
      if trust = "trusted" then none
      else if success then some "reproducibility_certificate_missing"
      else if delivery.output.rawSuccess then delivery.output.auditMessage
      else none }

/-- A block with its effect on the rows, and the tasks that come next. -/
def runStep (task : RunTask) (db : RunDb) : RunDb × Option (List RunTask) :=
  match task with
  | .markQueued now => (db.write .queued (fun row => { row with queuedAt := some now }), some [])
  | .failQueue error now =>
    (db.write .failed (fun row => { row with error := some error, finishedAt := some now }), some [])
  | .cancelLook now =>
    if db.row.status.isTerminal then (db, some [])
    else (db, some [.cancelTask now db.history.length])
  | .cancelTask now seen =>
    (db.updateTask (fun _ =>
      { status := .cancelled, error := some cancellationMessage, finishedAt := some now }),
      some [.cancelRun now seen])
  | .cancelRun now _ =>
    (db.write .cancelled (fun row =>
      { row with error := some cancellationMessage, finishedAt := some now }), some [])
  | .reconcile now staleSeconds => (reconcileRun db now staleSeconds, some [])
  | .redelivery delivery =>
    if db.row.status.isTerminal then
      (db, some [.redeliveryTask db.row.status
        (if db.row.status = .cancelled then db.row.error.or (some cancellationMessage)
          else db.row.error) db.row.finishedAt])
    else (db, some [.look delivery db.history.length])
  | .redeliveryTask status error finishedAt =>
    if db.task.any (fun task => task.status = status ∧ task.finishedAt.isSome) then (db, some [])
    else (db, some [.closeTask status error finishedAt])
  | .look delivery seen =>
    if db.task = none then (db, none)
    else if db.row.status = .cancelled then
      (db, some [.closeTask .cancelled (some cancellationMessage) (some delivery.now)])
    else
      match delivery.projectError with
      | some error => (db, some [.rejectTask delivery error seen])
      | none =>
        if delivery.leaseFree then (db, some [.startTask delivery seen])
        else (db, some [.waitTask seen])
  | .rejectTask delivery error seen =>
    (db.updateTask (fun _ =>
      { status := .failed, error := some error, finishedAt := some delivery.now }),
      some [.rejectRun delivery error seen])
  | .rejectRun delivery error _ =>
    (db.write .failed (fun row =>
      { row with error := some error, finishedAt := some delivery.now }), some [])
  | .waitTask seen =>
    (db.updateTask (fun task => { task with status := .queued, error := none }),
      some [.waitRun seen])
  | .waitRun _ => (db.write .queued (fun row => { row with error := none }), some [])
  | .startTask delivery seen =>
    (db.updateTask (fun task => { task with status := .running, error := none }),
      some [.startRun delivery seen])
  | .startRun delivery seen =>
    (db.write .running (fun row => { row with startedAt := some delivery.now, error := none }),
      some (delivery.afterStart seen))
  | .patch patch => ({ db with row := patch.apply db.row }, some [])
  | .executedLook delivery _ =>
    if db.row.status = .cancelled then
      (db, some [.closeTask .cancelled (some cancellationMessage) (some delivery.now)])
    else (db, some [.persistRun delivery db.history.length])
  | .persistRun delivery seen =>
    (db.write .running (fun row =>
      { row with
        error := delivery.output.failure
        exitCode := some delivery.output.exitCode
        resultJsonPath := delivery.output.resultJsonPath
        executionId := delivery.output.executionId
        containerName := delivery.output.containerName }),
      some (delivery.afterResult seen))
  | .finalLook delivery seen => (db, some [.finalRun delivery db.row.certificateId seen])
  | .finalRun delivery certificate seen =>
    (db.write delivery.output.status (finalFields delivery certificate),
      some [match delivery.closingError with
        | some error => .raisedLook delivery error seen
        | none => .closeTask delivery.output.status delivery.output.failure (some delivery.now)])
  | .raisedLook delivery error _ =>
    if db.row.status = .cancelled then
      (db, some [.closeTask .cancelled (some cancellationMessage) (some delivery.now)])
    else
      let analysisFailed := db.row.exitCode = some 0 ∧ db.row.resultJsonPath.any (fun p => p != "")
      (db, some [.failRun delivery error
        (if analysisFailed then 0 else -1) db.history.length])
  | .failRun delivery error exitCode _ =>
    (db.write .failed (fun row =>
      { row with
        error := some error
        exitCode := some exitCode
        finishedAt := some delivery.now
        trustStatus := some "invalid"
        trustReason := some error }),
      some [.closeTask .failed (some error) (some delivery.now)])
  | .closeTask status error finishedAt =>
    (db.updateTask (fun _ => { status := status, error := error, finishedAt := finishedAt }),
      some [])

/-- Every interleaving of the calls on one run. -/
abbrev runMachine := worldMachine runStep RunCall.tasks

def runStart (row : BacktestRow) (task : Option TaskRow) : World RunDb RunTask where
  db := { row := row, task := task, history := [] }
  calls := []

end LocalPlatform.Backtest
