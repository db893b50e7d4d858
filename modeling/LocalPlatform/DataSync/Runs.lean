import LocalPlatform.Lib.Table

/-!
# Data synchronisation runs

The rows of `data_sync_runs` and `data_sync_items`, and the transactions that are made on them
beside the loop of `run_sync`: `bind_task`, `queue_stale_run_for_recovery`, the two of
`request_cancel` and the one of `prepare_resume`.

* Every `db()` block is one function here.  What a block uses of an earlier read is an argument.
* Times, texts, the summary and the metrics are left out.  Of the text of an error it is kept
  whether it tells of a lost connection.
-/

namespace LocalPlatform.DataSync

open Tables

/-! ## Rows -/

/-- The status `partial` is `partialResult`. -/
inductive RunStatus where
  | queued
  | running
  | cancelling
  | cancelled
  | success
  | partialResult
  | failed
  | paused
  deriving DecidableEq

/-- `queued`, `running` or `cancelling`. -/
def RunStatus.active (status : RunStatus) : Bool :=
  status = .queued ∨ status = .running ∨ status = .cancelling

inductive CanonicalStatus where
  | pending
  | ready
  | partialResult
  | failed
  | cancelled
  deriving DecidableEq

/-- A row of `data_sync_runs`. -/
structure RunRow where
  id : String
  status : RunStatus
  taskId : Option String
  cancelRequested : Bool
  canonicalStatus : CanonicalStatus
  deriving DecidableEq

inductive ItemStatus where
  | queued
  | checking
  | running
  | success
  | partialResult
  | failed
  | paused
  | skipped
  | cancelled
  deriving DecidableEq

structure Checkpoint where
  index : ℕ
  total : ℕ
  failed : ℕ
  deriving DecidableEq

/-- A row of `data_sync_items`. -/
structure Item where
  datasetKey : String
  status : ItemStatus
  processed : ℕ
  inserted : ℕ
  updated : ℕ
  failed : ℕ
  checkpoint : Option Checkpoint
  /-- The error tells of a lost database connection. -/
  connectionLost : Bool
  deriving DecidableEq

/-- The datasets whose failed work stays open at the end of a checkpoint. -/
def openWorkDatasets : List String := ["daily", "adj_factor", "suspend_d", "stk_limit"]

/-- `_checkpoint_complete` -/
def Item.checkpointComplete (item : Item) : Bool :=
  match item.checkpoint with
  | none => false
  | some checkpoint =>
    (item.datasetKey ∉ openWorkDatasets ∨
        (if item.failed = 0 then checkpoint.failed else item.failed) = 0) ∧
      0 < checkpoint.total ∧ checkpoint.total ≤ checkpoint.index

/-! ## Writing an item -/

/-- The fields that a call of `_item` names. -/
structure ItemFields where
  status : Option ItemStatus
  processed : Option ℕ
  inserted : Option ℕ
  updated : Option ℕ
  failed : Option ℕ
  checkpoint : Option Checkpoint
  connectionLost : Option Bool
  deriving DecidableEq

/-- A status, and an error that tells of nothing. -/
def ItemFields.ofStatus (status : ItemStatus) : ItemFields :=
  ⟨some status, none, none, none, none, none, some false⟩

/-- The first block of `_item` with a checkpoint: an older one is not written, and counters do not
fall. -/
def ItemFields.afterRead (fields : ItemFields) (existing : Option Item) : Option ItemFields :=
  match fields.checkpoint with
  | none => some fields
  | some checkpoint =>
    let previous := ((existing.bind Item.checkpoint).map Checkpoint.index).getD 0
    if checkpoint.index < previous then none
    else
      some
        { fields with
          processed := fields.processed.map (max ((existing.map Item.processed).getD 0))
          inserted := fields.inserted.map (max ((existing.map Item.inserted).getD 0))
          updated := fields.updated.map (max ((existing.map Item.updated).getD 0))
          failed := fields.failed.map (max ((existing.map Item.failed).getD 0)) }

/-- What is written over a row. -/
def ItemFields.over (fields : ItemFields) (item : Item) : Item :=
  { item with
    status := fields.status.getD item.status
    processed := fields.processed.getD item.processed
    inserted := fields.inserted.getD item.inserted
    updated := fields.updated.getD item.updated
    failed := fields.failed.getD item.failed
    checkpoint := fields.checkpoint.or item.checkpoint
    connectionLost := fields.connectionLost.getD item.connectionLost }

/-- The last block of `_item`. -/
def writeItem (items : List Item) (datasetKey : String) (fields : ItemFields) : List Item :=
  items.map (fun item => if item.datasetKey = datasetKey then fields.over item else item)

/-! ## Ownership -/

/-- `_cancelled` -/
def isCancelled (run : RunRow) (taskId : Option String) : Bool :=
  if taskId.isSome ∧ run.taskId ≠ taskId then true
  else run.cancelRequested || run.status = .cancelled

/-- `_current_task` -/
def currentTask (run : RunRow) (taskId : Option String) : Bool :=
  taskId.isNone || run.taskId = taskId

/-! ## Other transactions on a run -/

/-- `bind_task` -/
def bindTask (run : RunRow) (taskId : String) : RunRow := { run with taskId := some taskId }

/-- `queue_stale_run_for_recovery` -/
def queueStaleRunForRecovery (run : RunRow) : RunRow :=
  if (run.status = .queued ∨ run.status = .running) ∧ ¬ run.cancelRequested then
    { run with status := .queued }
  else run

/-- The first block of `request_cancel`. -/
def requestCancelling (run : RunRow) : RunRow :=
  if run.status.active then { run with cancelRequested := true, status := .cancelling } else run

/-- The last block of `request_cancel`, on the run. -/
def confirmCancelled (run : RunRow) : RunRow :=
  if run.status.active then { run with cancelRequested := true, status := .cancelled } else run

/-- The last block of `request_cancel`, on an item. -/
def cancelItem (item : Item) : Item :=
  if item.status = .queued ∨ item.status = .running ∨ item.status = .checking then
    { item with status := .cancelled }
  else item

/-! ## Resuming -/

/-- What `prepare_resume` asks besides the rows of the run. -/
structure ResumeContext where
  /-- The base mode is `incremental`. -/
  refreshCompletedCatalogs : Bool
  /-- The dataset has a date field. -/
  dated : String → Bool
  /-- The instruments of `suspend_d` that have failed. -/
  retryCount : ℕ

/-- The item has a checkpoint that is not complete. -/
def Item.incomplete (item : Item) : Bool := item.checkpoint.isSome && !item.checkpointComplete

/-- `reset_items` -/
def Item.reset (item : Item) : Bool :=
  (item.status = .failed ∧ ¬ (item.datasetKey = "daily" ∧ item.checkpoint.isSome ∧
      (item.failed = 0 ∨ item.connectionLost))) ∨
    (item.status = .partialResult ∧ ¬ item.checkpointComplete) ∨
    (item.datasetKey = "daily" ∧ 0 < item.failed ∧
      ¬ (item.checkpoint.isSome ∧ item.connectionLost))

def Item.requeue (item : Item) : Item :=
  { item with status := .queued, failed := 0, connectionLost := false }

/-- Queued again from the start. -/
def Item.restart (item : Item) (checkpoint : Option Checkpoint) : Item :=
  { item with
    status := .queued
    processed := 0
    inserted := 0
    updated := 0
    failed := 0
    checkpoint := checkpoint
    connectionLost := false }

def resetItem (context : ResumeContext) (item : Item) : Item :=
  if item.datasetKey = "adj_factor" then item.requeue
  else if item.datasetKey = "suspend_d" ∧ 0 < context.retryCount then
    item.restart (some ⟨0, context.retryCount, 0⟩)
  else item.restart none

/-- The updates of `prepare_resume` on an item, of which `seen` was read before. -/
def resumeItem (context : ResumeContext) (seen : Option Item) (item : Item) : Item :=
  let woken :=
    if item.status = .cancelled then { item with status := .queued, connectionLost := false }
    else if item.status = .paused then item.requeue
    else item
  match seen with
  | none => woken
  | some seen =>
    let queued := if seen.incomplete then woken.requeue else woken
    let reset := if seen.reset then resetItem context queued else queued
    if context.refreshCompletedCatalogs ∧ (seen.status = .success ∨ seen.status = .partialResult) ∧
        seen.checkpointComplete ∧ context.dated seen.datasetKey then
      reset.restart none
    else reset

def resumeItems (context : ResumeContext) (seen items : List Item) : List Item :=
  items.map (fun item => resumeItem context (find Item.datasetKey seen item.datasetKey) item)

/-- What `prepare_resume` writes on the run. -/
def resumeRun (run : RunRow) : RunRow := { run with status := .queued, cancelRequested := false }

end LocalPlatform.DataSync
