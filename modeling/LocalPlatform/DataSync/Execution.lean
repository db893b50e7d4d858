import LocalPlatform.DataSync.Runs
import LocalPlatform.Lib.Machine

/-!
# Executions of a data synchronisation

`run_sync` block by block.  An execution has the task id that it was called with and the place that
it has come to; a step of it is one `db()` block, or what it does between two of them.

* A dataset is a `Dataset`: the reads of ownership and the writes of its item that its function
  makes, whatever the provider answers, and how it ends.
* `Input` has what a step learns from elsewhere: what is probed and planned, whether datasets are
  degraded, and whether something raises.
* Executions run beside the transactions of `LocalPlatform.DataSync.Runs`, one block at a time.
-/

namespace LocalPlatform.DataSync

open Tables Machines

/-! ## Datasets -/

/-- Counters that the function of a dataset returns. -/
structure Counters where
  processed : ℕ
  inserted : ℕ
  updated : ℕ
  failed : ℕ
  deriving DecidableEq

/-- What the function of a dataset does on the rows of its run. -/
inductive Dataset where
  | returns (counters : Counters)
  /-- With an error that tells of a lost connection, or another one. -/
  | raises (infrastructure : Bool)
  | cancelled (next : Bool → Dataset)
  | currentTask (next : Bool → Dataset)
  /-- A call of `_item`. -/
  | item (fields : ItemFields) (next : Dataset)
  /-- The last block of such a call. -/
  | store (fields : ItemFields) (next : Dataset)

/-- One block: the items afterwards, and what is left to do. -/
def Dataset.step (run : RunRow) (items : List Item) (taskId : Option String) (key : String) :
    Dataset → List Item × Dataset
  | .returns counters => (items, .returns counters)
  | .raises infrastructure => (items, .raises infrastructure)
  | .cancelled next => (items, next (isCancelled run taskId))
  | .currentTask next => (items, next (DataSync.currentTask run taskId))
  | .item fields next =>
    match fields.checkpoint with
    | none => (writeItem items key fields, next)
    | some _ =>
      match fields.afterRead (find Item.datasetKey items key) with
      | none => (items, next)
      | some read => (items, .store read next)
  | .store fields next => (writeItem items key fields, next)

/-! ## Executions -/

/-- A dataset of the run, and whether policy and permission let it be fetched. -/
abbrev Planned := String × Bool

/-- Where an execution is. -/
inductive Place where
  | start
  /-- Disk, audit, and which permissions are probed. -/
  | prepare
  | probe (keys : List String)
  | probeRead (key : String) (keys : List String)
  | probeMark (key : String) (keys : List String)
  | probeAsk (key : String) (preserve : Bool) (keys : List String)
  | probeQueue (key : String) (keys : List String)
  | load
  | loop (completed : List String) (rest : List Planned)
  | skip (key : String) (completed : List String) (rest : List Planned)
  | begin (key : String) (completed : List String) (rest : List Planned)
  | dataset (key : String) (program : Dataset) (completed : List String) (rest : List Planned)
  | returned (key : String) (counters : Counters) (completed : List String) (rest : List Planned)
  | cancelCheck (key : String) (counters : Counters) (completed : List String) (rest : List Planned)
  | recordCancelled (key : String) (counters : Counters) (completed : List String)
      (rest : List Planned)
  | record (key : String) (counters : Counters) (completed : List String) (rest : List Planned)
  /-- `_set_catalog_coverage` -/
  | cover (key : String) (completed : List String) (rest : List Planned)
  | failing (key : String) (infrastructure : Bool) (completed : List String) (rest : List Planned)
  | pause
  | closing (blocking : Bool)
  | finish (status : RunStatus)
  | crashed
  | done

/-- What a step learns from elsewhere. -/
inductive Input where
  | nothing
  | raised
  | probes (keys : List String)
  | plan (datasets : List Planned)
  | program (dataset : Dataset)
  /-- A dataset has failures, or the evidence is not complete. -/
  | degraded (value : Bool)

structure Execution where
  taskId : Option String
  place : Place

/-- The rows of a run. -/
structure Rows where
  run : RunRow
  items : List Item

/-- An update of the run that asks for the task id, if the execution has one. -/
def guarded (taskId : Option String) (run updated : RunRow) : RunRow :=
  if taskId.isSome ∧ run.taskId ≠ taskId then run else updated

/-- `item["status"] == "success"`, or partial with a complete checkpoint. -/
def Item.done (item : Item) : Bool :=
  item.status = .success ∨ item.status = .partialResult ∧ item.checkpointComplete

/-- The fields of a dataset that has ended. -/
def Counters.fields (counters : Counters) (status : ItemStatus) : ItemFields where
  status := some status
  processed := some counters.processed
  inserted := some counters.inserted
  updated := some counters.updated
  failed := some counters.failed
  checkpoint := none
  connectionLost := some false

/-- The fields of a dataset that has raised. -/
def failureFields (infrastructure : Bool) : ItemFields where
  status := some (if infrastructure then .paused else .failed)
  processed := none
  inserted := none
  updated := none
  failed := some (if infrastructure then 0 else 1)
  checkpoint := none
  connectionLost := some infrastructure

/-- The datasets without which no other one is synchronised. -/
def requiredDatasets : List String := ["stock_basic", "trade_cal"]

def finalStatus (cancelled blocking degraded : Bool) : RunStatus :=
  if cancelled then .cancelled
  else if blocking then .failed
  else if degraded then .partialResult
  else .success

def finalCanonicalStatus : RunStatus → CanonicalStatus
  | .cancelled => .cancelled
  | .failed => .failed
  | .partialResult => .partialResult
  | _ => .ready

/-- The first block. -/
def startRun (rows : Rows) (taskId : Option String) : Rows × Place :=
  if taskId.isSome ∧ rows.run.taskId ≠ taskId then (rows, .done)
  else if rows.run.cancelRequested ∨ rows.run.status = .cancelled then (rows, .done)
  else if rows.run.status ≠ .queued ∧ rows.run.status ≠ .running then (rows, .done)
  else ({ rows with run := { rows.run with status := .running } }, .prepare)

/-- The row of an item is written, and the execution goes on elsewhere. -/
def Rows.write (rows : Rows) (key : String) (fields : ItemFields) (place : Place) : Rows × Place :=
  ({ rows with items := writeItem rows.items key fields }, place)

/-- The run is written under the task id. -/
def Rows.close (rows : Rows) (taskId : Option String) (status : RunStatus)
    (canonicalStatus : CanonicalStatus) : Rows × Place :=
  ({ rows with
      run := guarded taskId rows.run
        { rows.run with status := status, canonicalStatus := canonicalStatus } }, .done)

/-- Where an exception leads: out of a dataset, to its item; elsewhere, to the end of the run. -/
def Place.raise : Place → Place
  | .start => .start
  | .done => .done
  | .crashed => .crashed
  | .returned key _ completed rest => .failing key false completed rest
  | .cancelCheck key _ completed rest => .failing key false completed rest
  | .recordCancelled key _ completed rest => .failing key false completed rest
  | .record key _ completed rest => .failing key false completed rest
  | .cover key completed rest => .failing key false completed rest
  | .dataset key _ completed rest => .failing key false completed rest
  | _ => .crashed

/-- One step from a place, with nothing raised. -/
def proceed (rows : Rows) (taskId : Option String) (input : Input) : Place → Rows × Place
  | .start => startRun rows taskId
  | .prepare =>
    match input with
    | .probes keys => (rows, .probe keys)
    | _ => (rows, .prepare)
  | .probe [] => (rows, .load)
  | .probe (key :: keys) =>
    (rows, if isCancelled rows.run taskId then .load else .probeRead key keys)
  | .probeRead key keys =>
    (rows, if (find Item.datasetKey rows.items key).any Item.done then .probeAsk key true keys
      else .probeMark key keys)
  | .probeMark key keys => rows.write key (.ofStatus .checking) (.probeAsk key false keys)
  | .probeAsk key preserve keys =>
    (rows, if ¬ isCancelled rows.run taskId ∧ ¬ preserve then .probeQueue key keys
      else .probe keys)
  | .probeQueue key keys =>
    rows.write key ⟨some .queued, none, none, none, none, none, none⟩ (.probe keys)
  | .load =>
    match input with
    | .plan datasets =>
      (rows, .loop ((rows.items.filter Item.done).map Item.datasetKey) datasets)
    | _ => (rows, .load)
  | .loop _ [] => (rows, .closing false)
  | .loop completed ((key, fetched) :: rest) =>
    (rows,
      if isCancelled rows.run taskId then .closing false
      else if key ∈ completed then .loop completed rest
      else if fetched then .begin key completed rest
      else .skip key completed rest)
  | .skip key completed rest => rows.write key (.ofStatus .skipped) (.loop completed rest)
  | .begin key completed rest =>
    match input with
    | .program dataset =>
      rows.write key (.ofStatus .running) (.dataset key dataset completed rest)
    | _ => (rows, .begin key completed rest)
  | .dataset key (.returns counters) completed rest => (rows, .returned key counters completed rest)
  | .dataset key (.raises infrastructure) completed rest =>
    (rows, .failing key infrastructure completed rest)
  | .dataset key program completed rest =>
    let (items, program) := program.step rows.run rows.items taskId key
    ({ rows with items := items }, .dataset key program completed rest)
  | .returned key counters completed rest =>
    (rows, if isCancelled rows.run taskId then .cancelCheck key counters completed rest
      else .record key counters completed rest)
  | .cancelCheck key counters completed rest =>
    (rows, if currentTask rows.run taskId then .recordCancelled key counters completed rest
      else .closing false)
  | .recordCancelled key counters _ _ =>
    rows.write key (counters.fields .cancelled) (.closing false)
  | .record key counters completed rest =>
    rows.write key (counters.fields (if counters.failed = 0 then .success else .partialResult))
      (.cover key completed rest)
  | .cover _ completed rest => (rows, .loop completed rest)
  | .failing key infrastructure completed rest =>
    rows.write key (failureFields infrastructure)
      (if infrastructure then .pause
        else if key ∈ requiredDatasets then .closing true
        else .loop completed rest)
  | .pause => rows.close taskId .paused .partialResult
  | .closing blocking =>
    match input with
    | .degraded degraded =>
      (rows, .finish (finalStatus (isCancelled rows.run taskId) blocking degraded))
    | _ => (rows, .closing blocking)
  | .finish status => rows.close taskId status (finalCanonicalStatus status)
  | .crashed => rows.close taskId .failed .failed
  | .done => (rows, .done)

/-- One step of an execution. -/
def Execution.step (execution : Execution) (rows : Rows) (input : Input) : Rows × Execution :=
  match input with
  | .raised => (rows, { execution with place := execution.place.raise })
  | input =>
    let (after, place) := proceed rows execution.taskId input execution.place
    (after, { execution with place := place })

/-! ## One run -/

structure State where
  rows : Rows
  executions : List Execution
  /-- A cancellation is through, and the run was not resumed since. -/
  cancelled : Bool

inductive Action where
  /-- `run_sync` is called. -/
  | execute (taskId : Option String)
  | step (index : ℕ) (input : Input)
  | bindTask (taskId : String)
  | queueStale
  | requestCancelling
  | confirmCancelled
  | resume (context : ResumeContext) (seen : List Item)

def State.next (s : State) : Action → State
  | .execute taskId => { s with executions := s.executions ++ [⟨taskId, .start⟩] }
  | .step index input =>
    match s.executions[index]? with
    | none => s
    | some execution =>
      let (rows, after) := execution.step s.rows input
      { s with rows := rows, executions := s.executions.set index after }
  | .bindTask taskId => { s with rows := { s.rows with run := bindTask s.rows.run taskId } }
  | .queueStale => { s with rows := { s.rows with run := queueStaleRunForRecovery s.rows.run } }
  | .requestCancelling => { s with rows := { s.rows with run := requestCancelling s.rows.run } }
  | .confirmCancelled =>
    let run := confirmCancelled s.rows.run
    { s with
      rows := ⟨run, s.rows.items.map cancelItem⟩
      cancelled := s.cancelled || run.status = .cancelled }
  | .resume context seen =>
    { s with
      rows := ⟨resumeRun s.rows.run, resumeItems context seen s.rows.items⟩
      cancelled := false }

def synchronisation : Machine State Action where
  allowed := fun _ _ => True
  next := State.next

end LocalPlatform.DataSync
