import LocalPlatform.Lib.Machine

/-!
# Research runs

A research run is a row and its items.  Three functions write them while others run.

* `execute_analysis_run` reads the row, writes `running`, analyses, asks whether it was cancelled,
  and writes `success`; what is raised on the way is written as `failed` or `cancelled`.
* `cancel_run` reads the row and writes `cancelled`.
* `reconcile_research_runs` reads and writes in one block.

A `Place` is what a call does next, and a step of a call is one `db()` block or the analysis.  The
analysis polls `cancelled()` and writes nothing, so its end is any result and any error.  A call
that stops is one that takes no more steps.
-/

namespace LocalPlatform.Research

open Machines

/-! ## Rows -/

inductive RunStatus where
  | queued
  | running
  | success
  | failed
  | cancelled
  deriving DecidableEq

/-- `status in ('queued','running')` -/
def RunStatus.active : RunStatus → Bool
  | .queued | .running => true
  | .success | .failed | .cancelled => false

/-- `status in {"success", "failed", "cancelled"}` -/
def RunStatus.terminal (status : RunStatus) : Bool := !status.active

/-- What `analyze` returns: the fingerprint may be missing in it. -/
structure Analysis where
  payload : String
  summary : String
  dataFingerprint : Option String
  deriving DecidableEq

structure RunItem where
  status : RunStatus
  result : Option Analysis
  error : Option String
  startedAt : Option ℕ
  finishedAt : Option ℕ
  deriving DecidableEq

/-- A row of `research_runs`. -/
structure RunRow where
  asyncTemplate : Bool
  status : RunStatus
  cancelRequested : Bool
  taskId : Option String
  result : Option Analysis
  summary : Option String
  dataFingerprint : Option String
  error : Option String
  recoveryReason : Option String
  createdAt : ℕ
  startedAt : Option ℕ
  ownerHeartbeatAt : Option ℕ
  finishedAt : Option ℕ
  deriving DecidableEq

/-- The run and its items. -/
structure Rows where
  run : RunRow
  items : List RunItem
  deriving DecidableEq

/-! ## Blocks -/

/-- `cancelled()` -/
def Rows.cancelled (rows : Rows) : Bool :=
  rows.run.cancelRequested || rows.run.status = .cancelled

/-- The block that starts the analysis. -/
def Rows.start (rows : Rows) (now : ℕ) : Rows where
  run := { rows.run with
    status := .running, startedAt := some (rows.run.startedAt.getD now)
    ownerHeartbeatAt := some now, error := none }
  items := rows.items.map (fun item =>
    { item with status := .running, startedAt := some (item.startedAt.getD now), error := none })

/-- The block that stores a result. -/
def Rows.succeed (rows : Rows) (now : ℕ) (result : Analysis) (fingerprint : String) : Rows where
  run := { rows.run with
    status := .success, result := some result, summary := some result.summary
    dataFingerprint := some fingerprint, ownerHeartbeatAt := some now, finishedAt := some now }
  items := rows.items.map (fun item =>
    { item with status := .success, result := some result, finishedAt := some now })

/-- The block that stores what was raised. -/
def Rows.close (rows : Rows) (now : ℕ) (status : RunStatus) (error : Option String) : Rows where
  run := { rows.run with
    status := status, error := error, ownerHeartbeatAt := some now, finishedAt := some now }
  items := rows.items.map (fun item =>
    { item with status := status, error := error, finishedAt := some now })

/-- The block of `cancel_run`. -/
def Rows.cancel (rows : Rows) (now : ℕ) : Rows where
  run := { rows.run with status := .cancelled, cancelRequested := true, finishedAt := some now }
  items := rows.items.map (fun item =>
    if item.status.active then { item with status := .cancelled, finishedAt := some now } else item)

/-- `coalesce(run.owner_heartbeat_at,run.started_at,run.created_at)` -/
def RunRow.heartbeat (run : RunRow) : ℕ :=
  run.ownerHeartbeatAt.getD (run.startedAt.getD run.createdAt)

/-- The status and the reason that a reconciliation writes, if it has one.  `task` is the status in
the row of the run's task. -/
def recovery (task : Option String) : Option (RunStatus × String) :=
  match task with
  | none => some (.failed, "owner_task_missing")
  | some status =>
    if status ∈ ["success", "failed", "cancelled"] then
      some (if status = "cancelled" then .cancelled else .failed,
        s!"owner_task_{status}_domain_active")
    else none

/-- `reconcile_research_runs`, of one run. -/
def Rows.reconcile (rows : Rows) (now cutoff : ℕ) (taskStatus : Option String) : Rows :=
  if rows.run.status.active ∧ rows.run.heartbeat < cutoff then
    match recovery (rows.run.taskId.bind (fun _ => taskStatus)) with
    | none => rows
    | some (status, reason) =>
      let message := s!"Reconciled active Research run: {reason}."
      { run := { rows.run with
          status := status, recoveryReason := some reason
          error := some (rows.run.error.getD message)
          finishedAt := some (rows.run.finishedAt.getD now) }
        items := rows.items.map (fun item =>
          if item.status.active then
            { item with
              status := status, error := some (item.error.getD message)
              finishedAt := some (item.finishedAt.getD now) }
          else item) }
  else rows

/-! ## Calls -/

/-- What a call does next. -/
inductive Place where
  /-- `execute_analysis_run`: the read of the row. -/
  | reading
  | starting
  | analysing
  /-- `cancelled()` after the analysis. -/
  | checking (result : Analysis)
  | succeeding (result : Analysis)
  /-- `cancelled()` of the exception handler. -/
  | judging (message : String)
  | closing (status : RunStatus) (error : Option String)
  /-- `cancel_run`: the read of the row. -/
  | readingCancel
  | cancelling
  | finished
  deriving DecidableEq

/-- What is not determined by the rows: the time, how the analysis ends, and whether the block
raises, in which case it writes nothing. -/
structure Input where
  now : ℕ
  outcome : Except String Analysis
  raised : Option String

/-- The handler of `execute_analysis_run`, up to its question whether the run is cancelled. -/
def handle (message : String) : Place :=
  if message = "research_run_cancelled" then .closing .cancelled none else .judging message

def Place.onRaise (message : String) : Place → Place
  | .checking _ | .succeeding _ | .analysing => handle message
  | _ => .finished

/-- A step of a call: the rows after it, and what the call does next. -/
def Place.step (rows : Rows) (input : Input) (place : Place) : Rows × Place :=
  match input.raised with
  | some message => (rows, place.onRaise message)
  | none =>
    match place with
    | .reading =>
      (rows, if rows.run.status.terminal ∨ rows.run.asyncTemplate = false then .finished
        else .starting)
    | .starting => (rows.start input.now, .analysing)
    | .analysing =>
      (rows, match input.outcome with
        | .ok result => .checking result
        | .error message => handle message)
    | .checking result =>
      (rows, if rows.cancelled then handle "research_run_cancelled" else .succeeding result)
    | .succeeding result =>
      match result.dataFingerprint with
      | none => (rows, handle "'dataFingerprint'")
      | some fingerprint => (rows.succeed input.now result fingerprint, .finished)
    | .judging message =>
      (rows, if rows.cancelled then .closing .cancelled none else .closing .failed (some message))
    | .closing status error => (rows.close input.now status error, .finished)
    | .readingCancel => (rows, if rows.run.status.terminal then .finished else .cancelling)
    | .cancelling => (rows.cancel input.now, .finished)
    | .finished => (rows, .finished)

structure State where
  rows : Rows
  calls : List Place
  deriving DecidableEq

inductive Action where
  /-- A delivery of the task: a call of `execute_analysis_run`. -/
  | deliver
  /-- A call of `cancel_run`. -/
  | cancel
  | step (index : ℕ) (input : Input)
  | reconcile (now cutoff : ℕ) (taskStatus : Option String)

def State.next (s : State) : Action → State
  | .deliver => { s with calls := s.calls ++ [.reading] }
  | .cancel => { s with calls := s.calls ++ [.readingCancel] }
  | .step index input =>
    match s.calls[index]? with
    | none => s
    | some place =>
      { rows := (place.step s.rows input).1
        calls := s.calls.set index (place.step s.rows input).2 }
  | .reconcile now cutoff taskStatus => { s with rows := s.rows.reconcile now cutoff taskStatus }

/-- Every order of the blocks of every number of calls. -/
def researchMachine : Machine State Action where
  allowed := fun _ _ => True
  next := State.next

instance (s : State) (action : Action) : Decidable (researchMachine.allowed s action) :=
  .isTrue trivial

end LocalPlatform.Research
