import LocalPlatform.Experiments.Evolution
import LocalPlatform.Lib.Interleaving

/-!
# The calls on a batch, transaction by transaction

The web process, the workers and the dispatch tasks call `dispatch_window`,
`reconcile_backtest` and `cancel` at the same time.  `BatchTask` has one task for
each `db()` block of these calls, with the values that the call has read so far.

* `taskStep` runs a task, and `batchWorld` the tasks of all calls in any order.
* `Transactional.world` carries a preorder of the transactions over to these orders.
* What happens between two blocks (`create_backtest_job`, `apply_async`) touches no
  row of the batch.
-/

namespace LocalPlatform.Experiments

open Paper Transaction Transaction.TxM Machines Interleavings

/-! ## Tasks -/

/-- The blocks of a call. -/
inductive BatchTask where
  /-- `refresh` reads the batch and its items. -/
  | refresh
  /-- The windows that a selection has still to look at. -/
  | select (batch : Batch) (items : List BatchItem) (keys : List WindowKey) (changed : Bool)
  /-- `refresh` reads the items again. -/
  | recount (batch : Batch)
  | publish (batch : Batch) (status : String)
  | certify
  /-- The end of `detail` in `dispatch_window`. -/
  | snapshot (env : DispatchEnv)
  | claim (env : DispatchEnv) (batch : Batch) (item : BatchItem)
  | recordResearch (env : DispatchEnv) (item : BatchItem)
  | createRun (env : DispatchEnv) (item : BatchItem)
  | recordFailure (item : BatchItem) (runId taskId message : String)
  | recordRun (env : DispatchEnv) (item : BatchItem) (runId taskId : String)
  | markQueued (runId : String)
  | failRun (runId message : String)
  /-- `reconcile_backtest` reads the run.  An error of it can be swallowed. -/
  | reconcile (runId : String) (swallowed : Bool)
  | reconcileItem (run : BacktestRun) (itemId : Nat) (swallowed : Bool)
  | persist (run : BacktestRun) (itemId : Nat)
  /-- The worker of a run writes its row. -/
  | report (runId status : String) (error : Option String) (statistics : Statistics)
  /-- The end of `detail` in `cancel`. -/
  | cancelSnapshot
  | cancelItems (runIds : List String)
  | cancelRun (runId : String)
  | markCancelled (runId : String)
  /-- The end of `detail` in `retry_failed`. -/
  | retrySnapshot (env : DispatchEnv)
  /-- The end of `detail` in `restart_cancelled`. -/
  | restartSnapshot (env : DispatchEnv)
  | requeue (statuses : List ItemStatus)

/-- A block that can raise: the database and the tasks after it, or the end of the
call. -/
def afterBlock {α : Type} (db : ExperimentDb) (result : Except BatchError (α × ExperimentDb))
    (tasks : α → List BatchTask) : ExperimentDb × Option (List BatchTask) :=
  match result with
  | .ok (a, db') => (db', some (tasks a))
  | .error _ => (db, none)

/-- What is left of `refresh` after the selection. -/
def publishTasks (batch : Batch) (items : List BatchItem) (changed : Bool) : List BatchTask :=
  if changed then [.recount batch]
  else [.publish batch (refreshStatus batch.cancelRequested items)]

/-- The items that `dispatch_window` takes from the items it read. -/
def takenItems (window : Nat) (items : List BatchItem) : List BatchItem :=
  (items.filter (fun item => item.status == .pending)).take
    (window - items.countP (fun item => item.status ∈ active))

/-- What is left of `dispatch_window` after its snapshot. -/
def dispatchTasks (env : DispatchEnv) (batch : Batch) (items : List BatchItem) : List BatchTask :=
  if batch.cancelRequested ∨ batch.status ∈ terminalStatuses then []
  else (takenItems env.window items).map (.claim env batch) ++ [.refresh]

/-- The runs that `cancel` goes on to cancel. -/
def activeRuns (items : List BatchItem) : List String :=
  (items.filter (fun item => item.status ∈ active)).filterMap (fun item =>
    item.relatedId.filter (· ≠ ""))

/-- What is left of `reconcile_backtest` after it read the run. -/
def reconcileTasks (run : Option BacktestRun) (swallowed : Bool) : List BatchTask :=
  match run with
  | none => []
  | some run =>
    match run.batchItemId with
    | none => []
    | some itemId => [.reconcileItem run itemId swallowed]

/-- Run a block. -/
def taskStep : TaskStep ExperimentDb BatchTask
  | .refresh, db =>
    if db.batch.mode ≠ "walk_forward" ∨ db.batch.cancelRequested then
      (db, some (publishTasks db.batch db.items false))
    else (db, some [.select db.batch db.items (groupKeys db.items) false])
  | .select batch items [] changed, db => (db, some (publishTasks batch items changed))
  | .select batch items (key :: keys) changed, db =>
    afterBlock db (freezeWindow batch.objective items key db)
      (fun frozen => [.select batch items keys (changed || frozen)])
  | .recount batch, db =>
    (db, some [.publish batch (refreshStatus batch.cancelRequested db.items)])
  | .publish batch status, db =>
    (storeStatus status db,
      some (if status = "success" ∧ batch.mode = "walk_forward" then [.certify] else []))
  | .certify, db => afterBlock db (issueCertificate db) (fun _ => [])
  | .snapshot env, db => (db, some (dispatchTasks env db.batch db.items))
  | .claim env batch item, db =>
    afterBlock db (claimItem item.id db) (fun claimed =>
      if claimed then
        if batch.kind = "research" then [.recordResearch env item] else [.createRun env item]
      else [])
  | .recordResearch env item, db =>
    match env.publish item.id with
    | .error message => (recordAttempt item none none .failed (some message) db, some [])
    | .ok taskId => (recordAttempt item none (some taskId) .queued none db, some [])
  | .createRun env item, db =>
    match env.createRun item.id with
    | .error message =>
      (addRun { id := (env.failedRun item.id).1, taskId := (env.failedRun item.id).2,
                status := "failed", error := some message } db,
        some [.recordFailure item (env.failedRun item.id).1 (env.failedRun item.id).2 message])
    | .ok (runId, taskId) =>
      (addRun { id := runId, taskId := taskId, status := "created" } db,
        some [.recordRun env item runId taskId])
  | .recordFailure item runId taskId message, db =>
    (recordAttempt item (some runId) (some taskId) .failed (some message) db, some [])
  | .recordRun env item runId taskId, db =>
    (recordAttempt item (some runId) (some taskId) .queued none
        (updateRun runId (fun run => { run with batchItemId := some item.id }) db),
      some (match env.publish item.id with
        | .error message => [.failRun runId message, .reconcile runId false]
        | .ok _ => [.markQueued runId]))
  | .markQueued runId, db =>
    (updateRun runId (fun run => { run with status := "queued" }) db, some [])
  | .failRun runId message, db =>
    (updateRun runId (fun run => { run with status := "failed", error := some message }) db,
      some [])
  | .reconcile runId swallowed, db =>
    (db, some (reconcileTasks (db.backtest runId) swallowed))
  | .reconcileItem run itemId swallowed, db =>
    match Experiments.reconcileItem run itemId db with
    | .ok (_, db') => (db', some [.persist run itemId])
    | .error _ => (db, if swallowed then some [] else none)
  | .persist run itemId, db => (persistOosEvaluation itemId run db, some [])
  | .report runId status error statistics, db =>
    (updateRun runId (fun run =>
      { run with status := status, error := error, statistics := statistics }) db, some [])
  | .cancelSnapshot, db => (db, some [.cancelItems (activeRuns db.items)])
  | .cancelItems runIds, db =>
    (Experiments.cancelItems db, some (runIds.map .cancelRun ++ [.refresh]))
  | .cancelRun runId, db =>
    match db.backtest runId with
    | none => (db, none)
    | some run =>
      (db, some (if runIsTerminal run.status then []
        else [.markCancelled runId, .reconcile runId true]))
  | .markCancelled runId, db =>
    (updateRun runId (fun run =>
      { run with status := "cancelled", error := some "Cancellation requested by user." }) db,
      some [])
  | .retrySnapshot env, db =>
    (db,
      if db.batch.status ∉ finishedStatuses ∨
          ¬ db.items.any (fun item => item.status == .failed) then none
      else some [.requeue [.failed], .refresh, .snapshot env])
  | .restartSnapshot env, db =>
    (db,
      if ¬ db.batch.cancelRequested ∨ db.batch.status ∉ finishedStatuses ∨
          ¬ db.items.any (fun item => item.status ∈ restartable) then none
      else some [.requeue restartable, .refresh, .snapshot env])
  | .requeue statuses, db => (requeueItems statuses db, some [])

/-! ## Calls -/

/-- A call on the batch, or the worker of a run that reports. -/
inductive BatchCall where
  | refresh
  | dispatchWindow (env : DispatchEnv)
  | deliver (runId status : String) (error : Option String) (statistics : Statistics)
  | cancel
  | retryFailed (env : DispatchEnv)
  | restartCancelled (env : DispatchEnv)

/-- The blocks that a call begins with. -/
def BatchCall.tasks : BatchCall → List BatchTask
  | .refresh => [.refresh]
  | .dispatchWindow env => [.refresh, .snapshot env]
  | .deliver runId status error statistics =>
    [.report runId status error statistics, .reconcile runId false]
  | .cancel => [.refresh, .cancelSnapshot]
  | .retryFailed env => [.refresh, .retrySnapshot env]
  | .restartCancelled env => [.refresh, .restartSnapshot env]

abbrev BatchWorld := World ExperimentDb BatchTask

/-- Every order of the blocks of every number of calls. -/
abbrev batchWorld : Machine BatchWorld (WorldAction BatchCall) :=
  worldMachine taskStep BatchCall.tasks

def quietWorld (db : ExperimentDb) : BatchWorld where
  db := db
  calls := []

/-- Every block stays within a preorder of the transactions. -/
theorem Transactional.task {R : ExperimentDb → ExperimentDb → Prop} (h : Transactional R)
    (task : BatchTask) (db : ExperimentDb) : R db (taskStep task db).1 := by
  have hfailed : ItemStatus.failed ≠ .blockedSelection := by decide
  have hqueued : ItemStatus.queued ≠ .blockedSelection := by decide
  cases task with
  | refresh =>
    simp only [taskStep]
    split_ifs <;> exact h.refl db
  | select batch items keys changed =>
    cases keys with
    | nil => exact h.refl db
    | cons key keys =>
      simp only [taskStep]
      unfold afterBlock
      cases hrun : freezeWindow batch.objective items key db with
      | error e => exact h.refl db
      | ok result =>
        rcases freezeWindow_cases hrun with ⟨-, hsame⟩ | ⟨-, selected, ranking, oos, hstep⟩
        · show R db result.2
          rw [hsame]
          exact h.refl db
        · exact h.freeze hstep
  | recount batch => exact h.refl db
  | publish batch status => exact h.storeStatus status db
  | certify =>
    simp only [taskStep]
    unfold afterBlock
    cases hrun : issueCertificate db with
    | error e => exact h.refl db
    | ok result => exact h.issueCertificate hrun
  | snapshot env => exact h.refl db
  | claim env batch item =>
    simp only [taskStep]
    unfold afterBlock
    cases hrun : Experiments.claimItem item.id db with
    | error e => exact h.refl db
    | ok result => exact h.claimItem hrun
  | recordResearch env item =>
    simp only [taskStep]
    cases env.publish item.id with
    | error message => exact h.recordAttempt item _ _ hfailed _ db
    | ok taskId => exact h.recordAttempt item _ _ hqueued _ db
  | createRun env item =>
    simp only [taskStep]
    cases env.createRun item.id with
    | error message => exact h.runs db _
    | ok created => exact h.runs db _
  | recordFailure item runId taskId message => exact h.recordAttempt item _ _ hfailed _ db
  | recordRun env item runId taskId =>
    exact h.trans _ _ _ (h.runs db _) (h.recordAttempt item _ _ hqueued _ _)
  | markQueued runId => exact h.runs db _
  | failRun runId message => exact h.runs db _
  | reconcile runId swallowed => exact h.refl db
  | reconcileItem run itemId swallowed =>
    simp only [taskStep]
    cases hrun : Experiments.reconcileItem run itemId db with
    | error e => exact h.refl db
    | ok result => exact h.reconcileItem hrun
  | persist run itemId => exact h.persistOosEvaluation itemId run db
  | report runId status error statistics => exact h.runs db _
  | cancelSnapshot => exact h.refl db
  | cancelItems runIds => exact h.cancelItems db
  | cancelRun runId =>
    simp only [taskStep]
    cases db.backtest runId <;> exact h.refl db
  | markCancelled runId => exact h.runs db _
  | retrySnapshot env => exact h.refl db
  | restartSnapshot env => exact h.refl db
  | requeue statuses => exact h.requeueItems statuses db

theorem Transactional.world {R : ExperimentDb → ExperimentDb → Prop} (h : Transactional R) :
    ∀ (actions : List (WorldAction BatchCall)) (world : BatchWorld),
      R world.db (batchWorld.after world actions).db := by
  intro actions
  induction actions with
  | nil => exact fun world => h.refl world.db
  | cons action actions ih =>
    intro world
    refine h.trans _ _ _ ?_ (ih _)
    cases action with
    | start call => exact h.refl world.db
    | run index =>
      rcases World.run_cases taskStep BatchCall.tasks world index with
        hsame | ⟨task, rest, -, hnext⟩
      · show R world.db (world.next taskStep BatchCall.tasks (.run index)).db
        rw [hsame]
        exact h.refl world.db
      · show R world.db (world.next taskStep BatchCall.tasks (.run index)).db
        rw [hnext]
        exact h.task task world.db

theorem reconcileBacktest_state (runId : String) (db : ExperimentDb) :
    (reconcileBacktest runId db).state =
      match db.backtest runId with
      | none => db
      | some run =>
        match run.batchItemId with
        | none => db
        | some itemId =>
          match Experiments.reconcileItem run itemId db with
          | .ok (_, db') => persistOosEvaluation itemId run db'
          | .error _ => db := by
  show ((TxM.read _ >>= _) db).state = _
  rw [bind_ok (a := db.backtest runId) rfl]
  cases db.backtest runId with
  | none => rfl
  | some run =>
    show ((match run.batchItemId with | none => _ | some itemId => _ :
      TxM ExperimentDb BatchError Unit) db).state = _
    simp only
    cases run.batchItemId with
    | none => rfl
    | some itemId =>
      show ((TxM.tx _ >>= _) db).state = _
      simp only
      cases hrun : Experiments.reconcileItem run itemId db with
      | error e => rw [bind_error (e := e) (by unfold TxM.tx; rw [hrun])]; unfold TxM.tx; rw [hrun]
      | ok result =>
        rw [bind_ok (a := result.1) (by unfold TxM.tx; rw [hrun])]
        unfold TxM.tx
        rw [hrun]

/-- In every order of the blocks of any calls the plan stays, and a selection event is for good. -/
theorem batchWorld_evolves (actions : List (WorldAction BatchCall)) (world : BatchWorld) :
    Evolves world.db (batchWorld.after world actions).db ∧
      ∀ key event, world.db.event key = some event →
        (batchWorld.after world actions).db.event key = some event := by
  have hevolves := transactional_evolves.world actions world
  exact ⟨hevolves, fun key event hevent => hevolves.event hevent⟩

end LocalPlatform.Experiments
