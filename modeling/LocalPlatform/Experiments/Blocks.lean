import LocalPlatform.Experiments.Interleaving

/-!
# What a block does

`taskStep` runs a block on the whole database.  This module says once what a block
makes of one row and which blocks follow it, so that an invariant of the
interleaved calls is a case analysis on these.

* `RowChange` relates the row of an item before and after a block, and
  `taskStep_items` says that every row changes in such a way.
* `BatchTask.run` and `BatchTask.newRuns` are what a block makes of the runs.
* `BatchTask.newAttempt` is the row that a dispatch adds to the attempts.
* `Spawns` relates a block and the blocks that its call goes on with.
-/

namespace LocalPlatform.Experiments

open Transaction Interleavings Tables

/-! ## Attempts -/

/-- The row of `experiment_batch_attempts` that a block adds. -/
def BatchTask.newAttempt : BatchTask → Option ItemAttempt
  | .recordResearch env item =>
    match env.publish item.id with
    | .error message =>
      some { itemId := item.id, attempt := item.attempt + 1, relatedId := none, taskId := none,
             status := .failed, error := some message }
    | .ok taskId =>
      some { itemId := item.id, attempt := item.attempt + 1, relatedId := none,
             taskId := some taskId, status := .queued, error := none }
  | .recordFailure item runId taskId message =>
    some { itemId := item.id, attempt := item.attempt + 1, relatedId := some runId,
           taskId := some taskId, status := .failed, error := some message }
  | .recordRun _ item runId taskId =>
    some { itemId := item.id, attempt := item.attempt + 1, relatedId := some runId,
           taskId := some taskId, status := .queued, error := none }
  | _ => none

/-- The row of an item after its attempt is recorded. -/
def ItemAttempt.onItem (entry : ItemAttempt) (row : BatchItem) : BatchItem :=
  { row with
    status := entry.status
    attempt := entry.attempt
    relatedId := entry.relatedId <|> row.relatedId
    taskId := entry.taskId <|> row.taskId
    error := entry.error <|> row.error }

/-! ## Items -/

/-- What a block makes of the row of an item. -/
inductive RowChange : BatchTask → BatchItem → BatchItem → Prop where
  | same {task : BatchTask} {row : BatchItem} : RowChange task row row
  | release {batch : Batch} {items : List BatchItem} {keys : List WindowKey} {changed : Bool}
      {row : BatchItem} (hblocked : row.status = .blockedSelection) :
      RowChange (.select batch items keys changed) row
        { row with status := .pending, error := none }
  | skip {batch : Batch} {items : List BatchItem} {keys : List WindowKey} {changed : Bool}
      {row : BatchItem} (hblocked : row.status = .blockedSelection) :
      RowChange (.select batch items keys changed) row
        { row with status := .skipped, error := some "not_selected_by_validation" }
  | claim {env : DispatchEnv} {batch : Batch} {item row : BatchItem} (hid : row.id = item.id)
      (hpending : row.status = .pending) :
      RowChange (.claim env batch item) row { row with status := .dispatching }
  | record {task : BatchTask} {entry : ItemAttempt} {row : BatchItem}
      (hentry : task.newAttempt = some entry) (hid : row.id = entry.itemId) :
      RowChange task row (entry.onItem row)
  | reconcile {run : BacktestRun} {itemId : Nat} {swallowed : Bool} {row : BatchItem}
      (hid : row.id = itemId) :
      RowChange (.reconcileItem run itemId swallowed) row
        { row with
          status := itemStatusOf run.status
          statistics := run.statistics
          error := run.error }
  | cancel {runIds : List String} {row : BatchItem} (hcancellable : row.status ∈ cancellable) :
      RowChange (.cancelItems runIds) row { row with status := .cancelled }
  | requeue {statuses : List ItemStatus} {row : BatchItem} (hstatus : row.status ∈ statuses) :
      RowChange (.requeue statuses) row
        { row with status := .pending, relatedId := none, taskId := none, error := none }

variable {task : BatchTask}

theorem RowChange.plan {row row' : BatchItem} (h : RowChange task row row') :
    row'.plan = row.plan := by
  cases h <;> rfl

theorem rowChange_map {f : BatchItem → BatchItem} {rows : List BatchItem}
    (h : ∀ row ∈ rows, RowChange task row (f row)) :
    List.Forall₂ (RowChange task) rows (rows.map f) := by
  rw [List.forall₂_map_right_iff, List.forall₂_same]
  exact h

theorem rowChange_same (task : BatchTask) (rows : List BatchItem) :
    List.Forall₂ (RowChange task) rows rows :=
  List.forall₂_same.mpr (fun _ _ => .same)

variable {db : ExperimentDb}

theorem rowChange_updateItem {itemId : Nat} {f : BatchItem → BatchItem}
    (h : ∀ row ∈ db.items, row.id = itemId → RowChange task row (f row)) :
    List.Forall₂ (RowChange task) db.items (updateItem itemId f db).items := by
  refine rowChange_map (fun row hrow => ?_)
  split_ifs with hid
  · exact h row hrow hid
  · exact .same

theorem releaseItem_change {batch : Batch} {items : List BatchItem} {keys : List WindowKey}
    {changed : Bool} (selectedKey : String) (oosItems : List BatchItem) (row : BatchItem) :
    RowChange (.select batch items keys changed) row (releaseItem selectedKey oosItems row) := by
  unfold releaseItem
  split
  · exact .same
  · by_cases hblocked : row.status ≠ .blockedSelection
    · rw [if_pos hblocked]
      exact .same
    · rw [if_neg hblocked]
      split_ifs
      · exact .release (not_not.mp hblocked)
      · exact .skip (not_not.mp hblocked)

theorem recordAttempt_change {item : BatchItem} {relatedId taskId : Option String}
    {status : ItemStatus} {error : Option String} (h : task.newAttempt = some
      { itemId := item.id, attempt := item.attempt + 1, relatedId := relatedId, taskId := taskId,
        status := status, error := error }) :
    List.Forall₂ (RowChange task) db.items
      (recordAttempt item relatedId taskId status error db).items :=
  rowChange_updateItem (fun _ _ hid => .record h hid)

/-- Every row of an item changes as `RowChange` says. -/
theorem taskStep_items (hunique : Unique BatchItem.id db.items) (task : BatchTask) :
    List.Forall₂ (RowChange task) db.items (taskStep task db).1.items := by
  cases task with
  | refresh =>
    simp only [taskStep]
    split_ifs <;> exact rowChange_same _ _
  | select batch items keys changed =>
    cases keys with
    | nil => exact rowChange_same _ _
    | cons key keys =>
      simp only [taskStep]
      unfold afterBlock
      cases hrun : freezeWindow batch.objective items key db with
      | error e => exact rowChange_same _ _
      | ok result =>
        rcases freezeWindow_cases hrun with ⟨-, hsame⟩ | ⟨-, selected, ranking, oos, hstep⟩
        · show List.Forall₂ _ _ result.2.items
          rw [hsame]
          exact rowChange_same _ _
        · show List.Forall₂ _ _ result.2.items
          rw [hstep.items]
          exact rowChange_map (fun row _ => releaseItem_change _ _ row)
  | certify =>
    simp only [taskStep]
    unfold afterBlock
    cases hrun : issueCertificate db with
    | error e => exact rowChange_same _ _
    | ok result =>
      obtain ⟨run, hdb⟩ := issueCertificate_rows hrun
      show List.Forall₂ _ _ result.2.items
      rw [hdb]
      exact rowChange_same _ _
  | claim env batch item =>
    simp only [taskStep, afterBlock, claimItem]
    cases hfind : db.item item.id with
    | none => exact rowChange_same _ _
    | some found =>
      by_cases hpending : found.status ≠ .pending
      · simp only [if_pos hpending]
        exact rowChange_same _ _
      · simp only [if_neg hpending]
        refine rowChange_updateItem (fun row hrow hid => .claim hid ?_)
        rw [hunique.eq hrow (mem_of_find hfind) (hid.trans (find_key hfind).symm)]
        exact not_not.mp hpending
  | recordResearch env item =>
    simp only [taskStep]
    cases hpublish : env.publish item.id with
    | error message =>
      refine recordAttempt_change ?_
      simp [BatchTask.newAttempt, hpublish]
    | ok taskId =>
      refine recordAttempt_change ?_
      simp [BatchTask.newAttempt, hpublish]
  | createRun env item =>
    simp only [taskStep]
    cases env.createRun item.id <;> exact rowChange_same _ _
  | recordFailure item runId taskId message => exact recordAttempt_change rfl
  | recordRun env item runId taskId =>
    have hrecord : List.Forall₂ (RowChange (.recordRun env item runId taskId)) db.items
        (recordAttempt item (some runId) (some taskId) .queued none db).items :=
      recordAttempt_change rfl
    exact hrecord
  | reconcileItem run itemId swallowed =>
    simp only [taskStep, Experiments.reconcileItem]
    cases db.item itemId with
    | none => exact rowChange_same _ _
    | some item => exact rowChange_updateItem (fun _ _ hid => .reconcile hid)
  | persist run itemId =>
    simp only [taskStep, persistOosEvaluation]
    split <;> exact rowChange_same _ _
  | cancelItems runIds =>
    refine rowChange_map (fun row _ => ?_)
    split_ifs with hcancellable
    · exact .cancel hcancellable
    · exact .same
  | cancelRun runId =>
    simp only [taskStep]
    cases db.backtest runId <;> exact rowChange_same _ _
  | requeue statuses =>
    refine rowChange_map (fun row _ => ?_)
    split_ifs with hstatus
    · exact .requeue hstatus
    · exact .same
  | recount | publish | snapshot | markQueued | failRun | reconcile | report | cancelSnapshot
  | markCancelled | retrySnapshot | restartSnapshot => exact rowChange_same _ _

theorem taskStep_item (hunique : Unique BatchItem.id db.items) {row : BatchItem}
    (h : row ∈ (taskStep task db).1.items) : ∃ old ∈ db.items, RowChange task old row := by
  have hchange := taskStep_items hunique task
  obtain ⟨i, hi, rfl⟩ := List.mem_iff_getElem.mp h
  have hlength := hchange.length_eq
  refine ⟨db.items[i], List.getElem_mem _, ?_⟩
  exact (List.forall₂_iff_get.mp hchange).2 i (by omega) hi

theorem unique_step (task : BatchTask) (h : Tables.Unique BatchItem.id db.items) :
    Tables.Unique BatchItem.id (taskStep task db).1.items := by
  have hids := congrArg (List.map ItemPlan.id) (transactional_evolves.task task db).items
  unfold planOf at hids
  rw [List.map_map, List.map_map] at hids
  unfold Tables.Unique
  rw [show (taskStep task db).1.items.map BatchItem.id = db.items.map BatchItem.id from hids]
  exact h

theorem taskStep_kept (hunique : Unique BatchItem.id db.items) {old : BatchItem}
    (h : old ∈ db.items) : ∃ row ∈ (taskStep task db).1.items, RowChange task old row := by
  have hchange := taskStep_items hunique task
  obtain ⟨i, hi, rfl⟩ := List.mem_iff_getElem.mp h
  have hlength := hchange.length_eq
  have hi' : i < (taskStep task db).1.items.length := by omega
  exact ⟨_, List.getElem_mem hi', (List.forall₂_iff_get.mp hchange).2 i hi hi'⟩

theorem RowChange.id {row row' : BatchItem} (h : RowChange task row row') : row'.id = row.id := by
  cases h <;> rfl

/-! ## Runs -/

/-- What a block makes of a row of `backtest_runs`. -/
def BatchTask.run : BatchTask → BacktestRun → BacktestRun
  | .recordRun _ item runId _, run =>
    if run.id = runId then { run with batchItemId := some item.id } else run
  | .markQueued runId, run => if run.id = runId then { run with status := "queued" } else run
  | .failRun runId message, run =>
    if run.id = runId then { run with status := "failed", error := some message } else run
  | .report runId status error statistics, run =>
    if run.id = runId then { run with status := status, error := error, statistics := statistics }
    else run
  | .markCancelled runId, run =>
    if run.id = runId then
      { run with status := "cancelled", error := some "Cancellation requested by user." }
    else run
  | _, run => run

/-- The runs that a block creates. -/
def BatchTask.newRuns : BatchTask → List BacktestRun
  | .createRun env item =>
    match env.createRun item.id with
    | .error message =>
      [{ id := (env.failedRun item.id).1, taskId := (env.failedRun item.id).2,
         status := "failed", error := some message }]
    | .ok (runId, taskId) => [{ id := runId, taskId := taskId, status := "created" }]
  | _ => []

theorem BatchTask.run_id (task : BatchTask) (run : BacktestRun) : (task.run run).id = run.id := by
  cases task <;> simp only [BatchTask.run] <;> split_ifs <;> rfl

theorem runs_same {runs runs' : List BacktestRun} {f : BacktestRun → BacktestRun}
    (h : runs' = runs) (hf : ∀ run, f run = run) : runs' = runs.map f ++ [] := by
  rw [h, List.append_nil, List.map_congr_left (fun run _ => hf run), List.map_id']

theorem taskStep_runs (task : BatchTask) (db : ExperimentDb) :
    (taskStep task db).1.runs = db.runs.map task.run ++ task.newRuns := by
  have hsame : ∀ run : BacktestRun, run = run := fun _ => rfl
  cases task with
  | refresh =>
    refine runs_same ?_ hsame
    simp only [taskStep]
    split_ifs <;> rfl
  | select batch items keys changed =>
    refine runs_same ?_ hsame
    cases keys with
    | nil => rfl
    | cons key keys =>
      simp only [taskStep]
      unfold afterBlock
      cases hrun : freezeWindow batch.objective items key db with
      | error e => rfl
      | ok result =>
        rcases freezeWindow_cases hrun with ⟨-, hdb⟩ | ⟨-, selected, ranking, oos, hstep⟩
        · exact congrArg ExperimentDb.runs hdb
        · exact hstep.runs
  | certify =>
    refine runs_same ?_ hsame
    simp only [taskStep]
    unfold afterBlock
    cases hrun : issueCertificate db with
    | error e => rfl
    | ok result =>
      obtain ⟨run, hdb⟩ := issueCertificate_rows hrun
      show result.2.runs = db.runs
      rw [hdb]
  | claim env batch item =>
    refine runs_same ?_ hsame
    simp only [taskStep, afterBlock, claimItem]
    cases db.item item.id with
    | none => rfl
    | some found =>
      by_cases hpending : found.status ≠ .pending
      · simp only [if_pos hpending]
      · simp only [if_neg hpending]
        rfl
  | recordResearch env item =>
    refine runs_same ?_ hsame
    simp only [taskStep]
    cases env.publish item.id <;> rfl
  | createRun env item =>
    simp only [taskStep, BatchTask.newRuns]
    cases env.createRun item.id with
    | error message => exact congrArg (· ++ _) (List.map_id' db.runs).symm
    | ok created => exact congrArg (· ++ _) (List.map_id' db.runs).symm
  | reconcileItem run itemId swallowed =>
    refine runs_same ?_ hsame
    simp only [taskStep, Experiments.reconcileItem]
    cases db.item itemId <;> rfl
  | persist run itemId =>
    refine runs_same ?_ hsame
    simp only [taskStep, persistOosEvaluation]
    split <;> rfl
  | cancelRun runId =>
    refine runs_same ?_ hsame
    simp only [taskStep]
    cases db.backtest runId <;> rfl
  | recordRun | markQueued | failRun | report | markCancelled =>
    exact (List.append_nil _).symm
  | recount | publish | snapshot | recordFailure | reconcile | cancelSnapshot | cancelItems
  | retrySnapshot | restartSnapshot | requeue => exact runs_same rfl hsame

theorem taskStep_runIds {runId : String} (h : runId ∈ db.runs.map BacktestRun.id) :
    runId ∈ (taskStep task db).1.runs.map BacktestRun.id := by
  obtain ⟨run, hrun, rfl⟩ := List.mem_map.mp h
  rw [taskStep_runs]
  refine List.mem_map.mpr ⟨task.run run, ?_, task.run_id run⟩
  exact List.mem_append_left _ (List.mem_map_of_mem hrun)

/-! ## The blocks after a block -/

/-- The blocks of `refresh`. -/
def BatchTask.refreshes : BatchTask → Bool
  | .refresh | .select _ _ _ _ | .recount _ | .publish _ _ | .certify => true
  | _ => false

/-- A block and one that its call goes on with. -/
inductive Spawns (db : ExperimentDb) : BatchTask → BatchTask → Prop where
  | refresh {task next : BatchTask} (hnext : next.refreshes) : Spawns db task next
  | claim {env : DispatchEnv} {item : BatchItem} (htaken : item ∈ takenItems env.window db.items)
      (hrequested : db.batch.cancelRequested = false) :
      Spawns db (.snapshot env) (.claim env db.batch item)
  | recordResearch {env : DispatchEnv} {batch : Batch} {item row : BatchItem}
      (hrow : row ∈ db.items) (hid : row.id = item.id) (hpending : row.status = .pending) :
      Spawns db (.claim env batch item) (.recordResearch env item)
  | createRun {env : DispatchEnv} {batch : Batch} {item row : BatchItem}
      (hrow : row ∈ db.items) (hid : row.id = item.id) (hpending : row.status = .pending) :
      Spawns db (.claim env batch item) (.createRun env item)
  | recordFailure {env : DispatchEnv} {item : BatchItem} {message : String}
      (hcreate : env.createRun item.id = .error message) :
      Spawns db (.createRun env item) (.recordFailure item (env.failedRun item.id).1
        (env.failedRun item.id).2 message)
  | recordRun {env : DispatchEnv} {item : BatchItem} {runId taskId : String}
      (hcreate : env.createRun item.id = .ok (runId, taskId)) :
      Spawns db (.createRun env item) (.recordRun env item runId taskId)
  | failRun {env : DispatchEnv} {item : BatchItem} {runId taskId message : String} :
      Spawns db (.recordRun env item runId taskId) (.failRun runId message)
  | reconcileFailed {env : DispatchEnv} {item : BatchItem} {runId taskId : String} :
      Spawns db (.recordRun env item runId taskId) (.reconcile runId false)
  | markQueued {env : DispatchEnv} {item : BatchItem} {runId taskId : String} :
      Spawns db (.recordRun env item runId taskId) (.markQueued runId)
  | reconcileItem {runId : String} {run : BacktestRun} {itemId : Nat} {swallowed : Bool}
      (hrun : db.backtest runId = some run) (hitem : run.batchItemId = some itemId) :
      Spawns db (.reconcile runId swallowed) (.reconcileItem run itemId swallowed)
  | persist {run : BacktestRun} {itemId : Nat} {swallowed : Bool} :
      Spawns db (.reconcileItem run itemId swallowed) (.persist run itemId)
  | cancelItems : Spawns db .cancelSnapshot (.cancelItems (activeRuns db.items))
  | cancelRun {runIds : List String} {runId : String} (hmem : runId ∈ runIds) :
      Spawns db (.cancelItems runIds) (.cancelRun runId)
  | markCancelled {runId : String} {run : BacktestRun} (hrun : db.backtest runId = some run)
      (hlive : runIsTerminal run.status = false) :
      Spawns db (.cancelRun runId) (.markCancelled runId)
  | reconcileCancelled {runId : String} {run : BacktestRun} (hrun : db.backtest runId = some run)
      (hlive : runIsTerminal run.status = false) :
      Spawns db (.cancelRun runId) (.reconcile runId true)
  | retry {env : DispatchEnv} : Spawns db (.retrySnapshot env) (.requeue [.failed])
  | restart {env : DispatchEnv} : Spawns db (.restartSnapshot env) (.requeue restartable)
  | retrySnapshot {env : DispatchEnv} : Spawns db (.retrySnapshot env) (.snapshot env)
  | restartSnapshot {env : DispatchEnv} : Spawns db (.restartSnapshot env) (.snapshot env)

theorem spawns_publishTasks {next : BatchTask} {batch : Batch} {items : List BatchItem}
    {changed : Bool} (h : next ∈ publishTasks batch items changed) : Spawns db task next := by
  refine .refresh ?_
  unfold publishTasks at h
  split_ifs at h
  · rw [List.mem_singleton.mp h]
    rfl
  · rw [List.mem_singleton.mp h]
    rfl

theorem afterBlock_tasks {α : Type} {result : Except BatchError (α × ExperimentDb)}
    {k : α → List BatchTask} {tasks : List BatchTask} (h : (afterBlock db result k).2 = some tasks) :
    ∃ a db', result = .ok (a, db') ∧ tasks = k a := by
  cases result with
  | error e => cases h
  | ok result => exact ⟨result.1, result.2, rfl, (Option.some.inj h).symm⟩

theorem claimItem_claimed {itemId : Nat} {db' : ExperimentDb}
    (h : claimItem itemId db = .ok (true, db')) :
    ∃ row ∈ db.items, row.id = itemId ∧ row.status = .pending := by
  unfold claimItem at h
  cases hfind : db.item itemId with
  | none =>
    rw [hfind] at h
    cases h
  | some row =>
    rw [hfind] at h
    by_cases hpending : row.status ≠ .pending
    · simp only [if_pos hpending] at h
      cases h
    · exact ⟨row, mem_of_find hfind, find_key hfind, not_not.mp hpending⟩

theorem mem_reconcileTasks {found : Option BacktestRun} {swallowed : Bool} {next : BatchTask}
    (h : next ∈ reconcileTasks found swallowed) :
    ∃ run itemId, found = some run ∧ run.batchItemId = some itemId ∧
      next = .reconcileItem run itemId swallowed := by
  unfold reconcileTasks at h
  cases found with
  | none => cases h
  | some run =>
    cases hitem : run.batchItemId with
    | none =>
      simp only [hitem] at h
      cases h
    | some itemId =>
      simp only [hitem] at h
      exact ⟨run, itemId, rfl, hitem, List.mem_singleton.mp h⟩

/-- The blocks that a call goes on with. -/
theorem taskStep_tasks {next : BatchTask} {tasks : List BatchTask}
    (h : (taskStep task db).2 = some tasks) (hnext : next ∈ tasks) : Spawns db task next := by
  cases task with
  | refresh =>
    simp only [taskStep] at h
    split_ifs at h
    · obtain rfl := Option.some.inj h
      exact spawns_publishTasks hnext
    · obtain rfl := Option.some.inj h
      rw [List.mem_singleton.mp hnext]
      exact .refresh rfl
  | select batch items keys changed =>
    cases keys with
    | nil =>
      obtain rfl := Option.some.inj h
      exact spawns_publishTasks hnext
    | cons key keys =>
      obtain ⟨frozen, db', -, rfl⟩ := afterBlock_tasks h
      rw [List.mem_singleton.mp hnext]
      exact .refresh rfl
  | recount batch =>
    obtain rfl := Option.some.inj h
    rw [List.mem_singleton.mp hnext]
    exact .refresh rfl
  | publish batch status =>
    obtain rfl := Option.some.inj h
    split_ifs at hnext
    · rw [List.mem_singleton.mp hnext]
      exact .refresh rfl
    · cases hnext
  | certify =>
    obtain ⟨certificate, db', -, rfl⟩ := afterBlock_tasks h
    cases hnext
  | snapshot env =>
    obtain rfl := Option.some.inj h
    unfold dispatchTasks at hnext
    split_ifs at hnext with hdone
    · cases hnext
    · rcases List.mem_append.mp hnext with hclaim | hrefresh
      · obtain ⟨item, hitem, rfl⟩ := List.mem_map.mp hclaim
        exact .claim hitem (by simpa using (not_or.mp hdone).1)
      · rw [List.mem_singleton.mp hrefresh]
        exact .refresh rfl
  | claim env batch item =>
    obtain ⟨claimed, db', hclaim, rfl⟩ := afterBlock_tasks h
    cases claimed with
    | false => cases hnext
    | true =>
      obtain ⟨row, hrow, hid, hpending⟩ := claimItem_claimed hclaim
      rw [if_pos rfl] at hnext
      split_ifs at hnext
      · rw [List.mem_singleton.mp hnext]
        exact .recordResearch hrow hid hpending
      · rw [List.mem_singleton.mp hnext]
        exact .createRun hrow hid hpending
  | recordResearch env item =>
    simp only [taskStep] at h
    cases hpublish : env.publish item.id <;> rw [hpublish] at h <;>
      obtain rfl := Option.some.inj h <;> cases hnext
  | createRun env item =>
    simp only [taskStep] at h
    cases hcreate : env.createRun item.id with
    | error message =>
      rw [hcreate] at h
      obtain rfl := Option.some.inj h
      rw [List.mem_singleton.mp hnext]
      exact .recordFailure hcreate
    | ok created =>
      rw [hcreate] at h
      obtain rfl := Option.some.inj h
      rw [List.mem_singleton.mp hnext]
      exact .recordRun hcreate
  | recordRun env item runId taskId =>
    obtain rfl := Option.some.inj h
    cases hpublish : env.publish item.id with
    | error message =>
      rw [hpublish] at hnext
      rcases List.mem_cons.mp hnext with rfl | hreconcile
      · exact .failRun
      · rw [List.mem_singleton.mp hreconcile]
        exact .reconcileFailed
    | ok _ =>
      rw [hpublish] at hnext
      rw [List.mem_singleton.mp hnext]
      exact .markQueued
  | reconcile runId swallowed =>
    obtain rfl := Option.some.inj h
    obtain ⟨run, itemId, hrun, hitem, rfl⟩ := mem_reconcileTasks hnext
    exact .reconcileItem hrun hitem
  | reconcileItem run itemId swallowed =>
    simp only [taskStep] at h
    cases hrun : Experiments.reconcileItem run itemId db with
    | ok result =>
      rw [hrun] at h
      obtain rfl := Option.some.inj h
      rw [List.mem_singleton.mp hnext]
      exact .persist
    | error e =>
      rw [hrun] at h
      simp only at h
      split_ifs at h
      obtain rfl := Option.some.inj h
      cases hnext
  | cancelSnapshot =>
    obtain rfl := Option.some.inj h
    rw [List.mem_singleton.mp hnext]
    exact .cancelItems
  | cancelItems runIds =>
    obtain rfl := Option.some.inj h
    rcases List.mem_append.mp hnext with hcancel | hrefresh
    · obtain ⟨runId, hmem, rfl⟩ := List.mem_map.mp hcancel
      exact .cancelRun hmem
    · rw [List.mem_singleton.mp hrefresh]
      exact .refresh rfl
  | cancelRun runId =>
    simp only [taskStep] at h
    cases hrun : db.backtest runId with
    | none =>
      rw [hrun] at h
      cases h
    | some run =>
      rw [hrun] at h
      obtain rfl := Option.some.inj h
      split_ifs at hnext with hlive
      · cases hnext
      · rcases List.mem_cons.mp hnext with rfl | hreconcile
        · exact .markCancelled hrun (Bool.not_eq_true _ ▸ hlive)
        · rw [List.mem_singleton.mp hreconcile]
          exact .reconcileCancelled hrun (Bool.not_eq_true _ ▸ hlive)
  | retrySnapshot env =>
    simp only [taskStep] at h
    split_ifs at h
    obtain rfl := Option.some.inj h
    simp only [List.mem_cons, List.not_mem_nil, or_false] at hnext
    rcases hnext with rfl | rfl | rfl
    · exact .retry
    · exact .refresh rfl
    · exact .retrySnapshot
  | restartSnapshot env =>
    simp only [taskStep] at h
    split_ifs at h
    obtain rfl := Option.some.inj h
    simp only [List.mem_cons, List.not_mem_nil, or_false] at hnext
    rcases hnext with rfl | rfl | rfl
    · exact .restart
    · exact .refresh rfl
    · exact .restartSnapshot
  | recordFailure | markQueued | failRun | persist | report | markCancelled | requeue =>
    obtain rfl := Option.some.inj h
    cases hnext

end LocalPlatform.Experiments
