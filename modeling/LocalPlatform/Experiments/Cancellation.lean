import LocalPlatform.Experiments.Blocks
import LocalPlatform.Experiments.Certificates

/-!
# A cancelled item

`cancel` ends the items that have not finished and then cancels the runs of the
items that it had read before.  A dispatch that has claimed its item, a worker that
reports, and a reconciliation with an older row all write the item without a look
at its status.

* `WellNamed` holds of a batch whose items name runs that exist, and `Named` says
  that every interleaving keeps it.
* `CancelsCleanly` says when the block of `cancel` meets no dispatch under way, and
  `KeepsCancelled` what the blocks after it must not do.
* `AfterCancel` is the invariant of the blocks after it.
-/

namespace LocalPlatform.Experiments

open Transaction Machines Interleavings Tables

/-! ## Names of runs -/

def ExperimentDb.runIds (db : ExperimentDb) : List String := db.runs.map BacktestRun.id

/-- The items have an index each, and name runs that exist. -/
structure WellNamed (db : ExperimentDb) : Prop where
  unique : Unique BatchItem.id db.items
  related : ∀ item ∈ db.items, ∀ runId, item.relatedId = some runId → runId ∈ db.runIds

def BatchTask.Names (db : ExperimentDb) : BatchTask → Prop
  | .recordFailure _ runId _ _ | .recordRun _ _ runId _ | .cancelRun runId => runId ∈ db.runIds
  | .cancelItems runIds => ∀ runId ∈ runIds, runId ∈ db.runIds
  | _ => True

/-- Every item and every block names runs that exist. -/
abbrev Named (world : BatchWorld) : Prop :=
  world.Keeps WellNamed (fun db task => task.Names db)

variable {db : ExperimentDb}

theorem names_mono (task : BatchTask) {next : BatchTask} (h : next.Names db) :
    next.Names (taskStep task db).1 := by
  cases next with
  | recordFailure | recordRun | cancelRun => exact taskStep_runIds h
  | cancelItems runIds => exact fun runId hmem => taskStep_runIds (h runId hmem)
  | _ => trivial

variable {task : BatchTask}

theorem names_spawned {next : BatchTask} (hdb : WellNamed db) (htask : task.Names db)
    (h : Spawns db task next) : next.Names (taskStep task db).1 := by
  cases h with
  | refresh hnext =>
    cases next with
    | refresh | select | recount | publish | certify => trivial
    | _ => cases hnext
  | @recordFailure env item message hcreate =>
    show _ ∈ ((taskStep _ db).1.runs.map _)
    rw [taskStep_runs]
    simp [BatchTask.newRuns, hcreate]
  | @recordRun env item runId taskId hcreate =>
    show _ ∈ ((taskStep _ db).1.runs.map _)
    rw [taskStep_runs]
    simp [BatchTask.newRuns, hcreate]
  | cancelItems =>
    intro runId hrun
    obtain ⟨item, hitem, hrelated⟩ := List.mem_filterMap.mp hrun
    refine taskStep_runIds (hdb.related item (List.mem_filter.mp hitem).1 runId ?_)
    exact (Option.eq_some_of_filter_eq_some hrelated)
  | cancelRun hmem => exact taskStep_runIds (htask _ hmem)
  | _ => trivial

theorem wellNamed_step (hdb : WellNamed db) (htask : task.Names db) :
    WellNamed (taskStep task db).1 := by
  refine ⟨unique_step task hdb.unique, ?_⟩
  · intro row hrow runId hrelated
    obtain ⟨old, hold, hchange⟩ := taskStep_item hdb.unique hrow
    have hkept : old.relatedId = some runId → runId ∈ (taskStep task db).1.runIds :=
      fun h => taskStep_runIds (hdb.related old hold runId h)
    cases hchange with
    | same | release | skip | claim | reconcile | cancel => exact hkept hrelated
    | requeue => cases hrelated
    | @record _ entry _ hentry hid =>
      cases task with
      | recordResearch env item =>
        refine hkept ?_
        have hnone : entry.relatedId = none := by
          simp only [BatchTask.newAttempt] at hentry
          cases hpublish : env.publish item.id <;> rw [hpublish] at hentry <;>
            rw [← Option.some.inj hentry]
        simpa [ItemAttempt.onItem, hnone] using hrelated
      | recordFailure item created taskId message =>
        obtain rfl := Option.some.inj hentry
        obtain rfl := Option.some.inj hrelated
        exact taskStep_runIds htask
      | recordRun env item created taskId =>
        obtain rfl := Option.some.inj hentry
        obtain rfl := Option.some.inj hrelated
        exact taskStep_runIds htask
      | _ => cases hentry

theorem names_started (db : ExperimentDb) (call : BatchCall) :
    ∀ task ∈ call.tasks, task.Names db := by
  intro task hmem
  cases call with
  | refresh =>
    rw [List.mem_singleton.mp hmem]
    trivial
  | _ =>
    simp only [BatchCall.tasks, List.mem_cons, List.not_mem_nil, or_false] at hmem
    rcases hmem with rfl | rfl <;> trivial

theorem named_after (hdb : WellNamed db) (actions : List (WorldAction BatchCall)) :
    Named (batchWorld.after (quietWorld db) actions) := by
  have hquiet : Named (quietWorld db) := by
    refine ⟨hdb, fun task hhas => ?_⟩
    obtain ⟨tasks, htasks, -⟩ := hhas
    cases htasks
  refine List.foldlRecOn actions batchWorld.next hquiet (fun world hworld action _ => ?_)
  refine hworld.next names_started ?_ ?_ ?_ action
  · exact fun db task hdb htask => wellNamed_step hdb htask
  · exact fun db task other _ _ hother => names_mono task hother
  · exact fun db task tasks hdb htask hspawn other hmem =>
      names_spawned hdb htask (taskStep_tasks hspawn hmem)

/-! ## A cancellation -/

/-- The statuses that end an item without a result. -/
def ended : List ItemStatus := [.cancelled, .failed, .skipped]

/-- The statuses of an item that has a run again. -/
def revived : List ItemStatus := [.queued, .running, .success]

/-- The statuses of an item that `cancel` finds unfinished. -/
def unfinished : List ItemStatus := [.pending, .dispatching, .queued, .running, .blockedSelection]

/-- The block belongs to a dispatch that has claimed its item. -/
def BatchTask.dispatching : BatchTask → Bool
  | .recordResearch _ _ | .createRun _ _ | .recordRun _ _ _ _ | .markQueued _ => true
  | _ => false

/-- The block is the one of `retry_failed` and `restart_cancelled`. -/
def BatchTask.requeues : BatchTask → Bool
  | .requeue _ => true
  | _ => false

/-- When `cancel` ends the items, no dispatch is under way, and `cancel` has read the
item of every queued run of an unfinished item. -/
structure CancelsCleanly (world : BatchWorld) (runIds : List String) : Prop where
  idle : ∀ tasks ∈ world.calls, ∀ task ∈ tasks, task.dispatching = false
  covered : ∀ run ∈ world.db.runs, ∀ item ∈ world.db.items,
    run.status = "queued" ∧ run.batchItemId = some item.id ∧ item.status ∈ unfinished →
      run.id ∈ runIds

/-- After a cancellation the block waits for no item again, does not report a run as
queued, and does not bring a result to an item that has ended. -/
def BatchTask.KeepsEnded (db : ExperimentDb) : BatchTask → Prop
  | .requeue _ => False
  | .report _ status _ _ => status ≠ "queued"
  | .reconcileItem run itemId _ =>
    ∀ item ∈ db.items, item.id = itemId → item.status ∈ ended → itemStatusOf run.status ∉ revived
  | _ => True

/-- The block that an action runs makes no item wait again. -/
def NotRestarted (world : BatchWorld) : WorldAction BatchCall → Prop
  | .start _ => True
  | .run index => ∀ task ∈ world.task index, task.requeues = false

/-- The block that an action runs keeps what has ended. -/
def KeepsCancelled (world : BatchWorld) : WorldAction BatchCall → Prop
  | .start _ => True
  | .run index => ∀ task ∈ world.task index, task.KeepsEnded world.db

/-- What a cancellation promises of every later state: an item that is cancelled in
`mid` has no run again, and once the call is over no run of an item that it found
unfinished is queued. -/
structure CancelFinal (committed mid : ExperimentDb) (last : BatchWorld) (call : Nat) : Prop where
  items : ∀ item ∈ mid.items, item.status = .cancelled →
    ∀ later ∈ last.db.items, later.id = item.id → later.status ∉ revived
  runs : last.calls[call]? = some [] → ∀ item ∈ committed.items, item.status ∈ unfinished →
    ∀ runId run, last.db.backtest runId = some run → run.batchItemId = some item.id →
      run.status ≠ "queued"

/-! ## The blocks of a cancellation -/

/-- The block cannot raise, and only such blocks come after it. -/
def BatchTask.Steady (db : ExperimentDb) : BatchTask → Prop
  | .cancelRun runId => runId ∈ db.runIds
  | .markCancelled _ | .persist _ _ => True
  | .reconcile _ swallowed | .reconcileItem _ _ swallowed => swallowed = true
  | _ => False

def BatchTask.Cancels (runId : String) : BatchTask → Prop
  | .cancelRun other | .markCancelled other => other = runId
  | _ => False

theorem steady_mono (task : BatchTask) {other : BatchTask} (h : other.Steady db) :
    other.Steady (taskStep task db).1 := by
  cases other with
  | cancelRun runId => exact taskStep_runIds h
  | _ => exact h

theorem backtest_of_mem {runId : String} (h : runId ∈ db.runIds) :
    ∃ run, db.backtest runId = some run := by
  obtain ⟨run, hrun, hid⟩ := List.mem_map.mp h
  cases hfind : db.backtest runId with
  | none =>
    have hne := List.find?_eq_none.mp hfind run hrun
    simp [hid] at hne
  | some found => exact ⟨found, rfl⟩

theorem steady_step (h : task.Steady db) :
    ∃ tasks, (taskStep task db).2 = some tasks ∧
      ∀ next ∈ tasks, next.Steady (taskStep task db).1 := by
  cases task with
  | cancelRun runId =>
    obtain ⟨run, hrun⟩ := backtest_of_mem h
    simp only [taskStep, hrun]
    refine ⟨_, rfl, fun next hnext => ?_⟩
    split_ifs at hnext
    · cases hnext
    · rcases List.mem_cons.mp hnext with rfl | hreconcile
      · trivial
      · rw [List.mem_singleton.mp hreconcile]
        rfl
  | markCancelled runId => exact ⟨[], rfl, fun _ hnext => by cases hnext⟩
  | persist run itemId => exact ⟨[], rfl, fun _ hnext => by cases hnext⟩
  | reconcile runId swallowed =>
    refine ⟨_, rfl, fun next hnext => ?_⟩
    obtain ⟨run, itemId, -, -, rfl⟩ := mem_reconcileTasks hnext
    exact h
  | reconcileItem run itemId swallowed =>
    obtain rfl : swallowed = true := h
    simp only [taskStep]
    cases Experiments.reconcileItem run itemId db with
    | ok result =>
      refine ⟨_, rfl, fun next hnext => ?_⟩
      rw [List.mem_singleton.mp hnext]
      trivial
    | error e => exact ⟨[], rfl, fun _ hnext => by cases hnext⟩
  | _ => cases h

/-- The statuses of an item that waits for a dispatch or a selection. -/
def undispatched : List ItemStatus := [.pending, .blockedSelection]

theorem itemStatusOf_not_undispatched (status : String) : itemStatusOf status ∉ undispatched := by
  unfold itemStatusOf
  split_ifs <;> decide

section Step

variable {db : ExperimentDb} {task : BatchTask}

theorem idle_step (hidle : task.dispatching = false)
    (hwaiting : ∀ item ∈ db.items, item.status ∉ undispatched) {next : BatchTask}
    (h : Spawns db task next) : next.dispatching = false := by
  cases h with
  | refresh hnext =>
    cases next with
    | refresh | select | recount | publish | certify => rfl
    | _ => cases hnext
  | recordResearch hrow hid hpending =>
    refine absurd ?_ (hwaiting _ hrow)
    rw [hpending]
    decide
  | createRun hrow hid hpending =>
    refine absurd ?_ (hwaiting _ hrow)
    rw [hpending]
    decide
  | recordFailure | recordRun | failRun | reconcileFailed | markQueued => cases hidle
  | _ => rfl

theorem recorded_failed {entry : ItemAttempt} (hidle : task.dispatching = false)
    (h : task.newAttempt = some entry) : entry.status = .failed := by
  cases task with
  | recordFailure => rw [← Option.some.inj h]
  | recordResearch | recordRun => cases hidle
  | _ => cases h

theorem undispatched_change {row row' : BatchItem} (hidle : task.dispatching = false)
    (hkeeps : task.KeepsEnded db) (hrow : row.status ∉ undispatched) (h : RowChange task row row') :
    row'.status ∉ undispatched := by
  cases h with
  | same => exact hrow
  | release hblocked =>
    rw [hblocked] at hrow
    exact absurd (by decide) hrow
  | skip | claim | cancel => simp [undispatched]
  | record hentry hid =>
    show ItemAttempt.status _ ∉ undispatched
    rw [recorded_failed hidle hentry]
    decide
  | reconcile hid => exact itemStatusOf_not_undispatched _
  | requeue => exact absurd hkeeps id

theorem itemStatusOf_ended {status : String} (h : itemStatusOf status ∉ revived) :
    itemStatusOf status ∈ ended := by
  unfold itemStatusOf at h ⊢
  split_ifs at h ⊢
  all_goals first | decide | exact absurd (by decide) h

theorem ended_change {row row' : BatchItem} (hidle : task.dispatching = false)
    (hkeeps : task.KeepsEnded db) (hmem : row ∈ db.items) (hrow : row.status ∈ ended)
    (h : RowChange task row row') : row'.status ∈ ended := by
  cases h with
  | same => exact hrow
  | release hblocked =>
    rw [hblocked] at hrow
    exact absurd hrow (by decide)
  | claim hid hpending =>
    rw [hpending] at hrow
    exact absurd hrow (by decide)
  | skip | cancel => simp [ended]
  | record hentry hid =>
    show ItemAttempt.status _ ∈ ended
    rw [recorded_failed hidle hentry]
    decide
  | reconcile hid => exact itemStatusOf_ended (hkeeps row hmem hid hrow)
  | requeue => exact absurd hkeeps id

theorem newRuns_idle (hidle : task.dispatching = false) : task.newRuns = [] := by
  cases task with
  | createRun => cases hidle
  | _ => rfl

theorem queued_step {runId : String} {run : BacktestRun} (hidle : task.dispatching = false)
    (hkeeps : task.KeepsEnded db) (h : (taskStep task db).1.backtest runId = some run)
    (hqueued : run.status = "queued") :
    db.backtest runId = some run ∧ task ≠ .markCancelled runId := by
  unfold ExperimentDb.backtest at h
  rw [taskStep_runs, newRuns_idle hidle, List.append_nil,
    find_map db.runs (fun run _ => task.run_id run)] at h
  obtain ⟨old, hold, rfl⟩ := Option.map_eq_some_iff.mp h
  have hid : old.id = runId := find_key hold
  have hsame : task.run old = old → task ≠ .markCancelled runId →
      db.backtest runId = some (task.run old) ∧ task ≠ .markCancelled runId :=
    fun hrun hne => ⟨by rw [hrun]; exact hold, hne⟩
  cases task with
  | recordRun | markQueued => cases hidle
  | failRun other message =>
    simp only [BatchTask.run] at hqueued ⊢
    split_ifs at hqueued ⊢
    · exact absurd hqueued (by simp)
    · exact ⟨hold, BatchTask.noConfusion⟩
  | report other status error statistics =>
    simp only [BatchTask.run] at hqueued ⊢
    split_ifs at hqueued ⊢
    · exact absurd hqueued hkeeps
    · exact ⟨hold, BatchTask.noConfusion⟩
  | markCancelled other =>
    simp only [BatchTask.run] at hqueued ⊢
    split_ifs at hqueued ⊢ with hother
    · exact absurd hqueued (by simp)
    · refine ⟨hold, fun h => hother ?_⟩
      injection h with h
      exact hid.trans h.symm
  | _ => exact hsame rfl BatchTask.noConfusion

end Step

/-! ## After the cancellation -/

/-- The call still cancels every queued run of the items with the indices `left`. -/
def CancelsLeft (left : Nat → Prop) (db : ExperimentDb) (steady : List BatchTask) : Prop :=
  (∀ task ∈ steady, task.Steady db) ∧
    ∀ id, left id → ∀ runId run, db.backtest runId = some run → run.batchItemId = some id →
      run.status = "queued" → ∃ task ∈ steady, task.Cancels runId

/-- The invariant after `cancel` ended the items.  The items with the indices `gone`
have ended since. -/
structure AfterCancel (left gone : Nat → Prop) (call : Nat) (world : BatchWorld) : Prop where
  unique : Tables.Unique BatchItem.id world.db.items
  noneWaits : ∀ item ∈ world.db.items, item.status ∉ undispatched
  idle : ∀ task, world.Has task → task.dispatching = false
  gone : ∀ item ∈ world.db.items, gone item.id → item.status ∈ ended
  cancels : ∃ steady later, world.calls[call]? = some (steady ++ later) ∧
    CancelsLeft left world.db steady

theorem idle_started (call : BatchCall) : ∀ task ∈ call.tasks, task.dispatching = false := by
  cases call <;> simp [BatchCall.tasks, BatchTask.dispatching]

theorem cancelsLeft_other {left : Nat → Prop} {steady : List BatchTask}
    (h : CancelsLeft left db steady) (hidle : task.dispatching = false)
    (hkeeps : task.KeepsEnded db) : CancelsLeft left (taskStep task db).1 steady := by
  refine ⟨fun next hnext => steady_mono task (h.1 next hnext), ?_⟩
  intro id hid runId run hrun hitem hqueued
  have hbefore := (queued_step hidle hkeeps hrun hqueued).1
  exact h.2 id hid runId run hbefore hitem hqueued

theorem cancelsLeft_own {left : Nat → Prop} {steady tasks : List BatchTask}
    (h : CancelsLeft left db (task :: steady)) (hidle : task.dispatching = false)
    (hkeeps : task.KeepsEnded db) (htasks : (taskStep task db).2 = some tasks) :
    CancelsLeft left (taskStep task db).1 (tasks ++ steady) := by
  refine ⟨fun next hnext => ?_, ?_⟩
  · rcases List.mem_append.mp hnext with hnew | hrest
    · obtain ⟨spawned, hspawned, hsteady⟩ := steady_step (h.1 task List.mem_cons_self)
      rw [htasks] at hspawned
      obtain rfl := Option.some.inj hspawned
      exact hsteady next hnew
    · exact steady_mono task (h.1 next (List.mem_cons_of_mem _ hrest))
  · intro id hid runId run hrun hitem hqueued
    obtain ⟨hbefore, hunmarked⟩ := queued_step hidle hkeeps hrun hqueued
    obtain ⟨canceller, hmem, hcancels⟩ := h.2 id hid runId run hbefore hitem hqueued
    rcases List.mem_cons.mp hmem with rfl | hrest
    · cases canceller with
      | cancelRun other =>
        obtain rfl : other = runId := hcancels
        have hlive : runIsTerminal run.status = false := by
          rw [hqueued]
          decide +kernel
        simp only [taskStep, hbefore, hlive] at htasks
        obtain rfl := Option.some.inj htasks
        exact ⟨.markCancelled other, by simp, rfl⟩
      | markCancelled other =>
        obtain rfl : other = runId := hcancels
        exact absurd rfl hunmarked
      | _ => cases hcancels
    · exact ⟨canceller, List.mem_append_right _ hrest, hcancels⟩

variable {world : BatchWorld}

/-- A block after the cancellation keeps the invariant. -/
theorem AfterCancel.next {left gone : Nat → Prop} {call : Nat}
    (h : AfterCancel left gone call world) (action : WorldAction BatchCall)
    (hkeeps : KeepsCancelled world action) :
    AfterCancel left gone call (batchWorld.next world action) := by
  obtain ⟨steady, later, hcall, hsteady⟩ := h.cancels
  cases action with
  | start new =>
    refine ⟨h.unique, h.noneWaits, fun task hhas => ?_, h.gone, steady, later, ?_, hsteady⟩
    · have hworld : (world.next taskStep BatchCall.tasks (.start new)).Has task := hhas
      rcases World.has_start hworld with hold | hnew
      · exact h.idle task hold
      · exact idle_started new task hnew
    · have hlt : call < world.calls.length := (List.getElem?_eq_some_iff.mp hcall).1
      show (world.calls ++ [new.tasks])[call]? = _
      rw [List.getElem?_append_left hlt]
      exact hcall
  | run index =>
    show AfterCancel left gone call (world.next taskStep BatchCall.tasks (.run index))
    rcases World.run_cases taskStep BatchCall.tasks world index with
      hsame | ⟨task, rest, hfirst, hnext⟩
    · rw [hsame]
      exact h
    · have hhas : world.Has task := World.has_of_call hfirst List.mem_cons_self
      have hidle := h.idle task hhas
      have hended : task.KeepsEnded world.db := by
        refine hkeeps task ?_
        show world.task index = some task
        unfold World.task
        rw [hfirst]
        rfl
      have hdb : (world.next taskStep BatchCall.tasks (.run index)).db =
          (taskStep task world.db).1 := by rw [hnext]
      refine ⟨?_, ?_, fun next hhas => ?_, ?_, ?_⟩
      · rw [hdb]
        exact unique_step task h.unique
      · rw [hdb]
        intro row hrow
        obtain ⟨old, hold, hchange⟩ := taskStep_item h.unique hrow
        exact undispatched_change hidle hended (h.noneWaits old hold) hchange
      · rcases World.has_run hfirst hhas with hold | ⟨tasks, htasks, hmem⟩
        · exact h.idle next hold
        · exact idle_step hidle h.noneWaits (taskStep_tasks htasks hmem)
      · rw [hdb]
        intro row hrow hgone
        obtain ⟨old, hold, hchange⟩ := taskStep_item h.unique hrow
        rw [plan_id hchange.plan] at hgone
        exact ended_change hidle hended hold (h.gone old hold hgone) hchange
      · rw [hdb]
        by_cases hindex : call = index
        · subst hindex
          have hafter := World.call_run taskStep BatchCall.tasks hfirst
          obtain hlist : task :: rest = steady ++ later :=
            Option.some.inj (hfirst.symm.trans hcall)
          cases steady with
          | nil => exact ⟨[], _, hafter, cancelsLeft_other hsteady hidle hended⟩
          | cons head steady =>
            obtain ⟨rfl, rfl⟩ := List.cons.inj hlist
            obtain ⟨tasks, htasks, -⟩ := steady_step (hsteady.1 task List.mem_cons_self)
            refine ⟨tasks ++ steady, later, ?_, cancelsLeft_own hsteady hidle hended htasks⟩
            rw [hafter, htasks, List.append_assoc]
            rfl
        · refine ⟨steady, later, ?_, cancelsLeft_other hsteady hidle hended⟩
          rw [World.call_other hindex]
          exact hcall

theorem afterCancel_commit {call : Nat} {runIds : List String} (hnamed : Named world)
    (htask : world.task call = some (.cancelItems runIds)) (hclean : CancelsCleanly world runIds) :
    AfterCancel (fun id => ∃ item ∈ world.db.items, item.id = id ∧ item.status ∈ unfinished)
      (fun _ => False) call (batchWorld.next world (.run call)) := by
  obtain ⟨rest, hcall⟩ := World.task_some htask
  have hnames : ∀ runId ∈ runIds, runId ∈ world.db.runIds :=
    hnamed.tasks _ (World.has_of_call hcall List.mem_cons_self)
  show AfterCancel _ _ call (world.next taskStep BatchCall.tasks (.run call))
  have hdb : (world.next taskStep BatchCall.tasks (.run call)).db = cancelItems world.db := by
    rw [World.next_run hcall]
    rfl
  refine ⟨?_, ?_, fun task hhas => ?_, fun _ _ hgone => absurd hgone id, ?_⟩
  · rw [hdb]
    exact unique_step (.cancelItems runIds) hnamed.db.unique
  · rw [hdb]
    intro row hrow
    obtain ⟨old, -, rfl⟩ := List.mem_map.mp hrow
    split_ifs with hcancellable
    · simp [undispatched]
    · intro hundispatched
      apply hcancellable
      simp only [undispatched, List.mem_cons, List.not_mem_nil, or_false] at hundispatched
      rcases hundispatched with h | h <;> simp [h, cancellable]
  · rcases World.has_run hcall hhas with ⟨tasks, htasks, hmem⟩ | ⟨tasks, htasks, hmem⟩
    · exact hclean.idle tasks htasks task hmem
    · obtain rfl := Option.some.inj htasks
      rcases List.mem_append.mp hmem with hcancel | hrefresh
      · obtain ⟨runId, -, rfl⟩ := List.mem_map.mp hcancel
        rfl
      · rw [List.mem_singleton.mp hrefresh]
        rfl
  · refine ⟨runIds.map .cancelRun, .refresh :: rest, ?_, fun task hmem => ?_, ?_⟩
    · rw [World.call_run taskStep BatchCall.tasks hcall]
      show some ((runIds.map BatchTask.cancelRun ++ [.refresh]) ++ rest) = _
      rw [List.append_assoc]
      rfl
    · obtain ⟨runId, hrun, rfl⟩ := List.mem_map.mp hmem
      rw [hdb]
      exact hnames runId hrun
    · rw [hdb]
      rintro id ⟨item, hitem, rfl, hunfinished⟩ runId run hrun hlinked hqueued
      have hmem : run ∈ world.db.runs := mem_of_find hrun
      have hcovered := hclean.covered run hmem item hitem ⟨hqueued, hlinked, hunfinished⟩
      rw [show run.id = runId from find_key hrun] at hcovered
      exact ⟨.cancelRun runId, List.mem_map_of_mem hcovered, rfl⟩

theorem AfterCancel.after {left gone : Nat → Prop} {call : Nat}
    (h : AfterCancel left gone call world) {actions : List (WorldAction BatchCall)}
    (haccepts : (batchWorld.restrict KeepsCancelled).Accepts world actions) :
    AfterCancel left gone call (batchWorld.after world actions) := by
  have hstep : ∀ w action, AfterCancel left gone call w →
      (batchWorld.restrict KeepsCancelled).allowed w action →
        AfterCancel left gone call ((batchWorld.restrict KeepsCancelled).next w action) :=
    fun w action hw hallowed => hw.next action hallowed.2
  exact Machine.invariant hstep actions world h haccepts

/-! ## Every interleaving -/

theorem wellNamed_of_created (h : Created db) : WellNamed db := by
  cases h with
  | walkForward hkind hitems hcreate =>
    refine ⟨(quarantine_created hcreate).1.ids, ?_⟩
    unfold createBatch at hcreate
    simp only at hcreate
    split_ifs at hcreate
    split at hcreate
    · cases hcreate
    · obtain rfl := Except.ok.inj hcreate
      intro item hitem runId hrelated
      obtain ⟨row, -, rfl⟩ := List.mem_map.mp hitem
      cases hrelated
  | plain kind mode objective plans hmode =>
    refine ⟨?_, ?_⟩
    · have hids : (plans.zipIdx.map plainItem).map BatchItem.id = List.range' 0 plans.length := by
        rw [List.map_map]
        exact List.zipIdx_map_snd 0 plans
      show ((plans.zipIdx.map plainItem).map BatchItem.id).Nodup
      rw [hids]
      exact List.nodup_range'
    · intro item hitem runId hrelated
      obtain ⟨row, -, rfl⟩ := List.mem_map.mp hitem
      cases hrelated

/-- A cancellation that meets no dispatch under way is final, as long as no block
after it brings a result to what has ended. -/
theorem cancel_final {db : ExperimentDb} (hcreated : Created db)
    {before first second : List (WorldAction BatchCall)} {world : BatchWorld}
    (hworld : world = batchWorld.after (quietWorld db) before) {call : Nat} {runIds : List String}
    (htask : world.task call = some (.cancelItems runIds)) (hclean : CancelsCleanly world runIds)
    (haccepts : (batchWorld.restrict KeepsCancelled).Accepts (batchWorld.next world (.run call))
      (first ++ second)) :
    CancelFinal world.db (batchWorld.after world (.run call :: first)).db
      (batchWorld.after world (.run call :: (first ++ second))) call := by
  have hnamed : Named world := by
    rw [hworld]
    exact named_after (wellNamed_of_created hcreated) before
  obtain ⟨hfirst, hsecond⟩ := (Machine.accepts_append first _ second).mp haccepts
  have hmid := (afterCancel_commit hnamed htask hclean).after hfirst
  have hmarked : AfterCancel
      (fun id => ∃ item ∈ world.db.items, item.id = id ∧ item.status ∈ unfinished)
      (fun id => ∃ item ∈ (batchWorld.after world (.run call :: first)).db.items,
        item.id = id ∧ item.status = .cancelled)
      call (batchWorld.after world (.run call :: first)) := by
    refine ⟨hmid.unique, hmid.noneWaits, hmid.idle, ?_, hmid.cancels⟩
    rintro item hitem ⟨other, hother, hid, hcancelled⟩
    rw [hmid.unique.eq hitem hother hid.symm, hcancelled]
    decide
  have hlast := hmarked.after hsecond
  have hend : batchWorld.after world (.run call :: (first ++ second)) =
      batchWorld.after (batchWorld.after world (.run call :: first)) second :=
    Machine.after_append world (.run call :: first) second
  rw [hend]
  refine ⟨fun item hitem hcancelled later hlater hid => ?_, fun hover => ?_⟩
  · have hended := hlast.gone later hlater ⟨item, hitem, hid.symm, hcancelled⟩
    intro hrevived
    generalize later.status = status at hended hrevived
    revert hended hrevived
    cases status <;> decide
  · intro item hitem hunfinished runId run hrun hlinked hqueued
    obtain ⟨steady, later, hcall, -, hcancels⟩ := hlast.cancels
    obtain ⟨task, hmem, -⟩ :=
      hcancels item.id ⟨item, hitem, rfl, hunfinished⟩ runId run hrun hlinked hqueued
    have hnil := Option.some.inj (hcall.symm.trans hover)
    rw [(List.append_eq_nil_iff.mp hnil).1] at hmem
    cases hmem

instance (db : ExperimentDb) (task : BatchTask) : Decidable (task.KeepsEnded db) := by
  cases task <;> unfold BatchTask.KeepsEnded <;> infer_instance

instance (world : BatchWorld) (action : WorldAction BatchCall) :
    Decidable (KeepsCancelled world action) := by
  cases action <;> unfold KeepsCancelled <;> infer_instance

instance (world : BatchWorld) (action : WorldAction BatchCall) :
    Decidable (batchWorld.allowed world action) := .isTrue trivial

instance (world : BatchWorld) (runIds : List String) : Decidable (CancelsCleanly world runIds) :=
  decidable_of_iff
    ((∀ tasks ∈ world.calls, ∀ task ∈ tasks, task.dispatching = false) ∧
      ∀ run ∈ world.db.runs, ∀ item ∈ world.db.items,
        run.status = "queued" ∧ run.batchItemId = some item.id ∧ item.status ∈ unfinished →
          run.id ∈ runIds)
    ⟨fun h => ⟨h.1, h.2⟩, fun h => ⟨h.idle, h.covered⟩⟩

instance (world : BatchWorld) (action : WorldAction BatchCall) :
    Decidable (NotRestarted world action) := by
  cases action <;> unfold NotRestarted <;> infer_instance

/-- The runs that the next block of a call goes on to cancel. -/
def runsToCancel (world : BatchWorld) (call : Nat) : Option (List String) :=
  match world.task call with
  | some (.cancelItems runIds) => some runIds
  | _ => none

theorem task_of_runsToCancel {call : Nat} {runIds : List String}
    (h : runsToCancel world call = some runIds) : world.task call = some (.cancelItems runIds) := by
  unfold runsToCancel at h
  split at h
  · rename_i found htask
    rw [htask, Option.some.inj h]
  · cases h

/-- A dispatch does some of its blocks, and a cancellation all of them up to the one that
ends the items. -/
def dispatchedThenCancelled (blocks : Nat) : List (WorldAction BatchCall) :=
  .start (.dispatchWindow acceptingEnv) :: List.replicate blocks (.run 0) ++
    .start .cancel :: List.replicate 5 (.run 1)

/-- The dispatch was over. -/
theorem cancel_final_after_dispatch :
    CancelFinal (batchWorld.after (quietWorld twoCandidateBatch) (dispatchedThenCancelled 25)).db
      (batchWorld.after (batchWorld.after (quietWorld twoCandidateBatch)
        (dispatchedThenCancelled 25)) (.run 1 :: List.replicate 5 (.run 1))).db
      (batchWorld.after (batchWorld.after (quietWorld twoCandidateBatch)
        (dispatchedThenCancelled 25))
          (.run 1 :: (List.replicate 5 (.run 1) ++ List.replicate 18 (.run 1)))) 1 := by
  have hruns : runsToCancel (batchWorld.after (quietWorld twoCandidateBatch)
      (dispatchedThenCancelled 25)) 1 = some ["run-0", "run-1", "run-2", "run-3"] := by
    decide +kernel
  exact cancel_final created_twoCandidates rfl (task_of_runsToCancel hruns) (by decide +kernel)
    (by decide +kernel)

/-- The dispatch had created a run for its first item and not recorded it. -/
theorem cancel_during_dispatch :
    ¬ ∀ (db : ExperimentDb) (before first second : List (WorldAction BatchCall)) (call : Nat)
      (runIds : List String), Created db →
        (batchWorld.after (quietWorld db) before).task call = some (.cancelItems runIds) →
        (batchWorld.restrict NotRestarted).Accepts
          (batchWorld.after (quietWorld db) (before ++ [.run call])) (first ++ second) →
        CancelFinal (batchWorld.after (quietWorld db) before).db
          (batchWorld.after (quietWorld db) (before ++ .run call :: first)).db
          (batchWorld.after (quietWorld db) (before ++ .run call :: (first ++ second))) call := by
  intro h
  have htask : runsToCancel (batchWorld.after (quietWorld twoCandidateBatch)
      (dispatchedThenCancelled 7)) 1 = some [] := by decide +kernel
  have hfinal := h twoCandidateBatch (dispatchedThenCancelled 7) [] [.run 0] 1 []
    created_twoCandidates (task_of_runsToCancel htask) (by decide +kernel)
  have hrevived : ∃ item ∈ (batchWorld.after (quietWorld twoCandidateBatch)
      (dispatchedThenCancelled 7 ++ [.run 1])).db.items, item.status = .cancelled ∧
      ∃ later ∈ (batchWorld.after (quietWorld twoCandidateBatch)
        (dispatchedThenCancelled 7 ++ [.run 1, .run 0])).db.items,
        later.id = item.id ∧ later.status ∈ revived := by decide +kernel
  obtain ⟨item, hitem, hcancelled, later, hlater, hid, hqueued⟩ := hrevived
  exact hfinal.items item hitem hcancelled later hlater hid hqueued

end LocalPlatform.Experiments
