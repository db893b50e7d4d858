import LocalPlatform.Backtest.Runs

/-!
# When a terminal status is final

* A block that writes the status unconditionally does so in a window that begins with a look at
  the row (`RunTask.writes`), and a look of the worker after its first one only stops at a
  cancelled run (`RunTask.passes`).
* `InWindow` is the condition on one block: no terminal status was written in its window.
* `terminal_status_final`: in every interleaving whose blocks are in their windows, a terminal
  status stays.
-/

namespace LocalPlatform.Backtest

open Interleavings Machines Registers

/-! ## Windows -/

abbrev Terminal (status : RunStatus) : Prop := status.isTerminal = true

/-- The status is terminal, and not one that the worker looks for. -/
abbrev Ended (status : RunStatus) : Prop := status = .success ∨ status = .failed

/-- The status that a block writes without a condition, and where its window begins. -/
def RunTask.writes : RunTask → Option (Nat × RunStatus)
  | .markQueued _ => some (0, .queued)
  | .failQueue _ _ => some (0, .failed)
  | .cancelRun _ seen => some (seen, .cancelled)
  | .rejectRun _ _ seen => some (seen, .failed)
  | .waitRun seen => some (seen, .queued)
  | .startRun _ seen => some (seen, .running)
  | .persistRun _ seen => some (seen, .running)
  | .finalRun delivery _ seen => some (seen, delivery.output.status)
  | .failRun _ _ _ seen => some (seen, .failed)
  | _ => none

/-- A look that only stops at a cancelled run, and where its window begins. -/
def RunTask.passes : RunTask → Option Nat
  | .look _ seen => some seen
  | .executedLook _ seen => some seen
  | .raisedLook _ _ seen => some seen
  | _ => none

/-- The look that a task goes back to. -/
def RunTask.seen : RunTask → Option Nat
  | .markQueued _ => some 0
  | .failQueue _ _ => some 0
  | .cancelTask _ seen => some seen
  | .cancelRun _ seen => some seen
  | .look _ seen => some seen
  | .rejectTask _ _ seen => some seen
  | .rejectRun _ _ seen => some seen
  | .waitTask seen => some seen
  | .waitRun seen => some seen
  | .startTask _ seen => some seen
  | .startRun _ seen => some seen
  | .executedLook _ seen => some seen
  | .persistRun _ seen => some seen
  | .finalLook _ seen => some seen
  | .finalRun _ _ seen => some seen
  | .raisedLook _ _ seen => some seen
  | .failRun _ _ _ seen => some seen
  | _ => none

/-- A block that writes finds that no terminal status was written since its look (or writes the
status that the run has), and a look that passes a run that ended finds that none ended since. -/
structure InWindow (db : RunDb) (task : RunTask) : Prop where
  write : ∀ entry ∈ task.writes, Quiet Terminal db.history entry.1 ∨ db.row.status = entry.2
  look : ∀ seen ∈ task.passes, Quiet Ended db.history seen

instance (db : RunDb) (task : RunTask) : Decidable (InWindow db task) :=
  decidable_of_iff
    ((∀ entry ∈ task.writes, Quiet Terminal db.history entry.1 ∨ db.row.status = entry.2) ∧
      ∀ seen ∈ task.passes, Quiet Ended db.history seen)
    ⟨fun h => ⟨h.1, h.2⟩, fun h => ⟨h.1, h.2⟩⟩

/-- The block that an action runs is in its window. -/
def StepInWindow (world : World RunDb RunTask) : WorldAction RunCall → Prop
  | .start _ => True
  | .run index => ∀ task ∈ world.task index, InWindow world.db task

instance (world : World RunDb RunTask) : ∀ action, Decidable (StepInWindow world action)
  | .start _ => inferInstanceAs (Decidable True)
  | .run index => inferInstanceAs (Decidable (∀ task ∈ world.task index, InWindow world.db task))

instance (world : World RunDb RunTask) (action : WorldAction RunCall) :
    Decidable (runMachine.allowed world action) := inferInstanceAs (Decidable True)

/-- The interleavings whose blocks are in their windows. -/
abbrev windowMachine : Machine (World RunDb RunTask) (WorldAction RunCall) :=
  runMachine.restrict StepInWindow

/-! ## Blocks -/

@[simp] theorem updateTask_row (db : RunDb) (fields : TaskRow → TaskRow) :
    (db.updateTask fields).row = db.row := rfl

@[simp] theorem patch_status (patch : RowPatch) (row : BacktestRow) :
    (patch.apply row).status = row.status := rfl

@[simp] theorem updateTask_history (db : RunDb) (fields : TaskRow → TaskRow) :
    (db.updateTask fields).history = db.history := rfl

theorem runStep_status (task : RunTask) (db : RunDb) :
    (∃ seen status, task.writes = some (seen, status) ∧
      (runStep task db).1.row.status = status ∧ (runStep task db).1.history = db.history ++ [status]) ∨
    (db.row.status.isTerminal = false ∧ ∃ status, (runStep task db).1.row.status = status ∧
      (runStep task db).1.history = db.history ++ [status]) ∨
    ((runStep task db).1.row.status = db.row.status ∧ (runStep task db).1.history = db.history) := by
  cases task with
  | reconcile now staleSeconds =>
    by_cases hterminal : db.row.status.isTerminal = true
    · right; right
      simp [runStep, reconcileRun, hterminal]
    · cases hreason : reconcileReason db now staleSeconds with
      | none =>
        right; right
        simp [runStep, reconcileRun, hterminal, hreason]
      | some reason =>
        right; left
        refine ⟨by simpa using hterminal, reason.2, ?_⟩
        simp [runStep, reconcileRun, hterminal, hreason, RunDb.write, RunDb.updateTask]
  | markQueued now => exact Or.inl ⟨_, _, rfl, rfl, rfl⟩
  | failQueue error now => exact Or.inl ⟨_, _, rfl, rfl, rfl⟩
  | cancelRun now seen => exact Or.inl ⟨_, _, rfl, rfl, rfl⟩
  | rejectRun delivery error seen => exact Or.inl ⟨_, _, rfl, rfl, rfl⟩
  | waitRun seen => exact Or.inl ⟨_, _, rfl, rfl, rfl⟩
  | startRun delivery seen => exact Or.inl ⟨_, _, rfl, rfl, rfl⟩
  | persistRun delivery seen => exact Or.inl ⟨_, _, rfl, rfl, rfl⟩
  | finalRun delivery certificate seen => exact Or.inl ⟨_, _, rfl, rfl, rfl⟩
  | failRun delivery error exitCode seen => exact Or.inl ⟨_, _, rfl, rfl, rfl⟩
  | _ =>
    -- the blocks that only read, or write no status
    right; right
    simp only [runStep]
    repeat' split
    all_goals simp

/-- The status is the last one that was written. -/
def Recorded (first : RunStatus) (db : RunDb) : Prop := db.row.status = last first db.history

/-- The run was not over at the look that a task goes back to. -/
def Watched (first : RunStatus) (db : RunDb) (task : RunTask) : Prop :=
  ∀ seen, task.seen = some seen → Looked Terminal first db.history seen

section Steps

variable {first : RunStatus} {db : RunDb} {task : RunTask}

theorem history_grows (task : RunTask) (db : RunDb) :
    ∃ more, (runStep task db).1.history = db.history ++ more := by
  rcases runStep_status task db with ⟨-, status, -, -, hlog⟩ | ⟨-, status, -, hlog⟩ | ⟨-, hlog⟩
  · exact ⟨[status], hlog⟩
  · exact ⟨[status], hlog⟩
  · exact ⟨[], by simpa using hlog⟩

theorem Recorded.step (h : Recorded first db) (task : RunTask) :
    Recorded first (runStep task db).1 := by
  unfold Recorded
  rcases runStep_status task db with
    ⟨-, status, -, hstatus, hlog⟩ | ⟨-, status, hstatus, hlog⟩ | ⟨hstatus, hlog⟩
  · rw [hstatus, hlog, last_snoc]
  · rw [hstatus, hlog, last_snoc]
  · rw [hstatus, hlog]
    exact h

variable {other : RunTask}

theorem Watched.step (h : Watched first db other) (task : RunTask) :
    Watched first (runStep task db).1 other := by
  obtain ⟨more, hmore⟩ := history_grows task db
  intro seen hseen
  rw [hmore]
  exact (h seen hseen).append more

variable {seen : Nat}

theorem Watched.open_of_quiet (h : Watched first db task) (hdb : Recorded first db)
    (hseen : task.seen = some seen) (hquiet : Quiet Terminal db.history seen) :
    db.row.status.isTerminal = false := by
  have hopen := (h seen hseen).quiet hquiet
  rw [← hdb] at hopen
  simpa using hopen

theorem Watched.open_of_look (h : Watched first db task) (hdb : Recorded first db)
    (hwindow : InWindow db task) (hpasses : task.passes = some seen) (hseen : task.seen = some seen)
    (hstatus : db.row.status ≠ .cancelled) : ¬ Terminal (last first db.history) := by
  have hended : ∀ status : RunStatus, Ended status → Terminal status := by
    intro status hstatus
    cases hstatus with
    | inl h => rw [h]; rfl
    | inr h => rw [h]; rfl
  have hopen := ((h seen hseen).weaken hended).quiet (hwindow.look seen hpasses)
  rw [← hdb] at hopen ⊢
  intro hterminal
  cases hcase : db.row.status with
  | success => exact hopen (Or.inl hcase)
  | failed => exact hopen (Or.inr hcase)
  | cancelled => exact hstatus hcase
  | created =>
    rw [hcase] at hterminal
    cases hterminal
  | queued =>
    rw [hcase] at hterminal
    cases hterminal
  | running =>
    rw [hcase] at hterminal
    cases hterminal

theorem seen_of_writes {status : RunStatus} (h : task.writes = some (seen, status)) :
    task.seen = some seen := by
  cases task <;> cases h <;> rfl

theorem runStep_final (hdb : Recorded first db) (h : Watched first db task)
    (hwindow : InWindow db task) (hterminal : Terminal db.row.status) :
    (runStep task db).1.row.status = db.row.status := by
  rcases runStep_status task db with
    ⟨seen, status, hwrites, hstatus, -⟩ | ⟨hopen, -⟩ | ⟨hstatus, -⟩
  · cases hwindow.write (seen, status) hwrites with
    | inl hquiet =>
      have hopen := h.open_of_quiet hdb (seen_of_writes hwrites) hquiet
      rw [hterminal] at hopen
      cases hopen
    | inr hsame => rw [hstatus, hsame]
  · rw [hterminal] at hopen
    cases hopen
  · exact hstatus

theorem seen_of_passes (h : task.passes = some seen) : task.seen = some seen := by
  cases task <;> cases h <;> rfl

theorem seen_of_mem {patches : List RowPatch} {last : RunTask} {look : Nat}
    (hother : other ∈ patches.map RunTask.patch ++ [last]) (hseen : other.seen = some seen)
    (hlast : last.seen = some look) : look = seen := by
  cases List.mem_append.mp hother with
  | inl hpatch =>
    obtain ⟨patch, -, rfl⟩ := List.mem_map.mp hpatch
    cases hseen
  | inr hmem =>
    rw [List.mem_singleton.mp hmem, hlast] at hseen
    exact Option.some.inj hseen

theorem runStep_next {tasks : List RunTask} (htasks : (runStep task db).2 = some tasks)
    (hother : other ∈ tasks) (hseen : other.seen = some seen) :
    task.seen = some seen ∨ (seen = db.history.length ∧ (runStep task db).1 = db ∧
      (db.row.status.isTerminal = false ∨
        (∃ look, task.passes = some look) ∧ db.row.status ≠ .cancelled)) := by
  cases task with
  | startRun delivery look =>
    cases htasks
    have hlook := seen_of_mem hother hseen (by cases delivery.preparationError <;> rfl)
    exact Or.inl (congrArg some hlook)
  | persistRun delivery look =>
    cases htasks
    have hlook := seen_of_mem hother hseen (by cases delivery.persistenceError <;> rfl)
    exact Or.inl (congrArg some hlook)
  | finalRun delivery certificate look =>
    cases htasks
    rw [List.mem_singleton.mp hother] at hseen
    cases herror : delivery.closingError with
    | none =>
      rw [herror] at hseen
      cases hseen
    | some error =>
      rw [herror] at hseen
      exact Or.inl hseen
  | _ =>
    simp only [runStep] at htasks ⊢
    repeat' split at htasks
    all_goals cases htasks
    all_goals simp_all [RunTask.seen, RunTask.passes]

theorem Watched.next (h : Watched first db task) (hdb : Recorded first db)
    (hwindow : InWindow db task) {tasks : List RunTask} (htasks : (runStep task db).2 = some tasks) :
    ∀ other ∈ tasks, Watched first (runStep task db).1 other := by
  intro other hother seen hseen
  rcases runStep_next htasks hother hseen with hsame | ⟨rfl, hdbSame, hlook⟩
  · obtain ⟨more, hmore⟩ := history_grows task db
    rw [hmore]
    exact (h seen hsame).append more
  · rw [hdbSame]
    apply Looked.now
    cases hlook with
    | inl hopen =>
      rw [← hdb]
      simp [hopen]
    | inr hpass =>
      obtain ⟨⟨look, hpasses⟩, hstatus⟩ := hpass
      exact h.open_of_look hdb hwindow hpasses (seen_of_passes hpasses) hstatus

end Steps

/-! ## Interleavings -/

theorem watched_start {first : RunStatus} (hfirst : ¬ Terminal first) (db : RunDb) (call : RunCall) :
    ∀ task ∈ call.tasks, Watched first db task := by
  intro task htask seen hseen
  have hzero : seen = 0 := by
    cases call <;> cases List.mem_singleton.mp htask <;> cases hseen <;> rfl
  rw [hzero]
  exact Looked.start hfirst db.history

theorem windowMachine_step {first : RunStatus} (hfirst : ¬ Terminal first)
    (world : World RunDb RunTask) (action : WorldAction RunCall)
    (h : world.Keeps (Recorded first) (Watched first))
    (hallowed : windowMachine.allowed world action) :
    (windowMachine.next world action).Keeps (Recorded first) (Watched first) ∧
      (Terminal world.db.row.status →
        (windowMachine.next world action).db.row.status = world.db.row.status) := by
  constructor
  · apply h.next_when (watched_start hfirst) _ _ _ action
    · intro index task haction htask
      subst haction
      exact hallowed.2 task htask
    · intro db task hdb _ _
      exact hdb.step task
    · intro db task other _ _ _ hother
      exact hother.step task
    · intro db task tasks hdb htask hwindow htasks
      exact htask.next hdb hwindow htasks
  · intro hterminal
    cases action with
    | start call => rfl
    | run index =>
      rcases World.run_cases runStep RunCall.tasks world index with hsame | ⟨task, rest, hcall, hnext⟩
      · show (world.next runStep RunCall.tasks (.run index)).db.row.status = _
        rw [hsame]
      · show (world.next runStep RunCall.tasks (.run index)).db.row.status = _
        rw [hnext]
        have htask : world.task index = some task := by simp [World.task, hcall]
        exact runStep_final h.db (h.tasks task (World.has_of_call hcall List.mem_cons_self))
          (hallowed.2 task htask) hterminal

/-- In every interleaving whose blocks are in their windows, a terminal status is final: no later
step changes it. -/
theorem terminal_status_final {row : BacktestRow} {task : Option TaskRow}
    (hopen : row.status.isTerminal = false) {actions later : List (WorldAction RunCall)}
    (haccepts : windowMachine.Accepts (runStart row task) (actions ++ later))
    (hterminal : (runMachine.after (runStart row task) actions).db.row.status.isTerminal = true) :
    (runMachine.after (runStart row task) (actions ++ later)).db.row.status =
      (runMachine.after (runStart row task) actions).db.row.status := by
  have hfirst : ¬ Terminal row.status := by simp [hopen]
  have hstart : (runStart row task).Keeps (Recorded row.status) (Watched row.status) :=
    { db := rfl
      tasks := by
        rintro other ⟨tasks, htasks, -⟩
        cases htasks }
  obtain ⟨hbefore, hafter⟩ := (Machine.accepts_append actions _ later).mp haccepts
  have hreached := @Machine.invariant _ _ windowMachine
    (World.Keeps (Recorded row.status) (Watched row.status))
    (fun world action h hallowed => (windowMachine_step hfirst world action h hallowed).1)
    actions _ hstart hbefore
  have hkept := @Machine.invariant _ _ windowMachine (fun world : World RunDb RunTask =>
      world.Keeps (Recorded row.status) (Watched row.status) ∧ world.db.row.status =
        (runMachine.after (runStart row task) actions).db.row.status)
    (fun world action h hallowed => ⟨(windowMachine_step hfirst world action h.1 hallowed).1, by
      rw [(windowMachine_step hfirst world action h.1 hallowed).2 (by rw [h.2]; exact hterminal)]
      exact h.2⟩)
    later _ ⟨hreached, rfl⟩ hafter
  rw [Machine.after_append]
  exact hkept.2

/-! ## Runs -/

def createdRow : BacktestRow where
  status := .created
  error := none
  createdAt := 0
  queuedAt := none
  startedAt := none
  finishedAt := none
  exitCode := none
  resultJsonPath := none
  executionId := none
  containerName := none
  certificateId := none
  trustStatus := none
  trustReason := none
  jobTimeoutSeconds := 7200

def createdTask : TaskRow where
  status := .created
  error := none
  finishedAt := none

/-- A delivery in which everything goes well. -/
def passingDelivery : Delivery where
  now := 20
  projectError := none
  leaseFree := true
  preparation :=
    [{ executionId := none, containerName := some (some "lean-1"), certificateId := none }]
  preparationError := none
  output :=
    { exitCode := 0, resultJsonPath := some "results/1.json", timedOut := false, error := none,
      auditPassed := true, auditMessage := none, executionId := none, containerName := none }
  persistence := []
  persistenceError := none
  closingError := none

/-- The run is marked queued, delivered, and delivered again after it succeeded, and a
cancellation comes too late. -/
def regularActions : List (WorldAction RunCall) :=
  [.start (.markQueued 10), .run 0, .start (.deliver passingDelivery)] ++
    List.replicate 10 (.run 1)

def lateActions : List (WorldAction RunCall) :=
  [.start (.deliver passingDelivery), .start (.cancel 30), .run 2, .run 2, .run 3,
   .start (.reconcile 40 300), .run 4]

theorem terminal_status_final_regular :
    (runMachine.after (runStart createdRow (some createdTask))
        (regularActions ++ lateActions)).db.row.status =
      (runMachine.after (runStart createdRow (some createdTask)) regularActions).db.row.status :=
  terminal_status_final (by decide +kernel) (by decide +kernel) (by decide +kernel)

/-- The request is cancelled after the task was published, and before it is marked queued. -/
def cancelThenMark : List (WorldAction RunCall) :=
  [.start (.markQueued 11), .start (.cancel 10), .run 1, .run 1, .run 1]

/-- The request is cancelled between the worker's look and its first write. -/
def cancelThenStart : List (WorldAction RunCall) :=
  [.start (.deliver passingDelivery), .run 0, .run 0, .run 0, .start (.cancel 10),
   .run 1, .run 1, .run 1]

/-- A cancelled run becomes queued, and it becomes running. -/
theorem cancelled_run_revived :
    (runMachine.after (runStart createdRow (some createdTask)) cancelThenMark).db.row.status =
        .cancelled ∧
      (runMachine.after (runStart createdRow (some createdTask))
        (cancelThenMark ++ [.run 0])).db.row.status = .queued ∧
      (runMachine.after (runStart createdRow (some createdTask)) cancelThenStart).db.row.status =
        .cancelled ∧
      (runMachine.after (runStart createdRow (some createdTask))
        (cancelThenStart ++ [.run 0])).db.row.status = .running := by
  decide +kernel

end LocalPlatform.Backtest
