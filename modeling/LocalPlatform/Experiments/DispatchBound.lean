import LocalPlatform.Experiments.Attempts

/-!
# How many items are in flight

`dispatch_window` reads the items, takes as many of those that wait as the window
leaves room for, and claims them one by one.  Every run that ends starts another
dispatch, and none of them knows what the others have still to claim.

* `listed` are the items that the calls have still to claim, and `recording` those
  that they have claimed and not recorded.
* `Bounded` says that the items in flight and the listed ones fit into the window.
* `KeepsWindow` is what a snapshot must find, and `dispatch_bounded` that every run
  of such calls stays within the window.
-/

namespace LocalPlatform.Experiments

open Paper Machines Interleavings Tables

/-! ## What the calls have left -/

def BatchTask.claims : BatchTask → Option Nat
  | .claim _ _ item => some item.id
  | _ => none

/-- The item that a block has claimed and still to record. -/
def BatchTask.records : BatchTask → Option Nat
  | .recordResearch _ item | .createRun _ item | .recordFailure item _ _ _
  | .recordRun _ item _ _ => some item.id
  | _ => none

def BatchTask.reports : BatchTask → Option Nat
  | .reconcileItem _ itemId _ => some itemId
  | _ => none

/-- The items that the calls have still to claim. -/
def listed (world : BatchWorld) : List Nat := world.tasks.filterMap BatchTask.claims

/-- The items that the calls have claimed and still to record. -/
def recording (world : BatchWorld) : List Nat := world.tasks.filterMap BatchTask.records

def inFlight (items : List BatchItem) : Nat := items.countP (fun item => item.status ∈ active)

/-- The item takes a place: it is in flight, or it waits and a call has still to claim it. -/
def Occupies (ids : List Nat) (item : BatchItem) : Prop :=
  item.status ∈ active ∨ item.status = .pending ∧ item.id ∈ ids

instance (ids : List Nat) (item : BatchItem) : Decidable (Occupies ids item) := by
  unfold Occupies
  infer_instance

def Recorded (db : ExperimentDb) (itemId : Nat) : Prop :=
  ∀ row ∈ db.items, row.id = itemId → row.status ∉ unrecorded

/-- Dispatches with a window, and runs that report. -/
def BatchCall.Dispatches (window : Nat) : BatchCall → Prop
  | .refresh | .deliver _ _ _ _ => True
  | .dispatchWindow env => env.window = window
  | .cancel | .retryFailed _ | .restartCancelled _ => False

/-- The blocks of such calls. -/
def BatchTask.Dispatches (window : Nat) : BatchTask → Prop
  | .snapshot env => env.window = window
  | .cancelSnapshot | .cancelItems _ | .cancelRun _ | .markCancelled _ | .retrySnapshot _
  | .restartSnapshot _ | .requeue _ => False
  | _ => True

/-! ## A block -/

section Block

variable {db : ExperimentDb} {task : BatchTask} {window : Nat}

theorem dispatches_tasks {call : BatchCall} (h : call.Dispatches window) :
    ∀ task ∈ call.tasks, task.Dispatches window := by
  cases call with
  | refresh => simp [BatchCall.tasks, BatchTask.Dispatches]
  | dispatchWindow env =>
    have hwindow : env.window = window := h
    simp [BatchCall.tasks, BatchTask.Dispatches, hwindow]
  | deliver runId status error statistics => simp [BatchCall.tasks, BatchTask.Dispatches]
  | cancel => exact absurd h id
  | retryFailed env => exact absurd h id
  | restartCancelled env => exact absurd h id

theorem tasks_idle (call : BatchCall) : ∀ task ∈ call.tasks,
    task.claims = none ∧ task.records = none ∧ task.reports = none := by
  cases call <;> simp [BatchCall.tasks, BatchTask.claims, BatchTask.records, BatchTask.reports]

theorem refreshes_idle (h : task.refreshes = true) :
    (∀ window, task.Dispatches window) ∧ task.claims = none ∧ task.records = none ∧ task.reports = none := by
  cases task with
  | refresh | select | recount | publish | certify => exact ⟨fun _ => trivial, rfl, rfl, rfl⟩
  | _ => cases h

variable {next : BatchTask}

theorem Spawns.dispatches (h : Spawns db task next) (htask : task.Dispatches window) :
    next.Dispatches window := by
  cases h with
  | refresh hnext => exact (refreshes_idle hnext).1 window
  | claim | recordResearch | createRun | recordFailure | recordRun | failRun | reconcileFailed
  | markQueued | reconcileItem | persist => trivial
  | cancelItems | cancelRun | markCancelled | reconcileCancelled | retry | restart | retrySnapshot
  | restartSnapshot => exact absurd htask id

variable {itemId : Nat}

theorem Spawns.claims (h : Spawns db task next) (hclaims : next.claims = some itemId) :
    ∃ env item, task = .snapshot env ∧ item ∈ takenItems env.window db.items ∧ item.id = itemId := by
  cases h with
  | refresh hnext => cases (refreshes_idle hnext).2.1.symm.trans hclaims
  | @claim env item htaken => exact ⟨env, item, rfl, htaken, Option.some.inj hclaims⟩
  | _ => cases hclaims

theorem Spawns.reports (h : Spawns db task next) (hreports : next.reports = some itemId) :
    ∃ run ∈ db.runs, run.batchItemId = some itemId := by
  cases h with
  | refresh hnext => cases (refreshes_idle hnext).2.2.2.symm.trans hreports
  | @reconcileItem runId run found swallowed hrun hitem =>
    exact ⟨run, mem_of_find hrun, hitem.trans hreports⟩
  | _ => cases hreports

theorem Spawns.records (h : Spawns db task next) (hrecords : next.records = some itemId) :
    task.records = some itemId ∧ (∃ env item, task = .createRun env item) ∨
      task.claims = some itemId := by
  cases h with
  | refresh hnext => cases (refreshes_idle hnext).2.2.1.symm.trans hrecords
  | recordResearch | createRun => exact Or.inr hrecords
  | @recordFailure env item message | @recordRun env item runId taskId =>
    exact Or.inl ⟨hrecords, env, item, rfl⟩
  | _ => cases hrecords

theorem newAttempt_records {entry : ItemAttempt} (h : task.newAttempt = some entry) :
    task.records = some entry.itemId ∧ (entry.status = .queued ∨ entry.status = .failed) := by
  cases task with
  | recordResearch env item =>
    simp only [BatchTask.newAttempt] at h
    cases hpublish : env.publish item.id with
    | error message =>
      rw [hpublish] at h
      obtain rfl := Option.some.inj h
      exact ⟨rfl, Or.inr rfl⟩
    | ok taskId =>
      rw [hpublish] at h
      obtain rfl := Option.some.inj h
      exact ⟨rfl, Or.inl rfl⟩
  | recordFailure item runId taskId message =>
    obtain rfl := Option.some.inj h
    exact ⟨rfl, Or.inr rfl⟩
  | recordRun env item runId taskId =>
    obtain rfl := Option.some.inj h
    exact ⟨rfl, Or.inl rfl⟩
  | _ => cases h

theorem Recorded.step (hunique : Unique BatchItem.id db.items) (htask : task.Dispatches window)
    (h : Recorded db itemId) : Recorded (taskStep task db).1 itemId := by
  intro row hrow hid
  obtain ⟨old, hold, hchange⟩ := taskStep_item hunique hrow
  have hrecorded := h old hold (hchange.id.symm.trans hid)
  cases hchange with
  | same => exact hrecorded
  | release hblocked | skip hblocked => simp [hblocked, unrecorded] at hrecorded
  | claim _ hpending => simp [hpending, unrecorded] at hrecorded
  | @record _ entry _ hentry _ =>
    show entry.status ∉ unrecorded
    rcases (newAttempt_records hentry).2 with hqueued | hfailed
    · simp [hqueued, unrecorded]
    · simp [hfailed, unrecorded]
  | reconcile => exact itemStatusOf_recorded _
  | cancel | requeue => exact absurd htask id

theorem unblocked_step (hunique : Unique BatchItem.id db.items)
    (h : ∀ row ∈ db.items, row.id = itemId → row.status ≠ .blockedSelection) :
    ∀ row ∈ (taskStep task db).1.items, row.id = itemId → row.status ≠ .blockedSelection := by
  intro row hrow hid
  obtain ⟨old, hold, hchange⟩ := taskStep_item hunique hrow
  have hopen := h old hold (hchange.id.symm.trans hid)
  cases hchange with
  | same => exact hopen
  | release | skip | claim | cancel | requeue => exact ItemStatus.noConfusion
  | @record _ entry _ hentry _ =>
    show entry.status ≠ .blockedSelection
    rcases (newAttempt_records hentry).2 with hqueued | hfailed
    · simp [hqueued]
    · simp [hfailed]
  | reconcile => exact itemStatusOf_ne_blocked _

theorem linked_step {run : BacktestRun} (h : run ∈ (taskStep task db).1.runs)
    (hlinked : run.batchItemId = some itemId) :
    (∃ old ∈ db.runs, old.batchItemId = some itemId) ∨
      ∃ env item runId taskId, task = .recordRun env item runId taskId ∧ item.id = itemId := by
  rw [taskStep_runs] at h
  rcases List.mem_append.mp h with hold | hnew
  · obtain ⟨old, hmem, rfl⟩ := List.mem_map.mp hold
    cases task with
    | recordRun env item runId taskId =>
      simp only [BatchTask.run] at hlinked
      split_ifs at hlinked with hid
      · exact Or.inr ⟨env, item, runId, taskId, rfl, Option.some.inj hlinked⟩
      · exact Or.inl ⟨old, hmem, hlinked⟩
    | markQueued | failRun | report | markCancelled =>
      simp only [BatchTask.run] at hlinked
      split_ifs at hlinked <;> exact Or.inl ⟨old, hmem, hlinked⟩
    | _ => exact Or.inl ⟨old, hmem, hlinked⟩
  · cases task with
    | createRun env item =>
      simp only [BatchTask.newRuns] at hnew
      cases hcreate : env.createRun item.id with
      | error message =>
        rw [hcreate] at hnew
        rw [List.mem_singleton.mp hnew] at hlinked
        cases hlinked
      | ok created =>
        rw [hcreate] at hnew
        rw [List.mem_singleton.mp hnew] at hlinked
        cases hlinked
    | _ => cases hnew

end Block

/-! ## Counting -/

section Counting

variable {α : Type} {p q : α → Bool}

theorem countP_or_le (xs : List α) :
    xs.countP (fun x => p x || q x) ≤ xs.countP p + xs.countP q := by
  induction xs with
  | nil => simp
  | cons x xs ih =>
    simp only [List.countP_cons]
    cases p x <;> cases q x <;> simp <;> omega

theorem countP_le_of_forall₂ {R : α → α → Prop} {xs ys : List α} (h : List.Forall₂ R xs ys)
    (himp : ∀ x ∈ xs, ∀ y, R x y → q y = true → p x = true) : ys.countP q ≤ xs.countP p := by
  induction h with
  | nil => simp
  | @cons x y xs ys hxy _ ih =>
    have hrest := ih (fun x hx => himp x (List.mem_cons_of_mem _ hx))
    have hfirst := himp x List.mem_cons_self y hxy
    simp only [List.countP_cons]
    cases hq : q y with
    | false =>
      simp only [Bool.false_eq_true, if_false]
      omega
    | true =>
      simp only [hfirst hq, if_true]
      omega

theorem countP_mem_le [DecidableEq α] {xs ys : List α} (hxs : xs.Nodup) :
    xs.countP (fun x => x ∈ ys) ≤ ys.length := by
  rw [List.countP_eq_length_filter]
  refine List.Subperm.length_le ((hxs.filter _).subperm (fun x hx => ?_))
  simpa using (List.mem_filter.mp hx).2

theorem nodup_of_subperm {xs ys : List α} (h : xs.Subperm ys) (hys : ys.Nodup) : xs.Nodup := by
  obtain ⟨zs, hperm, hsub⟩ := h
  exact hperm.nodup_iff.mp (hsub.nodup hys)

end Counting

/-! ## The invariant -/

/-- The items in flight and the listed ones fit into the window.  What a call has
claimed waits for it, and what a run reports was dispatched. -/
structure Bounded (window : Nat) (world : BatchWorld) : Prop where
  unique : Unique BatchItem.id world.db.items
  scope : ∀ task ∈ world.tasks, task.Dispatches window
  linked : ∀ run ∈ world.db.runs, ∀ itemId, run.batchItemId = some itemId →
    Recorded world.db itemId
  reported : ∀ task ∈ world.tasks, ∀ itemId, task.reports = some itemId →
    Recorded world.db itemId
  once : (recording world).Nodup
  claimed : ∀ itemId ∈ recording world, ∃ row ∈ world.db.items, row.id = itemId ∧
    row.status = .dispatching
  waiting : ∀ itemId ∈ listed world, ∀ row ∈ world.db.items, row.id = itemId →
    row.status ≠ .blockedSelection
  fits : world.db.items.countP (Occupies (listed world)) ≤ window

/-- What a block must find.  A snapshot finds that the items which wait and which other
calls have still to claim come first, and a run that is not over reports for an item in
flight. -/
def KeepsWindow (window : Nat) (world : BatchWorld) : WorldAction BatchCall → Prop
  | .start call => call.Dispatches window
  | .run index =>
    match world.task index with
    | some (.snapshot env) =>
      world.db.batch.cancelRequested = true ∨ world.db.batch.status ∈ terminalStatuses ∨
        ∀ row ∈ world.db.items, row.status = .pending → row.id ∈ listed world →
          row ∈ takenItems env.window world.db.items
    | some (.reconcileItem run itemId _) =>
      itemStatusOf run.status ∈ active →
        ∀ row ∈ world.db.items, row.id = itemId → row.status ∈ active
    | _ => True

section Invariant

variable {world : BatchWorld} {window : Nat}

theorem Bounded.inFlight_le (h : Bounded window world) : inFlight world.db.items ≤ window := by
  refine le_trans (List.countP_mono_left (fun row _ hrow => ?_)) h.fits
  simp only [decide_eq_true_eq] at hrow ⊢
  exact Or.inl hrow

theorem Bounded.start (h : Bounded window world) {call : BatchCall}
    (hcall : call.Dispatches window) :
    Bounded window (world.next taskStep BatchCall.tasks (.start call)) := by
  have htasks : (world.next taskStep BatchCall.tasks (.start call)).tasks =
      world.tasks ++ call.tasks := World.tasks_start call
  have hidle := tasks_idle call
  have hlisted : listed (world.next taskStep BatchCall.tasks (.start call)) = listed world := by
    unfold listed
    rw [htasks, List.filterMap_append,
      List.filterMap_eq_nil_iff.mpr (fun task hmem => (hidle task hmem).1), List.append_nil]
  have hrecording : recording (world.next taskStep BatchCall.tasks (.start call)) =
      recording world := by
    unfold recording
    rw [htasks, List.filterMap_append,
      List.filterMap_eq_nil_iff.mpr (fun task hmem => (hidle task hmem).2.1), List.append_nil]
  refine ⟨h.unique, ?_, h.linked, ?_, ?_, ?_, ?_, ?_⟩
  · intro task hmem
    rw [htasks] at hmem
    rcases List.mem_append.mp hmem with hold | hnew
    · exact h.scope task hold
    · exact dispatches_tasks hcall task hnew
  · intro task hmem itemId hreports
    rw [htasks] at hmem
    rcases List.mem_append.mp hmem with hold | hnew
    · exact h.reported task hold itemId hreports
    · cases (hidle task hnew).2.2.symm.trans hreports
  · rw [hrecording]
    exact h.once
  · rw [hrecording]
    exact h.claimed
  · rw [hlisted]
    exact h.waiting
  · rw [hlisted]
    exact h.fits

/-! ## A block runs -/

/-- A call ran its first block, and `others` are the blocks that the calls have left
besides those that come after it. -/
structure Ran (world : BatchWorld) (first : BatchTask) (others : List BatchTask)
    (next : BatchWorld) : Prop where
  db : next.db = (taskStep first world.db).1
  before : world.tasks.Perm (first :: others)
  tasks : next.tasks.Subperm ((taskStep first world.db).2.getD [] ++ others)

variable {next : BatchWorld} {first : BatchTask} {others : List BatchTask}

theorem ran_of_call {index : Nat} {rest : List BatchTask}
    (hcall : world.calls[index]? = some (first :: rest)) :
    ∃ others, Ran world first others (world.next taskStep BatchCall.tasks (.run index)) := by
  obtain ⟨others, hbefore, htasks⟩ := World.tasks_run taskStep BatchCall.tasks hcall
  refine ⟨others, ?_, hbefore, htasks⟩
  rw [World.next_run hcall]

theorem Ran.first_mem (h : Ran world first others next) : first ∈ world.tasks :=
  h.before.mem_iff.mpr List.mem_cons_self

theorem Ran.other_mem (h : Ran world first others next) {task : BatchTask} (hmem : task ∈ others) :
    task ∈ world.tasks :=
  h.before.mem_iff.mpr (List.mem_cons_of_mem _ hmem)

theorem spawns_of_mem {db : ExperimentDb} {task spawned : BatchTask}
    (h : spawned ∈ (taskStep task db).2.getD []) : Spawns db task spawned := by
  cases htasks : (taskStep task db).2 with
  | none =>
    rw [htasks] at h
    cases h
  | some tasks =>
    rw [htasks] at h
    exact taskStep_tasks htasks h

theorem Ran.cases (h : Ran world first others next) {task : BatchTask} (hmem : task ∈ next.tasks) :
    task ∈ others ∨ Spawns world.db first task := by
  rcases List.mem_append.mp (h.tasks.subset hmem) with hnew | hold
  · exact Or.inr (spawns_of_mem hnew)
  · exact Or.inl hold

theorem Ran.scope (h : Ran world first others next) (hbounded : Bounded window world) :
    ∀ task ∈ next.tasks, task.Dispatches window := by
  intro task hmem
  rcases h.cases hmem with hold | hspawns
  · exact hbounded.scope task (h.other_mem hold)
  · exact hspawns.dispatches (hbounded.scope first h.first_mem)

theorem recorded_recordRun {db : ExperimentDb} (env : DispatchEnv) (item : BatchItem)
    (runId taskId : String) : Recorded (taskStep (.recordRun env item runId taskId) db).1 item.id := by
  intro row hrow hid
  obtain ⟨old, -, rfl⟩ := List.mem_map.mp hrow
  split_ifs at hid ⊢ with hsame
  · simp [unrecorded]
  · exact absurd hid hsame

theorem Ran.linked (h : Ran world first others next) (hbounded : Bounded window world) :
    ∀ run ∈ next.db.runs, ∀ itemId, run.batchItemId = some itemId → Recorded next.db itemId := by
  intro run hrun itemId hlinked
  rw [h.db] at hrun ⊢
  rcases linked_step hrun hlinked with
    ⟨old, hold, hlinked⟩ | ⟨env, item, runId, taskId, rfl, rfl⟩
  · exact (hbounded.linked old hold itemId hlinked).step hbounded.unique
      (hbounded.scope first h.first_mem)
  · exact recorded_recordRun env item runId taskId

theorem Ran.reported (h : Ran world first others next) (hbounded : Bounded window world) :
    ∀ task ∈ next.tasks, ∀ itemId, task.reports = some itemId → Recorded next.db itemId := by
  intro task hmem itemId hreports
  have hscope := hbounded.scope first h.first_mem
  rw [h.db]
  rcases h.cases hmem with hold | hspawns
  · exact (hbounded.reported task (h.other_mem hold) itemId hreports).step hbounded.unique hscope
  · obtain ⟨run, hrun, hlinked⟩ := hspawns.reports hreports
    exact (hbounded.linked run hrun itemId hlinked).step hbounded.unique hscope

theorem claimed_step {db : ExperimentDb} {task : BatchTask} (hunique : Unique BatchItem.id db.items)
    (hscope : task.Dispatches window)
    (hreported : ∀ itemId, task.reports = some itemId → Recorded db itemId) {old : BatchItem}
    (hold : old ∈ db.items) (hdispatching : old.status = .dispatching)
    (hentry : ∀ entry, task.newAttempt = some entry → entry.itemId ≠ old.id) :
    ∃ row ∈ (taskStep task db).1.items, row.id = old.id ∧ row.status = .dispatching := by
  obtain ⟨row, hrow, hchange⟩ := taskStep_kept hunique hold
  refine ⟨row, hrow, hchange.id, ?_⟩
  cases hchange with
  | same => exact hdispatching
  | release hblocked | skip hblocked => cases hdispatching.symm.trans hblocked
  | claim _ hpending => cases hdispatching.symm.trans hpending
  | record hnew hid => exact absurd hid.symm (hentry _ hnew)
  | reconcile hid =>
    refine absurd ?_ (hreported _ rfl old hold hid)
    simp [hdispatching, unrecorded]
  | cancel | requeue => exact absurd hscope id

theorem records_spawned (db : ExperimentDb) (task : BatchTask) :
    ((taskStep task db).2.getD []).filterMap BatchTask.records = [] ∨
      ∃ itemId, ((taskStep task db).2.getD []).filterMap BatchTask.records = [itemId] ∧
        (task.records = some itemId ∧ task.newAttempt = none ∨
          (∃ row ∈ db.items, row.id = itemId ∧ row.status = .pending) ∧
            ∃ row ∈ (taskStep task db).1.items, row.id = itemId ∧ row.status = .dispatching) := by
  have hnone : (∀ env item, task ≠ .createRun env item) → task.claims = none →
      ((taskStep task db).2.getD []).filterMap BatchTask.records = [] := by
    intro hcreate hclaims
    refine List.filterMap_eq_nil_iff.mpr (fun next hmem => ?_)
    cases hrecords : next.records with
    | none => rfl
    | some itemId =>
      rcases (spawns_of_mem hmem).records hrecords with ⟨-, env, item, htask⟩ | hclaim
      · exact absurd htask (hcreate env item)
      · cases hclaims.symm.trans hclaim
  cases task with
  | createRun env item =>
    refine Or.inr ⟨item.id, ?_, Or.inl ⟨rfl, rfl⟩⟩
    simp only [taskStep]
    cases env.createRun item.id <;> rfl
  | claim env batch item =>
    simp only [taskStep, afterBlock, claimItem]
    cases hfind : db.item item.id with
    | none => exact Or.inl rfl
    | some found =>
      by_cases hpending : found.status ≠ .pending
      · simp only [if_pos hpending]
        exact Or.inl rfl
      · simp only [if_neg hpending]
        refine Or.inr ⟨item.id, ?_, Or.inr ⟨⟨found, mem_of_find hfind, find_key hfind,
          not_not.mp hpending⟩, { found with status := .dispatching }, ?_,
          show found.id = item.id from find_key hfind, rfl⟩⟩
        · simp only [if_true, Option.getD_some]
          split_ifs <;> rfl
        · refine List.mem_map.mpr ⟨found, mem_of_find hfind, ?_⟩
          rw [if_pos (find_key hfind)]
  | _ => exact Or.inl (hnone (by simp) rfl)

theorem Ran.recording_before (h : Ran world first others next) :
    (recording world).Perm (first.records.toList ++ others.filterMap BatchTask.records) := by
  have hbefore := h.before.filterMap BatchTask.records
  rw [List.filterMap_cons] at hbefore
  cases hrecords : first.records with
  | none =>
    rw [hrecords] at hbefore
    exact hbefore
  | some itemId =>
    rw [hrecords] at hbefore
    exact hbefore

theorem Ran.recording_after (h : Ran world first others next) :
    (recording next).Subperm
      (((taskStep first world.db).2.getD []).filterMap BatchTask.records ++
        others.filterMap BatchTask.records) := by
  obtain ⟨tasks, hperm, hsub⟩ := h.tasks
  rw [← List.filterMap_append]
  exact ⟨tasks.filterMap BatchTask.records, hperm.filterMap _, hsub.filterMap _⟩

theorem Ran.claimed_others (h : Ran world first others next) (hbounded : Bounded window world) :
    ∀ itemId ∈ others.filterMap BatchTask.records, ∃ row ∈ next.db.items, row.id = itemId ∧
      row.status = .dispatching := by
  intro itemId hmem
  have hbefore := h.recording_before
  obtain ⟨old, hold, rfl, hdispatching⟩ := hbounded.claimed itemId
    (hbefore.mem_iff.mpr (List.mem_append_right _ hmem))
  rw [h.db]
  refine claimed_step hbounded.unique (hbounded.scope first h.first_mem)
    (hbounded.reported first h.first_mem) hold hdispatching (fun entry hentry hid => ?_)
  have hnodup := hbefore.nodup_iff.mp hbounded.once
  rw [(newAttempt_records hentry).1, Option.toList_some, List.singleton_append,
    List.nodup_cons] at hnodup
  rw [hid] at hnodup
  exact hnodup.1 hmem

theorem Ran.once (h : Ran world first others next) (hbounded : Bounded window world) :
    (recording next).Nodup := by
  have hbefore := h.recording_before.nodup_iff.mp hbounded.once
  have hafter := h.recording_after
  rcases records_spawned world.db first with hnone | ⟨itemId, hone, hrecorded | hclaimed⟩
  · rw [hnone, List.nil_append] at hafter
    exact nodup_of_subperm hafter (List.nodup_append.mp hbefore).2.1
  · rw [hone, List.singleton_append] at hafter
    rw [hrecorded.1, Option.toList_some, List.singleton_append] at hbefore
    exact nodup_of_subperm hafter hbefore
  · rw [hone, List.singleton_append] at hafter
    refine nodup_of_subperm hafter (List.nodup_cons.mpr ⟨fun hmem => ?_, ?_⟩)
    · -- an item that another call has claimed does not wait
      obtain ⟨row, hrow, hid, hpending⟩ := hclaimed.1
      obtain ⟨other, hother, hid', hdispatching⟩ := hbounded.claimed itemId
        (h.recording_before.mem_iff.mpr (List.mem_append_right _ hmem))
      rw [hbounded.unique.eq hrow hother (hid.trans hid'.symm)] at hpending
      cases hpending.symm.trans hdispatching
    · exact (List.nodup_append.mp hbefore).2.1

theorem Ran.claimed (h : Ran world first others next) (hbounded : Bounded window world) :
    ∀ itemId ∈ recording next, ∃ row ∈ next.db.items, row.id = itemId ∧
      row.status = .dispatching := by
  intro itemId hmem
  rcases List.mem_append.mp (h.recording_after.subset hmem) with hnew | hold
  · rcases records_spawned world.db first with hnone | ⟨spawned, hone, hrecorded | hclaimed⟩
    · rw [hnone] at hnew
      cases hnew
    · rw [hone] at hnew
      obtain rfl := List.mem_singleton.mp hnew
      obtain ⟨old, hold, rfl, hdispatching⟩ := hbounded.claimed itemId
        (h.recording_before.mem_iff.mpr (by simp [hrecorded.1]))
      rw [h.db]
      refine claimed_step hbounded.unique (hbounded.scope first h.first_mem)
        (hbounded.reported first h.first_mem) hold hdispatching (fun entry hentry => ?_)
      cases hrecorded.2.symm.trans hentry
    · rw [hone] at hnew
      obtain rfl := List.mem_singleton.mp hnew
      rw [h.db]
      exact hclaimed.2
  · exact h.claimed_others hbounded itemId hold

theorem Ran.listed_cases (h : Ran world first others next) {itemId : Nat}
    (hmem : itemId ∈ listed next) :
    itemId ∈ listed world ∨ ∃ env item, first = .snapshot env ∧
      item ∈ takenItems env.window world.db.items ∧ item.id = itemId := by
  obtain ⟨task, htask, hclaims⟩ := List.mem_filterMap.mp hmem
  rcases h.cases htask with hold | hspawns
  · exact Or.inl (List.mem_filterMap.mpr ⟨task, h.other_mem hold, hclaims⟩)
  · exact Or.inr (hspawns.claims hclaims)

theorem takenItems_pending {size : Nat} {items : List BatchItem} {item : BatchItem}
    (h : item ∈ takenItems size items) : item ∈ items ∧ item.status = .pending := by
  obtain ⟨hmem, hpending⟩ := List.mem_filter.mp (List.mem_of_mem_take h)
  exact ⟨hmem, by simpa using hpending⟩

theorem Ran.waiting (h : Ran world first others next) (hbounded : Bounded window world) :
    ∀ itemId ∈ listed next, ∀ row ∈ next.db.items, row.id = itemId →
      row.status ≠ .blockedSelection := by
  intro itemId hmem
  rw [h.db]
  refine unblocked_step hbounded.unique ?_
  rcases h.listed_cases hmem with hold | ⟨env, item, -, htaken, rfl⟩
  · exact hbounded.waiting itemId hold
  · intro row hrow hid
    obtain ⟨hitem, hpending⟩ := takenItems_pending htaken
    rw [hbounded.unique.eq hrow hitem hid, hpending]
    exact ItemStatus.noConfusion

/-! ## The places -/

theorem Ran.fits (h : Ran world first others next) (hbounded : Bounded window world)
    (hsnapshot : ∀ env, first ≠ .snapshot env)
    (hactive : ∀ run itemId swallowed, first = .reconcileItem run itemId swallowed →
      itemStatusOf run.status ∈ active → ∀ row ∈ world.db.items, row.id = itemId →
        row.status ∈ active) :
    next.db.items.countP (Occupies (listed next)) ≤ window := by
  have hlisted : ∀ itemId ∈ listed next, itemId ∈ listed world := by
    intro itemId hmem
    rcases h.listed_cases hmem with hold | ⟨env, -, hfirst, -⟩
    · exact hold
    · exact absurd hfirst (hsnapshot env)
  have hchanges : List.Forall₂ (RowChange first) world.db.items next.db.items := by
    rw [h.db]
    exact taskStep_items hbounded.unique first
  have hscope := hbounded.scope first h.first_mem
  refine le_trans (countP_le_of_forall₂ hchanges (fun old hold row hchange hrow => ?_))
    hbounded.fits
  simp only [decide_eq_true_eq] at hrow ⊢
  cases hchange with
  | same => exact hrow.imp_right (fun hwaits => ⟨hwaits.1, hlisted _ hwaits.2⟩)
  | release hblocked =>
    rcases hrow with hnow | ⟨-, hmem⟩
    · simp [active] at hnow
    · exact absurd hblocked (hbounded.waiting _ (hlisted _ hmem) old hold rfl)
  | skip => rcases hrow with hnow | ⟨hnow, -⟩ <;> simp [active] at hnow
  | @claim env batch item _ hid hpending =>
    refine Or.inr ⟨hpending, List.mem_filterMap.mpr ⟨_, h.first_mem, ?_⟩⟩
    rw [hid]
    rfl
  | @record _ entry _ hentry hid =>
    -- the call that records has claimed the item
    obtain ⟨claimed, hclaimed, hsame, hdispatching⟩ := hbounded.claimed entry.itemId
      (List.mem_filterMap.mpr ⟨first, h.first_mem, (newAttempt_records hentry).1⟩)
    rw [hbounded.unique.eq hold hclaimed (hid.trans hsame.symm), Occupies, hdispatching]
    exact Or.inl (by simp [active])
  | @reconcile run itemId swallowed _ hid =>
    rcases hrow with hnow | ⟨hnow, -⟩
    · exact Or.inl (hactive run itemId swallowed rfl hnow old hold hid)
    · have hrecorded := itemStatusOf_recorded run.status
      rw [show itemStatusOf run.status = .pending from hnow] at hrecorded
      simp [unrecorded] at hrecorded
  | cancel | requeue => exact absurd hscope id

theorem Ran.fits_snapshot {env : DispatchEnv} (h : Ran world (.snapshot env) others next)
    (hbounded : Bounded window world)
    (hfirst : ∀ row ∈ world.db.items, row.status = .pending → row.id ∈ listed world →
      row ∈ takenItems env.window world.db.items) :
    next.db.items.countP (Occupies (listed next)) ≤ window := by
  have hwindow : env.window = window := hbounded.scope _ h.first_mem
  have hitems : next.db.items = world.db.items := by rw [h.db]; rfl
  have htaken : ∀ row ∈ world.db.items, Occupies (listed next) row →
      row.status ∈ active ∨ row ∈ takenItems env.window world.db.items := by
    intro row hrow hoccupies
    refine hoccupies.imp_right (fun hwaits => ?_)
    rcases h.listed_cases hwaits.2 with hold | ⟨other, item, hother, hitem, hid⟩
    · exact hfirst row hrow hwaits.1 hold
    · obtain rfl := BatchTask.snapshot.inj hother
      rw [hbounded.unique.eq hrow (takenItems_pending hitem).1 hid.symm]
      exact hitem
  have hroom : (takenItems env.window world.db.items).length ≤
      window - inFlight world.db.items := by
    rw [← hwindow]
    exact List.length_take_le _ _
  have hnodup : world.db.items.Nodup := hbounded.unique.of_map
  rw [hitems]
  calc world.db.items.countP (Occupies (listed next))
      ≤ world.db.items.countP (fun row => decide (row.status ∈ active) ||
          decide (row ∈ takenItems env.window world.db.items)) := by
        refine List.countP_mono_left (fun row hrow hoccupies => ?_)
        simpa using htaken row hrow (by simpa using hoccupies)
    _ ≤ inFlight world.db.items +
          world.db.items.countP (fun row => row ∈ takenItems env.window world.db.items) :=
        countP_or_le _
    _ ≤ inFlight world.db.items + (window - inFlight world.db.items) := by
        have hcount : world.db.items.countP
            (fun row => row ∈ takenItems env.window world.db.items) ≤
              (takenItems env.window world.db.items).length := countP_mem_le hnodup
        omega
    _ ≤ window := by
        have hle := hbounded.inFlight_le
        omega

theorem Ran.fits_over {env : DispatchEnv} (h : Ran world (.snapshot env) others next)
    (hbounded : Bounded window world)
    (hover : world.db.batch.cancelRequested = true ∨ world.db.batch.status ∈ terminalStatuses) :
    next.db.items.countP (Occupies (listed next)) ≤ window := by
  have htasks : ((taskStep (.snapshot env) world.db).2.getD []) = [] := by
    simp only [taskStep, dispatchTasks, if_pos hover]
    rfl
  have hitems : next.db.items = world.db.items := by rw [h.db]; rfl
  rw [hitems]
  refine le_trans (List.countP_mono_left (fun row _ hrow => ?_)) hbounded.fits
  simp only [decide_eq_true_eq] at hrow ⊢
  refine hrow.imp_right (fun hwaits => ⟨hwaits.1, ?_⟩)
  obtain ⟨task, htask, hclaims⟩ := List.mem_filterMap.mp hwaits.2
  have hmem := h.tasks.subset htask
  rw [htasks, List.nil_append] at hmem
  exact List.mem_filterMap.mpr ⟨task, h.other_mem hmem, hclaims⟩

theorem Bounded.run (h : Bounded window world) {index : Nat}
    (hkeeps : KeepsWindow window world (.run index)) :
    Bounded window (world.next taskStep BatchCall.tasks (.run index)) := by
  cases htask : world.task index with
  | none =>
    rw [World.next_idle htask]
    exact h
  | some first =>
    obtain ⟨rest, hcall⟩ := World.task_some htask
    obtain ⟨others, hran⟩ := ran_of_call hcall
    simp only [KeepsWindow, htask] at hkeeps
    refine ⟨?_, hran.scope h, hran.linked h, hran.reported h, hran.once h, hran.claimed h,
      hran.waiting h, ?_⟩
    · rw [hran.db]
      exact unique_step first h.unique
    · cases first with
      | snapshot env =>
        rcases hkeeps with hcancelled | hover | hfirst
        · exact hran.fits_over h (Or.inl hcancelled)
        · exact hran.fits_over h (Or.inr hover)
        · exact hran.fits_snapshot h hfirst
      | reconcileItem run itemId swallowed =>
        refine hran.fits h (fun _ => BatchTask.noConfusion) ?_
        intro _ _ _ hsame
        obtain ⟨rfl, rfl, -⟩ := BatchTask.reconcileItem.inj hsame
        exact hkeeps
      | _ =>
        exact hran.fits h (fun _ => BatchTask.noConfusion) (fun _ _ _ => BatchTask.noConfusion)

end Invariant

/-! ## Every run -/

/-- `max(4, 2 * int(settings.get("maxConcurrentJobs") or 1))` -/
def windowOf (maxConcurrentJobs : Int) : Nat :=
  (max 4 (2 * (if maxConcurrentJobs = 0 then 1 else maxConcurrentJobs))).toNat

theorem bounded_of_created {start : ExperimentDb} (hcreated : Created start) (window : Nat) :
    Bounded window (quietWorld start) := by
  obtain ⟨hunique, hitems, -, hruns, -⟩ := undispatched_of_created hcreated
  have hfree : start.items.countP (Occupies []) = 0 := by
    refine List.countP_eq_zero.mpr (fun item hitem => ?_)
    rcases (hitems item hitem).2.2 with hpending | hblocked
    · simp [Occupies, hpending, active]
    · simp [Occupies, hblocked, active]
  refine ⟨hunique, by simp [quietWorld, World.tasks], ?_, by simp [quietWorld, World.tasks],
    by simp [recording, quietWorld, World.tasks], by simp [recording, quietWorld, World.tasks],
    by simp [listed, quietWorld, World.tasks], ?_⟩
  · intro run hrun
    rw [show (quietWorld start).db.runs = [] from hruns] at hrun
    cases hrun
  · show start.items.countP (Occupies []) ≤ window
    omega

/-- In every run of dispatches with a window, in which every snapshot finds the items
that other calls have still to claim first, no more items are in flight than it has
places. -/
theorem dispatch_bounded {start : ExperimentDb} (hcreated : Created start) (jobs : Int)
    {actions : List (WorldAction BatchCall)}
    (haccepts : (batchWorld.restrict (KeepsWindow (windowOf jobs))).Accepts (quietWorld start)
      actions) :
    inFlight (batchWorld.after (quietWorld start) actions).db.items ≤ windowOf jobs := by
  have hstep : ∀ world action, Bounded (windowOf jobs) world →
      (batchWorld.restrict (KeepsWindow (windowOf jobs))).allowed world action →
        Bounded (windowOf jobs)
          ((batchWorld.restrict (KeepsWindow (windowOf jobs))).next world action) := by
    intro world action h hallowed
    cases action with
    | start call => exact h.start hallowed.2
    | run index => exact h.run hallowed.2
  exact (Machine.invariant hstep actions _ (bounded_of_created hcreated _) haccepts).inFlight_le

/-! ## Two dispatches -/

/-- Dispatches with a window, and runs that end. -/
def Completes (window : Nat) (_ : BatchWorld) : WorldAction BatchCall → Prop
  | .start (.deliver _ status _ _) => itemStatusOf status ∈ terminal
  | .start call => call.Dispatches window
  | .run _ => True

instance (window : Nat) : DecidablePred (BatchCall.Dispatches window) := fun call =>
  match call with
  | .refresh | .deliver _ _ _ _ => .isTrue trivial
  | .dispatchWindow env => inferInstanceAs (Decidable (env.window = window))
  | .cancel | .retryFailed _ | .restartCancelled _ => .isFalse id

instance (window : Nat) (world : BatchWorld) : DecidablePred (Completes window world) :=
  fun action =>
    match action with
    | .start (.deliver _ status _ _) => inferInstanceAs (Decidable (itemStatusOf status ∈ terminal))
    | .start .refresh => inferInstanceAs (Decidable (BatchCall.refresh.Dispatches window))
    | .start (.dispatchWindow env) =>
      inferInstanceAs (Decidable ((BatchCall.dispatchWindow env).Dispatches window))
    | .start .cancel => inferInstanceAs (Decidable (BatchCall.cancel.Dispatches window))
    | .start (.retryFailed env) =>
      inferInstanceAs (Decidable ((BatchCall.retryFailed env).Dispatches window))
    | .start (.restartCancelled env) =>
      inferInstanceAs (Decidable ((BatchCall.restartCancelled env).Dispatches window))
    | .run _ => .isTrue trivial

instance (window : Nat) (world : BatchWorld) : DecidablePred (KeepsWindow window world) :=
  fun action =>
    match action with
    | .start call => inferInstanceAs (Decidable (call.Dispatches window))
    | .run index => by
      unfold KeepsWindow
      simp only
      split <;> infer_instance

def fourFolds : List PlannedItem :=
  expandWalkForward ["p"] ["600000"] [0, 1, 2, 3] (fun _ => [("base", [])])

/-- The batch of these items, as it is created. -/
def fourFoldBatch : ExperimentDb :=
  match createBatch "backtest" none fourFolds with
  | .ok db => db
  | .error _ => singleBatch

theorem created_fourFolds : Created fourFoldBatch := by
  have hcreate : createBatch "backtest" none fourFolds = .ok fourFoldBatch := by decide +kernel
  exact .walkForward (by decide) (by decide) hcreate

def fourPlaces : BatchCall := .dispatchWindow { acceptingEnv with window := windowOf 1 }

def succeeds (runId : String) : BatchCall :=
  .deliver runId "success" none [("Sharpe Ratio", .text "1.5")]

def goesOn (call blocks : Nat) : List (WorldAction BatchCall) := List.replicate blocks (.run call)

/-- A second dispatch reads its snapshot before the first one has claimed an item. -/
def overlapping : List (WorldAction BatchCall) :=
  .start fourPlaces :: goesOn 0 8 ++ .start fourPlaces :: goesOn 1 8 ++ goesOn 0 6 ++ goesOn 1 12

theorem dispatch_bounded_overlapping :
    inFlight (batchWorld.after (quietWorld fourFoldBatch) overlapping).db.items ≤ windowOf 1 :=
  dispatch_bounded created_fourFolds 1 (by decide +kernel)

def firstDispatch : List (WorldAction BatchCall) := .start fourPlaces :: goesOn 0 40

/-- A second dispatch has refreshed the batch when the four runs end. -/
def runsEnd : List (WorldAction BatchCall) :=
  .start fourPlaces :: goesOn 1 7 ++
    [.start (succeeds "run-0"), .start (succeeds "run-1"), .start (succeeds "run-3"),
      .start (succeeds "run-4")] ++
    goesOn 2 4 ++ goesOn 3 4 ++ goesOn 4 4 ++ goesOn 5 4

/-- It reads its snapshot, and a third dispatch releases the out-of-sample items of the
folds that are validated and claims them before the second goes on. -/
def releasedBetween : List (WorldAction BatchCall) :=
  .run 1 :: .start fourPlaces :: goesOn 6 30 ++ goesOn 1 20

/-- Six items are in flight and the window has four places. -/
theorem dispatch_exceeds_window :
    ¬ ∀ (start : ExperimentDb) (jobs : Int) (actions : List (WorldAction BatchCall)),
      Created start → (batchWorld.restrict (Completes (windowOf jobs))).Accepts (quietWorld start)
        actions → inFlight (batchWorld.after (quietWorld start) actions).db.items ≤
          windowOf jobs := by
  intro h
  have hbound := h fourFoldBatch 1 (firstDispatch ++ runsEnd ++ releasedBetween) created_fourFolds
    (by decide +kernel)
  revert hbound
  decide +kernel

end LocalPlatform.Experiments
