import LocalPlatform.Experiments.AttemptLog
import LocalPlatform.Experiments.Cancellation

/-!
# An item and its current attempt

A run keeps its `batch_item_id` when a retry gives the item another run, and
`reconcile_backtest` writes the item and the attempt row with the present number of
the item, whichever run it is called for.

* `Attributed` is what a batch promises: the status, the result and the
  out-of-sample evaluation of an item are those of the run in `related_id`, and an
  attempt is finished by its own run.
* `KeepsAttempts` says what a call must not do, and `attributed_after` that every
  run of such calls keeps the promise.
-/

namespace LocalPlatform.Experiments

open Paper Transaction Transaction.TxM Machines Tables

/-! ## The promise -/

/-- Every item, evaluation and attempt with a run holds what its run reports, and an
item without a run holds no result of one. -/
structure Attributed (db : ExperimentDb) : Prop where
  unused : db.batch.kind ≠ "research" → ∀ item ∈ db.items, item.relatedId = none → Unused db item
  items : ∀ item ∈ db.items, ∀ runId, item.relatedId = some runId →
    ∃ run, db.backtest runId = some run ∧ item.status = itemStatusOf run.status ∧
      item.statistics = run.statistics
  evaluations : ∀ item ∈ db.items, ∀ runId, item.relatedId = some runId →
    ∀ evaluation, db.evaluationOf item.id = some evaluation → evaluation.oosRunId = none ∨
      ∃ run, db.backtest runId = some run ∧ Evaluates run evaluation
  attempts : ∀ a ∈ db.attempts, ∀ runId, a.relatedId = some runId →
    ∃ run, db.backtest runId = some run ∧ a.status = itemStatusOf run.status ∧
      a.error = run.error

theorem AttemptLog.attributed {db : ExperimentDb} (h : AttemptLog [] db) : Attributed db := by
  have hnone : ∀ run : BacktestRun, ¬ Cancelling [] run := by simp [Cancelling]
  refine ⟨h.unused, ?_, h.evaluation, ?_⟩
  · intro item hitem runId hrelated
    obtain ⟨run, hfound, hof⟩ := h.item item hitem runId hrelated
    exact ⟨run, hfound, hof.status.resolve_left (hnone run), hof.statistics⟩
  · intro a ha runId hrelated
    obtain ⟨run, hfound, hof⟩ := h.attempt a ha runId hrelated
    exact ⟨run, hfound, hof.reported.resolve_left (hnone run)⟩

/-! ## Dispatch -/

/-- The run that a dispatch creates for an item. -/
def DispatchEnv.runName (env : DispatchEnv) (itemId : Nat) : String :=
  match env.createRun itemId with
  | .ok (runId, _) => runId
  | .error _ => (env.failedRun itemId).1

/-- The backtest service gives every item a run with a name of its own. -/
structure DispatchEnv.Fresh (env : DispatchEnv) (db : ExperimentDb) : Prop where
  named : ∀ item ∈ db.items, env.runName item.id ≠ ""
  unknown : ∀ item ∈ db.items, db.backtest (env.runName item.id) = none
  distinct : (db.items.map (fun item => env.runName item.id)).Nodup

/-- What the dispatch of an item leaves of the other rows. -/
structure DispatchFrame (name : String) (itemId : Nat) (db after : ExperimentDb) : Prop where
  kind : after.batch.kind = db.batch.kind
  items : ∀ row ∈ db.items, row.id ≠ itemId → row ∈ after.items
  runs : ∀ runId, runId ≠ name → db.backtest runId = none → after.backtest runId = none

section Dispatch

variable {db : ExperimentDb} {env : DispatchEnv} {item : BatchItem}

theorem claimed_row (hitem : item ∈ db.items) (status : ItemStatus) :
    { item with status := status } ∈
      (updateItem item.id (fun row => { row with status := status }) db).items := by
  refine List.mem_map.mpr ⟨item, hitem, ?_⟩
  rw [if_pos rfl]

variable {row : BatchItem}

theorem updateItem_other {itemId : Nat} {f : BatchItem → BatchItem} (hrow : row ∈ db.items)
    (hne : row.id ≠ itemId) : row ∈ (updateItem itemId f db).items := by
  refine List.mem_map.mpr ⟨row, hrow, ?_⟩
  rw [if_neg hne]

theorem DispatchFrame.trans {name : String} {itemId : Nat} {a b c : ExperimentDb}
    (h : DispatchFrame name itemId a b) (h' : DispatchFrame name itemId b c) :
    DispatchFrame name itemId a c :=
  ⟨h'.kind.trans h.kind, fun row hrow hne => h'.items row (h.items row hrow hne) hne,
    fun runId hne hnone => h'.runs runId hne (h.runs runId hne hnone)⟩

variable {run : BacktestRun}

theorem updateRun_added (hfresh : db.backtest run.id = none) (f : BacktestRun → BacktestRun) :
    updateRun run.id f { db with runs := db.runs ++ [run] } =
      { db with runs := db.runs ++ [f run] } := by
  refine congrArg (fun runs => { db with runs := runs }) ?_
  rw [List.map_append, List.map_singleton, if_pos rfl]
  refine congrArg (· ++ _) ?_
  refine (List.map_congr_left (fun old hold => ?_)).trans (List.map_id _)
  rw [if_neg]
  · rfl
  · intro hid
    have hne := List.find?_eq_none.mp hfresh old hold
    simp [hid] at hne

theorem backtest_append_none {runId : String} (hne : runId ≠ run.id) (h : db.backtest runId = none) :
    ExperimentDb.backtest { db with runs := db.runs ++ [run] } runId = none := by
  unfold ExperimentDb.backtest Tables.find at h ⊢
  rw [List.find?_append, h]
  simp [Ne.symm hne]

theorem dispatchResearch_log (h : AttemptLog [] db) (hkind : db.batch.kind = "research")
    (hrow : row ∈ db.items) (hid : row.id = item.id) (hattempt : row.attempt = item.attempt) :
    AttemptLog [] (dispatchResearch env item db).state ∧
      DispatchFrame (env.runName item.id) item.id db (dispatchResearch env item db).state := by
  unfold dispatchResearch
  cases env.publish item.id with
  | error message =>
    exact ⟨h.recordResearch hkind hrow hid hattempt none .failed (some message),
      ⟨rfl, fun row hmem hne => updateItem_other hmem hne, fun _ _ hnone => hnone⟩⟩
  | ok taskId =>
    exact ⟨h.recordResearch hkind hrow hid hattempt (some taskId) .queued none,
      ⟨rfl, fun row hmem hne => updateItem_other hmem hne, fun _ _ hnone => hnone⟩⟩

theorem Reported.frame {after : ExperimentDb} (hreported : Reported run item db after) :
    DispatchFrame run.id item.id db after := by
  refine ⟨congrArg Batch.kind hreported.batch, fun row hrow hne => ?_, fun runId hne hnone => ?_⟩
  · rw [hreported.items]
    refine List.mem_map.mpr ⟨row, hrow, ?_⟩
    rw [if_neg hne]
  · rw [hreported.others runId hne]
    exact hnone

theorem record_frame {taskId : Option String} {status : ItemStatus} {error : Option String} :
    DispatchFrame run.id item.id db (recordAttempt item (some run.id) taskId status error
      { db with runs := db.runs ++ [run] }) :=
  ⟨rfl, fun _ hrow hne => updateItem_other hrow hne,
    fun _ hne hnone => backtest_append_none hne hnone⟩

theorem dispatch_unqueued (h : AttemptLog [] db) (hkind : db.batch.kind ≠ "research")
    (hrow : row ∈ db.items) (hnone : row.relatedId = none) (hid : row.id = item.id)
    (hattempt : row.attempt = item.attempt) (hnamed : run.id ≠ "")
    (hfresh : db.backtest run.id = none) (hcreated : run.status = "created")
    (hstatistics : run.statistics = []) (hlinked : run.batchItemId = some item.id)
    (taskId : Option String) {f : BacktestRun → BacktestRun} (hf : ∀ run, (f run).id = run.id)
    (hlink : ∀ run, (f run).batchItemId = run.batchItemId) {after : ExperimentDb}
    (hafter : after = (reconcileBacktest run.id (updateRun run.id f
      (recordAttempt item (some run.id) taskId .queued none
        { db with runs := db.runs ++ [run] }))).state) :
    AttemptLog [] after ∧ DispatchFrame run.id item.id db after := by
  have hlive : Cancelling [run.id] run := by
    refine ⟨List.mem_singleton_self _, ?_⟩
    rw [hcreated]
    decide +kernel
  have hlog : AttemptLog [run.id] (recordAttempt item (some run.id) taskId .queued none
      { db with runs := db.runs ++ [run] }) :=
    h.record hkind hrow hnone hid hattempt hfresh hnamed hstatistics (Or.inl hlinked) taskId
      (by decide) (Or.inl hlive)
  have hframe : DispatchFrame run.id item.id db (recordAttempt item (some run.id) taskId .queued
    none { db with runs := db.runs ++ [run] }) := record_frame
  have hfound : (recordAttempt item (some run.id) taskId .queued none
      { db with runs := db.runs ++ [run] }).backtest run.id = some run := by
    have hadded := find_append_singleton hfresh run.id
    rw [if_pos rfl] at hadded
    exact hadded
  have hmem : recordedRow item (some run.id) taskId .queued none row ∈
      (recordAttempt item (some run.id) taskId .queued none
        { db with runs := db.runs ++ [run] }).items := by
    refine List.mem_map.mpr ⟨row, hrow, ?_⟩
    rw [if_pos hid]
    rfl
  generalize recordAttempt item (some run.id) taskId .queued none
    { db with runs := db.runs ++ [run] } = before at hafter hlog hframe hfound hmem
  have hrowLinked : run.batchItemId =
      some (recordedRow item (some run.id) taskId .queued none row).id := by
    rw [hlinked, ← hid]
    rfl
  have hreported := report_reported hlog.numbered.ids hlog.windows hf hlink hmem hfound hrowLinked
  rw [← hafter] at hreported
  have hsame : (f run).id = run.id := hf run
  rw [← hsame] at hlog
  refine ⟨hlog.report hreported hmem ?_ ((hlink run).trans hrowLinked), hframe.trans ?_⟩
  · rw [hsame]
    rfl
  · have hreportedFrame := hreported.frame
    rw [hsame, show (recordedRow item (some run.id) taskId .queued none row).id = item.id from hid]
      at hreportedFrame
    exact hreportedFrame

/-- The dispatch of a backtest. -/
theorem dispatchBacktest_log (h : AttemptLog [] db) (hkind : db.batch.kind ≠ "research")
    (hrow : row ∈ db.items) (hnone : row.relatedId = none) (hid : row.id = item.id)
    (hattempt : row.attempt = item.attempt) (hnamed : env.runName item.id ≠ "")
    (hfresh : db.backtest (env.runName item.id) = none) :
    AttemptLog [] (dispatchBacktest env item db).state ∧
      DispatchFrame (env.runName item.id) item.id db (dispatchBacktest env item db).state := by
  unfold dispatchBacktest
  unfold DispatchEnv.runName at hnamed hfresh ⊢
  cases hcreate : env.createRun item.id with
  | error message =>
    rw [hcreate] at hnamed hfresh
    let run : BacktestRun :=
      { id := (env.failedRun item.id).1, taskId := (env.failedRun item.id).2, status := "failed",
        error := some message }
    have hlog : AttemptLog [] (recordAttempt item (some run.id) (some (env.failedRun item.id).2)
        .failed (some message) { db with runs := db.runs ++ [run] }) :=
      h.record hkind hrow hnone hid hattempt hfresh hnamed rfl (Or.inr rfl) _ (by decide)
        (Or.inr ⟨rfl, rfl⟩)
    have hframe : DispatchFrame run.id item.id db (recordAttempt item (some run.id)
        (some (env.failedRun item.id).2) .failed (some message)
        { db with runs := db.runs ++ [run] }) := record_frame
    exact ⟨hlog, hframe⟩
  | ok created =>
    obtain ⟨runId, taskId⟩ := created
    rw [hcreate] at hnamed hfresh
    simp only at hnamed hfresh ⊢
    let run : BacktestRun := { id := runId, taskId := taskId, status := "created" }
    let linked : BacktestRun := { run with batchItemId := some item.id }
    have hadded : updateRun run.id (fun run => { run with batchItemId := some item.id })
        { db with runs := db.runs ++ [run] } = { db with runs := db.runs ++ [linked] } :=
      updateRun_added hfresh _
    cases env.publish item.id with
    | error message =>
      let fails := fun (run : BacktestRun) =>
        { run with status := "failed", error := some message }
      have hid' : ∀ run, (fails run).id = run.id := fun _ => rfl
      have hlink' : ∀ run, (fails run).batchItemId = run.batchItemId := fun _ => rfl
      refine dispatch_unqueued h hkind hrow hnone hid hattempt hnamed hfresh
        (show linked.status = _ from rfl) rfl rfl (some taskId) hid' hlink' ?_
      rw [← hadded]
      rfl
    | ok _ =>
      have hqueued : updateRun linked.id (fun run => { run with status := "queued" })
          { db with runs := db.runs ++ [linked] } =
            { db with runs := db.runs ++ [{ linked with status := "queued" }] } :=
        updateRun_added hfresh _
      let queued : BacktestRun := { linked with status := "queued" }
      have hlog : AttemptLog [] (recordAttempt item (some queued.id) (some taskId) .queued none
          { db with runs := db.runs ++ [queued] }) :=
        h.record hkind hrow hnone hid hattempt hfresh hnamed rfl (Or.inl rfl) _ (by decide)
          (Or.inr ⟨rfl, rfl⟩)
      have hframe : DispatchFrame queued.id item.id db (recordAttempt item (some queued.id)
          (some taskId) .queued none { db with runs := db.runs ++ [queued] }) := record_frame
      have hafter : updateRun linked.id (fun run => { run with status := "queued" })
          (recordAttempt item (some linked.id) (some taskId) .queued none
            (updateRun run.id (fun run => { run with batchItemId := some item.id })
              { db with runs := db.runs ++ [run] })) =
          recordAttempt item (some queued.id) (some taskId) .queued none
            { db with runs := db.runs ++ [queued] } := by
        rw [hadded]
        show recordAttempt item (some linked.id) (some taskId) .queued none
          (updateRun linked.id _ _) = _
        rw [hqueued]
      rw [← hafter] at hlog hframe
      exact ⟨hlog, hframe⟩

theorem dispatchItem_log (h : AttemptLog [] db) {batch : Batch}
    (hbatch : batch.kind = db.batch.kind) (hitem : item ∈ db.items)
    (hpending : item.status = .pending) (hnamed : env.runName item.id ≠ "")
    (hfresh : db.backtest (env.runName item.id) = none) :
    AttemptLog [] (dispatchItem env batch item db).state ∧
      DispatchFrame (env.runName item.id) item.id db (dispatchItem env batch item db).state := by
  have hnone := h.idle item hitem (by rw [hpending]; decide)
  have hclaim : claimItem item.id db =
      .ok (true, updateItem item.id (fun row => { row with status := .dispatching }) db) := by
    unfold claimItem
    rw [show db.item item.id = some item from h.numbered.ids.find_of_mem hitem]
    simp [hpending]
  have hclaimed := h.claim hitem hpending
  have hrow := claimed_row hitem .dispatching
  have hframe : DispatchFrame (env.runName item.id) item.id db
      (updateItem item.id (fun row => { row with status := .dispatching }) db) :=
    ⟨rfl, fun row hmem hne => updateItem_other hmem hne, fun _ _ hfound => hfound⟩
  have hstate : (dispatchItem env batch item db).state =
      ((if batch.kind = "research" then dispatchResearch env item
        else dispatchBacktest env item : TxM ExperimentDb BatchError Unit)
        (updateItem item.id (fun row => { row with status := .dispatching }) db)).state := by
    have hvalue : (TxM.tx (claimItem item.id) db).value = .ok true := by
      simp only [TxM.tx, hclaim]
    have htx : (TxM.tx (claimItem item.id) db).state =
        updateItem item.id (fun row => { row with status := .dispatching }) db := by
      simp only [TxM.tx, hclaim]
    show ((TxM.tx (claimItem item.id) >>= _) db).state = _
    rw [bind_ok hvalue, htx]
    rfl
  rw [hstate]
  generalize hdb : updateItem item.id (fun row => { row with status := .dispatching }) db = claimed
    at hclaimed hrow hframe
  have hclaimedKind : claimed.batch.kind = db.batch.kind := hframe.kind
  by_cases hkind : batch.kind = "research"
  · rw [if_pos hkind]
    have hlater : AttemptLog [] (dispatchResearch env item claimed).state ∧
        DispatchFrame (env.runName item.id) item.id claimed
          (dispatchResearch env item claimed).state :=
      dispatchResearch_log hclaimed (hclaimedKind.trans (hbatch.symm.trans hkind)) hrow rfl rfl
    exact ⟨hlater.1, hframe.trans hlater.2⟩
  · rw [if_neg hkind]
    have hother : claimed.batch.kind ≠ "research" := by
      rw [hclaimedKind, ← hbatch]
      exact hkind
    have hfresh' : claimed.backtest (env.runName item.id) = none := by
      rw [← hdb]
      exact hfresh
    have hlater : AttemptLog [] (dispatchBacktest env item claimed).state ∧
        DispatchFrame (env.runName item.id) item.id claimed
          (dispatchBacktest env item claimed).state :=
      dispatchBacktest_log hclaimed hother hrow hnone rfl rfl hnamed hfresh'
    exact ⟨hlater.1, hframe.trans hlater.2⟩

/-- What the loop of a dispatch still has to do. -/
structure Dispatching (env : DispatchEnv) (kind : String) (rest : List BatchItem)
    (db : ExperimentDb) : Prop where
  log : AttemptLog [] db
  kind : db.batch.kind = kind
  waiting : ∀ item ∈ rest, item ∈ db.items ∧ item.status = .pending
  named : ∀ item ∈ rest, env.runName item.id ≠ ""
  unknown : ∀ item ∈ rest, db.backtest (env.runName item.id) = none
  ids : (rest.map BatchItem.id).Nodup
  distinct : (rest.map (fun item => env.runName item.id)).Nodup

theorem Dispatching.next {kind : String} {rest : List BatchItem} {batch : Batch}
    (h : Dispatching env kind (item :: rest) db) (hbatch : batch.kind = kind) :
    Dispatching env kind rest (dispatchItem env batch item db).state := by
  obtain ⟨hitem, hpending⟩ := h.waiting item List.mem_cons_self
  obtain ⟨hlog, hframe⟩ := dispatchItem_log h.log (hbatch.trans h.kind.symm) hitem hpending
    (h.named item List.mem_cons_self) (h.unknown item List.mem_cons_self)
  obtain ⟨hid, hids⟩ := List.nodup_cons.mp h.ids
  obtain ⟨hname, hdistinct⟩ := List.nodup_cons.mp h.distinct
  refine ⟨hlog, hframe.kind.trans h.kind, ?_, ?_, ?_, hids, hdistinct⟩
  · intro other hother
    obtain ⟨hmem, hwaits⟩ := h.waiting other (List.mem_cons_of_mem _ hother)
    refine ⟨hframe.items other hmem ?_, hwaits⟩
    rintro hsame
    rw [← hsame] at hid
    exact hid (List.mem_map_of_mem hother)
  · exact fun other hother => h.named other (List.mem_cons_of_mem _ hother)
  · intro other hother
    refine hframe.runs _ ?_ (h.unknown other (List.mem_cons_of_mem _ hother))
    intro hsame
    exact hname (List.mem_map.mpr ⟨other, hother, hsame⟩)

end Dispatch

/-! ## Calls -/

/-- The items with these statuses may wait again. -/
def Requeueable (statuses : List ItemStatus) (db : ExperimentDb) : Prop :=
  db.batch.kind ≠ "research" → ∀ item ∈ db.items, item.status ∈ statuses → Restartable db item

theorem Requeueable.freeze {statuses : List ItemStatus} {objective : Objective}
    {items : List BatchItem} {key : WindowKey} {selected : RankingRow} {ranking : List RankingRow}
    {oos : BatchItem} {db db' : ExperimentDb}
    (hstep : FreezeStep objective items key selected ranking oos db db') (hlog : AttemptLog [] db)
    (h : Requeueable statuses db) : Requeueable statuses db' := by
  obtain ⟨oosInput, hevaluations⟩ := hstep.evaluations
  intro hkind row hmem hstatus
  rw [hstep.batch] at hkind
  rw [hstep.items] at hmem
  obtain ⟨old, hold, rfl⟩ := List.mem_map.mp hmem
  obtain ⟨hnames, hstatistics, hsame⟩ := releaseItem_row selected.candidateKey
    (phaseItems items key "oos") old
  have hid := congrArg ItemNames.id hnames
  have hrelated := congrArg ItemNames.relatedId hnames
  have hunused : Unused db old ∧ (old.status = .blockedSelection → old.relatedId = none) := by
    refine ⟨?_, fun hblocked => hlog.idle old hold (by rw [hblocked]; decide)⟩
    rcases hsame with hkept | hblocked
    · rw [hkept] at hstatus
      exact (h hkind old hold hstatus).unused
    · exact hlog.unused hkind old hold (hlog.idle old hold (by rw [hblocked]; decide))
  refine ⟨⟨hstatistics.trans hunused.1.statistics, fun evaluation hfound => ?_⟩, fun hskipped => ?_⟩
  · rw [show (releaseItem _ _ old).id = old.id from hid] at hfound
    rcases evaluationOf_append hevaluations rfl old.id evaluation hfound with hbefore | hnone
    · exact hunused.1.evaluation evaluation hbefore
    · exact hnone
  · refine hrelated.trans ?_
    rcases hsame with hkept | hblocked
    · rw [hkept] at hstatus hskipped
      exact (h hkind old hold hstatus).skipped hskipped
    · exact hunused.2 hblocked

/-- What a refresh leaves. -/
structure Refreshed (db after : ExperimentDb) : Prop where
  log : AttemptLog [] db → AttemptLog [] after
  requeueable : ∀ statuses, AttemptLog [] db → Requeueable statuses db →
    Requeueable statuses after
  kind : after.batch.kind = db.batch.kind
  ids : after.items.map BatchItem.id = db.items.map BatchItem.id
  runs : after.runs = db.runs

theorem refreshing_refreshed : Refreshing Refreshed where
  refl := fun _ => ⟨id, fun _ _ => id, rfl, rfl, rfl⟩
  trans := fun _ _ _ h h' => ⟨fun hlog => h'.log (h.log hlog),
    fun statuses hlog hitems => h'.requeueable statuses (h.log hlog)
      (h.requeueable statuses hlog hitems),
    h'.kind.trans h.kind, h'.ids.trans h.ids, h'.runs.trans h.runs⟩
  freeze := fun hstep => by
    refine ⟨fun hlog => hlog.freeze hstep, fun _ hlog hitems => hitems.freeze hstep hlog,
      by rw [hstep.batch], ?_, hstep.runs⟩
    rw [hstep.items, List.map_map]
    refine List.map_congr_left (fun row _ => ?_)
    exact congrArg ItemNames.id (releaseItem_row _ _ row).1
  storeStatus := fun _ _ => ⟨(refreshing_attemptLog []).storeStatus _ _,
    fun _ _ hitems hkind row hmem hstatus =>
      have ⟨⟨hstatistics, hevaluation⟩, hskipped⟩ := hitems hkind row hmem hstatus
      ⟨⟨hstatistics, hevaluation⟩, hskipped⟩, rfl, rfl, rfl⟩
  walkForwardRun := fun _ _ => ⟨(refreshing_attemptLog []).walkForwardRun _ _,
    fun _ _ hitems hkind row hmem hstatus =>
      have ⟨⟨hstatistics, hevaluation⟩, hskipped⟩ := hitems hkind row hmem hstatus
      ⟨⟨hstatistics, hevaluation⟩, hskipped⟩, rfl, rfl, rfl⟩

section Calls

variable {db : ExperimentDb} {env : DispatchEnv}

theorem DispatchEnv.Fresh.of_rows (h : env.Fresh db) {after : ExperimentDb}
    (hids : after.items.map BatchItem.id = db.items.map BatchItem.id)
    (hruns : after.runs = db.runs) : env.Fresh after := by
  have hrow : ∀ row ∈ after.items, ∃ item ∈ db.items, item.id = row.id := by
    intro row hmem
    have hid : row.id ∈ db.items.map BatchItem.id := by
      rw [← hids]
      exact List.mem_map_of_mem hmem
    exact List.mem_map.mp hid
  refine ⟨?_, ?_, ?_⟩
  · intro row hmem
    obtain ⟨item, hitem, hid⟩ := hrow row hmem
    rw [← hid]
    exact h.named item hitem
  · intro row hmem
    obtain ⟨item, hitem, hid⟩ := hrow row hmem
    unfold ExperimentDb.backtest
    rw [hruns, ← hid]
    exact h.unknown item hitem
  · have hnames : after.items.map (fun item => env.runName item.id) =
        db.items.map (fun item => env.runName item.id) := by
      have hmapped := congrArg (List.map env.runName) hids
      rw [List.map_map, List.map_map] at hmapped
      exact hmapped
    rw [hnames]
    exact h.distinct

def Leaves {α : Type} (m : TxM ExperimentDb BatchError α) (db : ExperimentDb) : Prop :=
  wp (fun _ => True) m (fun _ after => AttemptLog [] after) db

theorem Leaves.of_state {α : Type} {m : TxM ExperimentDb BatchError α}
    (h : AttemptLog [] (m db).state) : Leaves m db := ⟨fun _ _ => trivial, h⟩

theorem leaves_refresh (h : AttemptLog [] db) : Leaves refresh db :=
  .of_state ((refreshing_refreshed.refresh refreshing_refreshed.within db).2.log h)

theorem leaves_detail {f : Batch × List BatchItem → TxM ExperimentDb BatchError Unit}
    (h : AttemptLog [] db)
    (hf : ∀ t, Refreshed db t → AttemptLog [] t → Leaves (f (t.batch, t.items)) t) :
    Leaves (detail >>= f) db := by
  have hrefresh : wp (fun _ => True) refresh (fun _ t => Refreshed db t) db :=
    ⟨fun _ _ => trivial, (refreshing_refreshed.refresh refreshing_refreshed.within db).2⟩
  refine wp_bind (wp_mono (wp_detail hrefresh) (fun _ h => h) ?_)
  intro r t ht
  cases r with
  | error e => exact ht.1.log h
  | ok snapshot =>
    rw [ht.2 snapshot rfl]
    exact hf t ht.1 (ht.1.log h)

theorem leaves_write {f : Unit → TxM ExperimentDb BatchError Unit}
    {g : ExperimentDb → ExperimentDb} (h : Leaves (f ()) (g db)) :
    Leaves (TxM.tx (fun db => .ok ((), g db)) >>= f) db := by
  refine wp_bind (wp_tx (fun _ t hok => ?_) (fun _ herr => by cases herr))
  obtain ⟨-, rfl⟩ := ok_inj hok
  exact ⟨trivial, h⟩

theorem leaves_dispatchItems {batch : Batch} :
    ∀ (rest : List BatchItem) (t : ExperimentDb), Dispatching env batch.kind rest t →
      Leaves (TxM.forEach (dispatchItem env batch) rest) t := by
  intro rest t ht
  refine wp_mono (wp_forEach (I := fun _ => True) (Dispatching env batch.kind)
    (fun _ u => AttemptLog [] u) ?_ rest t ht) (fun _ h => h) ?_
  · intro item later u hu
    have hnext := hu.next rfl
    refine ⟨fun _ _ => trivial, ?_⟩
    cases (dispatchItem env batch item u).value with
    | ok _ => exact hnext
    | error _ => exact hnext.log
  · intro r u hu
    cases r with
    | ok _ => exact hu.log
    | error _ => exact hu

theorem leaves_dispatchWindow (h : AttemptLog [] db) (hfresh : env.Fresh db) :
    Leaves (dispatchWindow env) db := by
  refine leaves_detail h (fun t hrefreshed hlog => ?_)
  have hfresh' := hfresh.of_rows hrefreshed.ids hrefreshed.runs
  show Leaves (if _ then _ else _) t
  split_ifs
  · exact wp_pure hlog
  · let pending := (t.items.filter (fun item => item.status == .pending)).take
      (env.window - t.items.countP (fun item => item.status ∈ active))
    have hsub : pending.Sublist t.items := (List.take_sublist _ _).trans List.filter_sublist
    have hstart : Dispatching env t.batch.kind pending t := by
      refine ⟨hlog, rfl, fun item hmem => ⟨hsub.subset hmem, ?_⟩,
        fun item hmem => hfresh'.named item (hsub.subset hmem),
        fun item hmem => hfresh'.unknown item (hsub.subset hmem), ?_, ?_⟩
      · have hstatus := (List.mem_filter.mp (List.mem_of_mem_take hmem)).2
        simpa using hstatus
      · exact (hsub.map _).nodup hlog.numbered.ids
      · exact (hsub.map _).nodup hfresh'.distinct
    refine wp_bind (wp_mono (leaves_dispatchItems pending t hstart) (fun _ h => h) ?_)
    intro r u hu
    cases r with
    | error e => exact hu
    | ok _ => exact leaves_refresh hu

/-! ## A late report -/

/-- A report is for the item that names its run. -/
def Current (db : ExperimentDb) (runId : String) : Prop :=
  ∀ run, db.backtest runId = some run →
    ∃ item ∈ db.items, run.batchItemId = some item.id ∧ item.relatedId = some runId

theorem leaves_deliver (h : AttemptLog [] db) {runId : String} (hcurrent : Current db runId)
    (status : String) (error : Option String) (statistics : Statistics) :
    Leaves (deliver runId status error statistics) db := by
  let reports := fun (run : BacktestRun) =>
    { run with status := status, error := error, statistics := statistics }
  refine leaves_write (.of_state ?_)
  cases hrun : db.backtest runId with
  | none =>
    have hsame : updateRun runId reports db = db := by
      refine congrArg (fun runs => { db with runs := runs }) ?_
      refine (List.map_congr_left (fun run hmem => ?_)).trans (List.map_id _)
      rw [if_neg]
      · rfl
      · intro hid
        have hne := List.find?_eq_none.mp hrun run hmem
        simp [hid] at hne
    rw [hsame, reconcileBacktest_state, hrun]
    exact h
  | some run =>
    obtain ⟨item, hitem, hlinked, hrelated⟩ := hcurrent run hrun
    have hreported : Reported (reports run) item db
        (reconcileBacktest runId (updateRun runId reports db)).state :=
      report_reported h.numbered.ids h.windows (f := reports) (fun _ => rfl) (fun _ => rfl) hitem
        hrun hlinked
    have hid : run.id = runId := find_key hrun
    refine (h.weaken _).report hreported hitem ?_ hlinked
    rw [hrelated, ← hid]

/-! ## Items that wait again -/

theorem leaves_requeued {statuses : List ItemStatus} (h : AttemptLog [] db)
    (hstatuses : ∀ status ∈ statuses, status ∈ restartable) (hitems : Requeueable statuses db)
    (hfresh : env.Fresh db) :
    Leaves (TxM.tx (fun db => .ok ((), requeueItems statuses db)) >>= fun _ =>
      dispatchWindow env) db := by
  refine leaves_write (leaves_dispatchWindow (h.requeueItems hstatuses hitems)
    (hfresh.of_rows ?_ rfl))
  show (db.items.map _).map _ = _
  rw [List.map_map]
  refine List.map_congr_left (fun item _ => ?_)
  show BatchItem.id (if _ then _ else _) = _
  split_ifs <;> rfl

theorem leaves_retryFailed (h : AttemptLog [] db) (hitems : Requeueable [.failed] db)
    (hfresh : env.Fresh db) : Leaves (retryFailed env) db := by
  refine leaves_detail h (fun t hrefreshed hlog => ?_)
  show Leaves (if _ then _ else if _ then _ else _) t
  split_ifs
  · exact leaves_requeued hlog (by decide) (hrefreshed.requeueable _ h hitems)
      (hfresh.of_rows hrefreshed.ids hrefreshed.runs)
  · exact wp_fail hlog
  · exact wp_fail hlog

theorem leaves_restartCancelled (h : AttemptLog [] db) (hitems : Requeueable restartable db)
    (hfresh : env.Fresh db) : Leaves (restartCancelled env) db := by
  refine leaves_detail h (fun t hrefreshed hlog => ?_)
  show Leaves (if _ then _ else if _ then _ else _) t
  split_ifs
  · exact wp_fail hlog
  · exact leaves_requeued hlog (fun _ h => h) (hrefreshed.requeueable _ h hitems)
      (hfresh.of_rows hrefreshed.ids hrefreshed.runs)
  · exact wp_fail hlog

/-! ## A cancellation -/

theorem AttemptLog.over {runIds : List String} {run : BacktestRun}
    (h : AttemptLog (run.id :: runIds) db) (hover : runIsTerminal run.status = true)
    (hfound : db.backtest run.id = some run) : AttemptLog runIds db := by
  have hcancelling : ∀ runId other, db.backtest runId = some other →
      Cancelling (run.id :: runIds) other → Cancelling runIds other := by
    intro runId other hother hlive
    refine hlive.of_cons ?_
    intro hid
    have hsame : runId = run.id := (find_key hother).symm.trans hid
    rw [hsame, hfound] at hother
    rw [← Option.some.inj hother, Cancelling, hover] at hlive
    cases hlive.2
  refine { h with item := ?_, attempt := ?_ }
  · intro item hitem runId hrelated
    obtain ⟨other, hother, hof⟩ := h.item item hitem runId hrelated
    exact ⟨other, hother, { hof with status := hof.status.imp_left (hcancelling _ _ hother) }⟩
  · intro a ha runId hrun
    obtain ⟨other, hother, hof⟩ := h.attempt a ha runId hrun
    exact ⟨other, hother, ⟨hof.reported.imp_left (hcancelling _ _ hother)⟩⟩

/-- What the loop of a cancellation still has to do. -/
structure CancelLoop (rest : List String) (db : ExperimentDb) : Prop where
  log : AttemptLog rest db
  items : ∀ runId ∈ rest, ∃ item ∈ db.items, item.relatedId = some runId

theorem CancelLoop.next {runId : String} {rest : List String} (h : CancelLoop (runId :: rest) db) :
    wp (fun _ => True) (cancelBacktest runId) (fun r after => r = .ok () ∧ CancelLoop rest after)
      db := by
  obtain ⟨item, hitem, hrelated⟩ := h.items runId List.mem_cons_self
  obtain ⟨run, hrun, hof⟩ := h.log.item item hitem runId hrelated
  have hid : run.id = runId := find_key hrun
  subst hid
  have hrest : ∀ other ∈ rest, ∃ item ∈ db.items, item.relatedId = some other :=
    fun other hother => h.items other (List.mem_cons_of_mem _ hother)
  refine wp_bind (wp_read ?_)
  simp only [hrun]
  cases hterminal : runIsTerminal run.status with
  | true => exact wp_pure ⟨rfl, h.log.over hterminal hrun, hrest⟩
  | false =>
    have hlinked : run.batchItemId = some item.id := by
      refine hof.linked.resolve_right (fun hfailed => ?_)
      rw [hfailed] at hterminal
      revert hterminal
      decide +kernel
    let cancels := fun (run : BacktestRun) =>
      { run with status := "cancelled", error := some "Cancellation requested by user." }
    have hreported : Reported (cancels run) item db
        (reconcileBacktest run.id (updateRun run.id cancels db)).state :=
      report_reported h.log.numbered.ids h.log.windows (f := cancels) (fun _ => rfl)
        (fun _ => rfl) hitem hrun hlinked
    have hlog : AttemptLog ((cancels run).id :: rest) db := h.log
    refine ⟨fun _ _ => trivial, rfl, hlog.report hreported hitem hrelated hlinked,
      fun other hother => ?_⟩
    obtain ⟨row, hrow, hother⟩ := hrest other hother
    show ∃ item ∈ (reconcileBacktest run.id (updateRun run.id cancels db)).state.items, _
    rw [hreported.items]
    refine ⟨_, List.mem_map_of_mem hrow, ?_⟩
    split_ifs
    · exact hother
    · exact hother

theorem leaves_cancel (h : AttemptLog [] db) : Leaves cancel db := by
  refine leaves_detail h (fun t _ hlog => leaves_write ?_)
  have hstart : CancelLoop (activeRuns t.items) (cancelItems t) := by
    refine ⟨hlog.cancelItems, fun runId hrun => ?_⟩
    obtain ⟨item, hitem, hrelated⟩ := List.mem_filterMap.mp hrun
    refine ⟨_, List.mem_map_of_mem (List.mem_filter.mp hitem).1, ?_⟩
    have hrelated := (Option.filter_eq_some_iff.mp hrelated).1
    split_ifs
    · exact hrelated
    · exact hrelated
  refine wp_bind (wp_mono (wp_forEach (I := fun _ => True) CancelLoop
    (fun _ u => AttemptLog [] u) ?_ _ _ hstart) (fun _ h => h) ?_)
  · intro runId rest u hu
    refine wp_mono hu.next (fun _ h => h) (fun r v hv => ?_)
    rw [hv.1]
    exact hv.2
  · intro r u hu
    cases r with
    | error e => exact hu
    | ok _ => exact leaves_refresh hu.log

theorem leaves_finishResearchItem (h : AttemptLog [] db) (hkind : db.batch.kind = "research")
    (itemId : Nat) (statistics : Statistics) (error : Option String) :
    Leaves (finishResearchItem itemId statistics error) db := by
  have hfinished : Leaves (finishItem itemId statistics error) db :=
    .of_state (h.finishItem hkind itemId statistics error)
  show Leaves (finishItem itemId statistics error >>= fun _ => refresh) db
  refine wp_bind (wp_mono hfinished (fun _ h => h) ?_)
  intro r t ht
  cases r with
  | error e => exact ht
  | ok _ => exact leaves_refresh ht

end Calls

/-! ## Every run -/

/-- No item of the batch was dispatched. -/
structure Undispatched (db : ExperimentDb) : Prop where
  ids : Tables.Unique BatchItem.id db.items
  items : ∀ item ∈ db.items, item.relatedId = none ∧ item.statistics = [] ∧
    (item.status = .pending ∨ item.status = .blockedSelection)
  attempts : db.attempts = []
  runs : db.runs = []
  evaluations : db.evaluations = []

theorem undispatched_of_created {start : ExperimentDb} (hcreated : Created start) :
    Undispatched start := by
  have hids := (wellNamed_of_created hcreated).unique
  cases hcreated with
  | walkForward hkind hitems hcreate =>
    unfold createBatch at hcreate
    simp only at hcreate
    split_ifs at hcreate
    split at hcreate
    · cases hcreate
    · obtain rfl := Except.ok.inj hcreate
      refine ⟨hids, fun item hitem => ?_, rfl, rfl, rfl⟩
      obtain ⟨planned, -, rfl⟩ := List.mem_map.mp hitem
      refine ⟨rfl, rfl, ?_⟩
      unfold newItem
      split_ifs
      · exact Or.inr rfl
      · exact Or.inl rfl
  | plain kind mode objective plans hmode =>
    refine ⟨hids, fun item hitem => ?_, rfl, rfl, rfl⟩
    obtain ⟨planned, -, rfl⟩ := List.mem_map.mp hitem
    exact ⟨rfl, rfl, Or.inl rfl⟩

theorem Undispatched.attemptLog {db : ExperimentDb} (h : Undispatched db) : AttemptLog [] db := by
  have hnone : ∀ row ∈ db.items.map BatchItem.names, row.relatedId = none := by
    intro row hmem
    obtain ⟨item, hitem, rfl⟩ := List.mem_map.mp hmem
    exact (h.items item hitem).1
  have hevaluation : ∀ itemId, db.evaluationOf itemId = none := by
    intro itemId
    unfold ExperimentDb.evaluationOf
    rw [h.evaluations]
    rfl
  have hnumbered : db.Numbered := by
    unfold ExperimentDb.Numbered
    rw [h.attempts]
    refine ⟨?_, ?_, by simp, by simp, by simp⟩
    · rw [List.map_map]
      exact h.ids
    · intro row hrow other _ runId hrelated
      cases (hnone row hrow).symm.trans hrelated
  refine ⟨hnumbered, ?_, ?_, ?_, ?_, ?_, ?_, ?_, ?_, ?_⟩
  · simp [h.evaluations, Tables.Unique]
  · simp [h.evaluations]
  · exact fun _ => ⟨fun item hitem => (h.items item hitem).1, by simp [h.attempts], h.runs⟩
  · exact fun item hitem _ => (h.items item hitem).1
  · refine fun _ item hitem _ => ⟨(h.items item hitem).2.1, fun evaluation hfound => ?_⟩
    cases (hevaluation item.id).symm.trans hfound
  · simp [h.attempts]
  · intro item hitem runId hrelated
    cases (h.items item hitem).1.symm.trans hrelated
  · intro item hitem runId hrelated
    cases (h.items item hitem).1.symm.trans hrelated
  · simp [h.attempts]

/-- The backtest service gives every run a name of its own. -/
def FreshRuns (db : ExperimentDb) : BatchAction → Prop
  | .dispatchWindow env | .retryFailed env | .restartCancelled env => env.Fresh db
  | _ => True

/-- No call reports for an item that names another run, and no item waits again while it
holds the result of an earlier attempt. -/
def KeepsAttempts (db : ExperimentDb) : BatchAction → Prop
  | .deliver runId _ _ _ => Current db runId
  | .dispatchWindow env => env.Fresh db
  | .retryFailed env => env.Fresh db ∧ Requeueable [.failed] db
  | .restartCancelled env => env.Fresh db ∧ Requeueable restartable db
  | .refresh | .cancel | .finishResearchItem _ _ _ => True

theorem leaves_program {db : ExperimentDb} (h : AttemptLog [] db) {action : BatchAction}
    (hallowed : (batchMachine.restrict KeepsAttempts).allowed db action) :
    Leaves action.program db := by
  obtain ⟨hkind, hkeeps⟩ := hallowed
  cases action with
  | refresh => exact leaves_refresh h
  | dispatchWindow env => exact leaves_dispatchWindow h hkeeps
  | deliver runId status error statistics => exact leaves_deliver h hkeeps status error statistics
  | finishResearchItem itemId statistics error =>
    exact leaves_finishResearchItem h hkind itemId statistics error
  | cancel => exact leaves_cancel h
  | retryFailed env => exact leaves_retryFailed h hkeeps.2 hkeeps.1
  | restartCancelled env => exact leaves_restartCancelled h hkeeps.2 hkeeps.1

/-- In a run whose calls all keep the attempts, every item, evaluation and attempt holds
what its own run reported. -/
theorem attributed_after {start : ExperimentDb} (hcreated : Created start)
    {actions : List BatchAction}
    (haccepts : (batchMachine.restrict KeepsAttempts).Accepts start actions) :
    Attributed (batchMachine.after start actions) := by
  have hstep : ∀ db action, AttemptLog [] db →
      (batchMachine.restrict KeepsAttempts).allowed db action →
        AttemptLog [] ((batchMachine.restrict KeepsAttempts).next db action) :=
    fun db action h hallowed => (leaves_program h hallowed).2
  have hstart := (undispatched_of_created hcreated).attemptLog
  exact (Machine.invariant hstep actions start hstart haccepts).attributed

/-! ## A restarted item -/

instance (db : ExperimentDb) (runId : String) : Decidable (Current db runId) :=
  match hfound : db.backtest runId with
  | none => .isTrue (fun run hrun => by cases hfound.symm.trans hrun)
  | some run =>
    decidable_of_iff
      (∃ item ∈ db.items, run.batchItemId = some item.id ∧ item.relatedId = some runId)
      ⟨fun h other hother => Option.some.inj (hfound.symm.trans hother) ▸ h, fun h => h run hfound⟩

instance (env : DispatchEnv) (db : ExperimentDb) : Decidable (env.Fresh db) :=
  decidable_of_iff ((∀ item ∈ db.items, env.runName item.id ≠ "") ∧
      (∀ item ∈ db.items, db.backtest (env.runName item.id) = none) ∧
        (db.items.map (fun item => env.runName item.id)).Nodup)
    ⟨fun h => ⟨h.1, h.2.1, h.2.2⟩, fun h => ⟨h.named, h.unknown, h.distinct⟩⟩

instance (db : ExperimentDb) (item : BatchItem) : Decidable (Restartable db item) :=
  decidable_of_iff ((item.statistics = [] ∧
      ∀ evaluation ∈ db.evaluationOf item.id, evaluation.oosRunId = none) ∧
        (item.status = .skipped → item.relatedId = none))
    ⟨fun h => ⟨⟨h.1.1, h.1.2⟩, h.2⟩, fun h => ⟨⟨h.unused.statistics, h.unused.evaluation⟩, h.skipped⟩⟩

instance (statuses : List ItemStatus) (db : ExperimentDb) : Decidable (Requeueable statuses db) := by
  unfold Requeueable
  infer_instance

instance (db : ExperimentDb) : DecidablePred (FreshRuns db) := fun action =>
  match action with
  | .dispatchWindow env | .retryFailed env | .restartCancelled env =>
    inferInstanceAs (Decidable (env.Fresh db))
  | .refresh | .deliver _ _ _ _ | .finishResearchItem _ _ _ | .cancel => .isTrue trivial

instance (db : ExperimentDb) : DecidablePred (KeepsAttempts db) := fun action =>
  match action with
  | .deliver runId _ _ _ => inferInstanceAs (Decidable (Current db runId))
  | .dispatchWindow env => inferInstanceAs (Decidable (env.Fresh db))
  | .retryFailed env => inferInstanceAs (Decidable (env.Fresh db ∧ Requeueable [.failed] db))
  | .restartCancelled env => inferInstanceAs (Decidable (env.Fresh db ∧ Requeueable restartable db))
  | .refresh | .finishResearchItem _ _ _ | .cancel => .isTrue trivial

def singleBatch : ExperimentDb :=
  createPlainBatch "parameter" "grid" none
    [{ id := 0, projectId := "p", symbol := "600000", fold := none, phase := "",
       candidateKey := some "base", overrides := [] }]

theorem created_singleBatch : Created singleBatch := .plain _ _ _ _ (by decide)

/-- The runs of a second dispatch. -/
def secondEnv : DispatchEnv where
  window := 4
  createRun := fun itemId => .ok ("again-" ++ toString itemId, "task")
  failedRun := fun _ => ("never", "task")
  publish := fun _ => .ok "task"

/-- The item is dispatched, cancelled and restarted, and then a run reports. -/
def restartedThen (runId : String) : List BatchAction :=
  [.dispatchWindow acceptingEnv, .cancel, .restartCancelled secondEnv,
    .deliver runId "success" none [("Sharpe Ratio", .text "1.5")]]

/-- The run of the second attempt reports. -/
theorem attributed_after_restart :
    Attributed (batchMachine.after singleBatch (restartedThen "again-0")) :=
  attributed_after created_singleBatch (by decide +kernel)

/-- The run of the first attempt reports. -/
theorem late_report :
    ¬ ∀ (start : ExperimentDb) (actions : List BatchAction), Created start →
      (batchMachine.restrict FreshRuns).Accepts start actions →
        Attributed (batchMachine.after start actions) := by
  intro h
  have hattributed := h singleBatch (restartedThen "run-0") created_singleBatch (by decide +kernel)
  have hitem : ∃ item ∈ (batchMachine.after singleBatch (restartedThen "run-0")).items,
      item.relatedId = some "again-0" ∧ item.status = .success := by decide +kernel
  obtain ⟨item, hmem, hrelated, hstatus⟩ := hitem
  obtain ⟨run, hrun, hsame, -⟩ := hattributed.items item hmem "again-0" hrelated
  have hqueued : (batchMachine.after singleBatch (restartedThen "run-0")).backtest "again-0" |>.all
      (fun run => run.status == "queued") := by decide +kernel
  rw [hrun, Option.all_some, beq_iff_eq] at hqueued
  rw [hstatus, hqueued] at hsame
  revert hsame
  decide

end LocalPlatform.Experiments
