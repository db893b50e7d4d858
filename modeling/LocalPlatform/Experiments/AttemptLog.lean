import LocalPlatform.Experiments.Blocks
import LocalPlatform.Experiments.Certificates

/-!
# Items, attempts and their runs

A dispatch adds a row to the attempts of an item, and `related_id` names the run of
the last one.  A retry clears `related_id` and keeps the row, the result and the
out-of-sample evaluation of the attempt before.

* `Numbered` says how the rows are named: an item and the attempt with its number
  name one run, and no other row names it.
* `AttemptLog` says that an item, its evaluation and an attempt hold what their run
  reports.  `cancel` breaks this for the runs that it has still to cancel, and
  `runIds` names them.
* Every transaction has one lemma that says that it keeps the log.
-/

namespace LocalPlatform.Experiments

open Paper Transaction Transaction.TxM Machines Tables

/-! ## Names -/

/-- The columns of an item that name its attempt. -/
structure ItemNames where
  id : Nat
  relatedId : Option String
  attempt : Nat

def BatchItem.names (item : BatchItem) : ItemNames where
  id := item.id
  relatedId := item.relatedId
  attempt := item.attempt

/-- The columns of an attempt that name it. -/
structure AttemptNames where
  itemId : Nat
  attempt : Nat
  relatedId : Option String

def ItemAttempt.names (attempt : ItemAttempt) : AttemptNames where
  itemId := attempt.itemId
  attempt := attempt.attempt
  relatedId := attempt.relatedId

/-- The number of an item is the one of its last attempt, and its run is the run of
that attempt and of no other row. -/
structure Numbered (items : List ItemNames) (attempts : List AttemptNames) : Prop where
  ids : (items.map ItemNames.id).Nodup
  owner : ∀ item ∈ items, ∀ other ∈ items, ∀ runId, item.relatedId = some runId →
    other.relatedId = some runId → item.id = other.id
  order : ∀ item ∈ items, ∀ a ∈ attempts, a.itemId = item.id → a.attempt ≤ item.attempt
  current : ∀ item ∈ items, ∀ a ∈ attempts, ∀ runId, item.relatedId = some runId →
    a.itemId = item.id → a.attempt = item.attempt → a.relatedId = some runId
  attempts : ∀ item ∈ items, ∀ a ∈ attempts, ∀ runId, item.relatedId = some runId →
    a.relatedId = some runId → a.itemId = item.id ∧ a.attempt = item.attempt

/-- The names of the rows of a batch are in order. -/
def ExperimentDb.Numbered (db : ExperimentDb) : Prop :=
  Experiments.Numbered (db.items.map BatchItem.names) (db.attempts.map ItemAttempt.names)

theorem Numbered.drop {items items' : List ItemNames} {attempts : List AttemptNames}
    (h : Numbered items attempts) (hids : items'.map ItemNames.id = items.map ItemNames.id)
    (hrows : ∀ row ∈ items', ∃ old ∈ items, row.id = old.id ∧ row.attempt = old.attempt ∧
      (row.relatedId = none ∨ row.relatedId = old.relatedId)) : Numbered items' attempts := by
  have hkept : ∀ row ∈ items', ∀ runId, row.relatedId = some runId → ∃ old ∈ items,
      row.id = old.id ∧ row.attempt = old.attempt ∧ old.relatedId = some runId := by
    intro row hrow runId hrelated
    obtain ⟨old, hold, hid, hattempt, hnone | hsame⟩ := hrows row hrow
    · cases hnone.symm.trans hrelated
    · exact ⟨old, hold, hid, hattempt, hsame.symm.trans hrelated⟩
  refine ⟨?_, ?_, ?_, ?_, ?_⟩
  · rw [hids]
    exact h.ids
  · intro row hrow other hother runId hrelated hrelated'
    obtain ⟨old, hold, hid, -, hrun⟩ := hkept row hrow runId hrelated
    obtain ⟨old', hold', hid', -, hrun'⟩ := hkept other hother runId hrelated'
    rw [hid, hid']
    exact h.owner old hold old' hold' runId hrun hrun'
  · intro row hrow a ha hitem
    obtain ⟨old, hold, hid, hattempt, -⟩ := hrows row hrow
    rw [hattempt]
    exact h.order old hold a ha (hitem.trans hid)
  · intro row hrow a ha runId hrelated hitem hnumber
    obtain ⟨old, hold, hid, hattempt, hrun⟩ := hkept row hrow runId hrelated
    exact h.current old hold a ha runId hrun (hitem.trans hid) (hnumber.trans hattempt)
  · intro row hrow a ha runId hrelated hrun
    obtain ⟨old, hold, hid, hattempt, holdRun⟩ := hkept row hrow runId hrelated
    rw [hid, hattempt]
    exact h.attempts old hold a ha runId holdRun hrun

/-- A new attempt of an item without a run.  Its run, if it has one, is new. -/
theorem Numbered.record {items : List ItemNames} {attempts : List AttemptNames}
    (h : Numbered items attempts) {row : ItemNames} (hrow : row ∈ items) {relatedId : Option String}
    (hitems : ∀ runId, relatedId = some runId → ∀ item ∈ items, item.relatedId ≠ some runId)
    (hattempts : ∀ runId, relatedId = some runId → ∀ a ∈ attempts, a.relatedId ≠ some runId) :
    Numbered
      (items.map (fun item => if item.id = row.id then
        { item with attempt := row.attempt + 1, relatedId := relatedId } else item))
      (attempts ++ [{ itemId := row.id, attempt := row.attempt + 1, relatedId := relatedId }]) := by
  have hsame : ∀ item ∈ items, item.id = row.id → item = row := by
    intro item hitem hid
    exact List.inj_on_of_nodup_map h.ids hitem hrow hid
  refine ⟨?_, ?_, ?_, ?_, ?_⟩
  · have hids : (items.map (fun item => if item.id = row.id then
        { item with attempt := row.attempt + 1, relatedId := relatedId } else item)).map
          ItemNames.id = items.map ItemNames.id := by
      rw [List.map_map]
      refine List.map_congr_left (fun item _ => ?_)
      show ItemNames.id (if _ then _ else _) = _
      split_ifs <;> rfl
    rw [hids]
    exact h.ids
  · intro item hitem other hother runId hrelated hrelated'
    obtain ⟨old, hold, rfl⟩ := List.mem_map.mp hitem
    obtain ⟨old', hold', rfl⟩ := List.mem_map.mp hother
    split_ifs at hrelated hrelated' ⊢ with hid hid' hid'
    · exact hid.trans hid'.symm
    · exact absurd hrelated' (hitems runId hrelated old' hold')
    · exact absurd hrelated (hitems runId hrelated' old hold)
    · exact h.owner old hold old' hold' runId hrelated hrelated'
  · intro item hitem a ha hid
    obtain ⟨old, hold, rfl⟩ := List.mem_map.mp hitem
    rcases List.mem_append.mp ha with ha | ha
    · split_ifs at hid ⊢ with hrowId
      · have hle := h.order row hrow a ha (hid.trans hrowId)
        simp only
        omega
      · exact h.order old hold a ha hid
    · rw [List.mem_singleton.mp ha] at hid ⊢
      split_ifs at hid ⊢ with hrowId
      · exact le_refl _
      · exact absurd hid.symm hrowId
  · intro item hitem a ha runId hrelated hid hattempt
    obtain ⟨old, hold, rfl⟩ := List.mem_map.mp hitem
    rcases List.mem_append.mp ha with ha | ha
    · split_ifs at hrelated hid hattempt with hrowId
      · have hle := h.order row hrow a ha (hid.trans hrowId)
        simp only at hattempt
        omega
      · exact h.current old hold a ha runId hrelated hid hattempt
    · rw [List.mem_singleton.mp ha] at hid hattempt ⊢
      split_ifs at hrelated hid hattempt with hrowId
      · exact hrelated
      · exact absurd hid.symm hrowId
  · intro item hitem a ha runId hrelated hrun
    obtain ⟨old, hold, rfl⟩ := List.mem_map.mp hitem
    rcases List.mem_append.mp ha with ha | ha
    · split_ifs at hrelated ⊢ with hrowId
      · exact absurd hrun (hattempts runId hrelated a ha)
      · exact h.attempts old hold a ha runId hrelated hrun
    · rw [List.mem_singleton.mp ha] at hrun ⊢
      split_ifs at hrelated ⊢ with hrowId
      · exact ⟨hrowId.symm, rfl⟩
      · exact absurd hrelated (hitems runId hrun old hold)

/-! ## What the rows hold -/

/-- `select * from oos_evaluations where oos_item_id=?` -/
def ExperimentDb.evaluationOf (db : ExperimentDb) (itemId : Nat) : Option OosEvaluation :=
  Tables.find OosEvaluation.oosItemId db.evaluations itemId

/-- The evaluation holds what the run reports. -/
structure Evaluates (run : BacktestRun) (evaluation : OosEvaluation) : Prop where
  oosRunId : evaluation.oosRunId = some run.id
  status : evaluation.status =
    if itemStatusOf run.status = .success then "COMPLETED" else "FAILED"
  digest : evaluation.resultDigest =
    if itemStatusOf run.status = .success then some run.statistics else none

/-- An item without a run holds nothing of an earlier one. -/
structure Unused (db : ExperimentDb) (item : BatchItem) : Prop where
  statistics : item.statistics = []
  evaluation : ∀ evaluation, db.evaluationOf item.id = some evaluation →
    evaluation.oosRunId = none

/-- The run is one of those that `cancel` has still to cancel. -/
def Cancelling (runIds : List String) (run : BacktestRun) : Prop :=
  run.id ∈ runIds ∧ runIsTerminal run.status = false

/-- The item holds what its run reports. -/
structure ItemOf (runIds : List String) (run : BacktestRun) (item : BatchItem) : Prop where
  statistics : item.statistics = run.statistics
  named : run.id ≠ ""
  linked : run.batchItemId = some item.id ∨ run.status = "failed"
  status : Cancelling runIds run ∨ item.status = itemStatusOf run.status

/-- The attempt holds what its run reports. -/
structure AttemptOf (runIds : List String) (run : BacktestRun) (attempt : ItemAttempt) : Prop where
  reported : Cancelling runIds run ∨
    attempt.status = itemStatusOf run.status ∧ attempt.error = run.error

/-- The statuses of an item before its run is recorded. -/
def unrecorded : List ItemStatus := [.pending, .dispatching, .blockedSelection]

/-- The statuses of an attempt that `cancel` leaves as they are. -/
def closedStatuses : List ItemStatus := [.success, .failed, .cancelled]

/-- Every item, evaluation and attempt holds what its run reports, but for the runs
`runIds` that `cancel` has still to cancel. -/
structure AttemptLog (runIds : List String) (db : ExperimentDb) : Prop where
  numbered : db.Numbered
  windows : Tables.Unique OosEvaluation.window db.evaluations
  frozen : ∀ evaluation ∈ db.evaluations, (db.event evaluation.window).isSome
  research : db.batch.kind = "research" →
    (∀ item ∈ db.items, item.relatedId = none) ∧ (∀ a ∈ db.attempts, a.relatedId = none) ∧
      db.runs = []
  idle : ∀ item ∈ db.items, item.status ∈ unrecorded → item.relatedId = none
  unused : db.batch.kind ≠ "research" → ∀ item ∈ db.items, item.relatedId = none → Unused db item
  closed : ∀ item ∈ db.items, item.relatedId = none → ∀ a ∈ db.attempts, a.itemId = item.id →
    a.attempt = item.attempt → ∀ runId, a.relatedId = some runId → a.status ∈ closedStatuses
  item : ∀ item ∈ db.items, ∀ runId, item.relatedId = some runId →
    ∃ run, db.backtest runId = some run ∧ ItemOf runIds run item
  evaluation : ∀ item ∈ db.items, ∀ runId, item.relatedId = some runId →
    ∀ evaluation, db.evaluationOf item.id = some evaluation → evaluation.oosRunId = none ∨
      ∃ run, db.backtest runId = some run ∧ Evaluates run evaluation
  attempt : ∀ a ∈ db.attempts, ∀ runId, a.relatedId = some runId →
    ∃ run, db.backtest runId = some run ∧ AttemptOf runIds run a

section Log

variable {runIds : List String} {db : ExperimentDb}

theorem ExperimentDb.Numbered.ids (h : db.Numbered) : Tables.Unique BatchItem.id db.items := by
  have hids := Experiments.Numbered.ids h
  rw [List.map_map] at hids
  exact hids

variable {item : BatchItem} {runId : String}

theorem ExperimentDb.Numbered.owner (h : db.Numbered) {other : BatchItem} (hitem : item ∈ db.items)
    (hother : other ∈ db.items) (hrelated : item.relatedId = some runId)
    (hrelated' : other.relatedId = some runId) : item = other :=
  h.ids.eq hitem hother (Experiments.Numbered.owner h _ (List.mem_map_of_mem hitem) _
    (List.mem_map_of_mem hother) runId hrelated hrelated')

theorem ExperimentDb.Numbered.current (h : db.Numbered) (hitem : item ∈ db.items) {a : ItemAttempt}
    (ha : a ∈ db.attempts) (hrelated : item.relatedId = some runId) (hid : a.itemId = item.id)
    (hattempt : a.attempt = item.attempt) : a.relatedId = some runId :=
  Experiments.Numbered.current h _ (List.mem_map_of_mem hitem) _ (List.mem_map_of_mem ha) runId
    hrelated hid hattempt

theorem ExperimentDb.Numbered.attempts (h : db.Numbered) (hitem : item ∈ db.items) {a : ItemAttempt}
    (ha : a ∈ db.attempts) (hrelated : item.relatedId = some runId)
    (hrun : a.relatedId = some runId) : a.itemId = item.id ∧ a.attempt = item.attempt :=
  Experiments.Numbered.attempts h _ (List.mem_map_of_mem hitem) _ (List.mem_map_of_mem ha) runId
    hrelated hrun

theorem ExperimentDb.Numbered.of_names {db' : ExperimentDb} (h : db.Numbered)
    (hitems : db'.items.map BatchItem.names = db.items.map BatchItem.names)
    (hattempts : db'.attempts.map ItemAttempt.names = db.attempts.map ItemAttempt.names) :
    db'.Numbered := by
  unfold ExperimentDb.Numbered
  rw [hitems, hattempts]
  exact h

theorem AttemptLog.weaken (h : AttemptLog [] db) (runIds : List String) : AttemptLog runIds db := by
  have hnone : ∀ run : BacktestRun, ¬ Cancelling [] run := by simp [Cancelling]
  refine { h with item := ?_, attempt := ?_ }
  · intro item hitem runId hrelated
    obtain ⟨run, hrun, hof⟩ := h.item item hitem runId hrelated
    refine ⟨run, hrun, { hof with status := Or.inr ?_ }⟩
    exact hof.status.resolve_left (hnone run)
  · intro a ha runId hrelated
    obtain ⟨run, hrun, hof⟩ := h.attempt a ha runId hrelated
    exact ⟨run, hrun, ⟨Or.inr (hof.reported.resolve_left (hnone run))⟩⟩

/-! ## A run reports -/

/-- The evaluation of an item after its run reported. -/
def OosEvaluation.reported (run : BacktestRun) (evaluation : OosEvaluation) : OosEvaluation :=
  { evaluation with
    oosRunId := some run.id
    resultDigest := if itemStatusOf run.status = .success then some run.statistics else none
    status := if itemStatusOf run.status = .success then "COMPLETED" else "FAILED" }

theorem evaluates_reported (run : BacktestRun) (evaluation : OosEvaluation) :
    Evaluates run (evaluation.reported run) := ⟨rfl, rfl, rfl⟩

theorem persist_evaluations (itemId : Nat) (run : BacktestRun) (db : ExperimentDb) :
    (persistOosEvaluation itemId run db).evaluations =
      match db.evaluationOf itemId with
      | none => db.evaluations
      | some found => db.evaluations.map (fun evaluation =>
          if evaluation.window = found.window then evaluation.reported run else evaluation) := by
  unfold persistOosEvaluation
  show ExperimentDb.evaluations (match db.evaluationOf itemId with | none => _ | some found => _) = _
  cases db.evaluationOf itemId <;> rfl

theorem persist_windows (itemId : Nat) (run : BacktestRun) (db : ExperimentDb) :
    (persistOosEvaluation itemId run db).evaluations.map OosEvaluation.window =
      db.evaluations.map OosEvaluation.window := by
  rw [persist_evaluations]
  cases db.evaluationOf itemId with
  | none => rfl
  | some found =>
    simp only
    rw [List.map_map]
    refine List.map_congr_left (fun evaluation _ => ?_)
    show OosEvaluation.window (if _ then _ else _) = _
    split_ifs <;> rfl

theorem persist_evaluationOf (hwindows : Tables.Unique OosEvaluation.window db.evaluations)
    (itemId : Nat) (run : BacktestRun) (other : Nat) :
    (persistOosEvaluation itemId run db).evaluationOf other =
      (db.evaluationOf other).map (fun evaluation =>
        if other = itemId then evaluation.reported run else evaluation) := by
  unfold ExperimentDb.evaluationOf
  rw [persist_evaluations]
  cases hfound : db.evaluationOf itemId with
  | none =>
    simp only
    by_cases hother : other = itemId
    · subst hother
      rw [show Tables.find _ _ _ = _ from hfound]
      rfl
    · simp only [if_neg hother, Option.map_id']
  | some found =>
    simp only
    rw [find_map]
    · cases hfind : Tables.find OosEvaluation.oosItemId db.evaluations other with
      | none => rfl
      | some evaluation =>
        rw [Option.map_some, Option.map_some]
        by_cases hother : other = itemId
        · subst hother
          rw [show evaluation = found from Option.some.inj (hfind.symm.trans hfound),
            if_pos rfl, if_pos rfl]
        · rw [if_neg hother, if_neg]
          intro hwindow
          apply hother
          rw [← find_key hfind, ← find_key hfound]
          exact congrArg _ (hwindows.eq (mem_of_find hfind) (mem_of_find hfound) hwindow)
    · intro evaluation _
      split_ifs <;> rfl

theorem persist_rows (itemId : Nat) (run : BacktestRun) (db : ExperimentDb) :
    (persistOosEvaluation itemId run db).items = db.items ∧
      (persistOosEvaluation itemId run db).attempts = db.attempts ∧
      (persistOosEvaluation itemId run db).runs = db.runs ∧
      (persistOosEvaluation itemId run db).events = db.events ∧
      (persistOosEvaluation itemId run db).batch = db.batch := by
  unfold persistOosEvaluation
  split <;> exact ⟨rfl, rfl, rfl, rfl, rfl⟩

/-- The row of an item after its run reported. -/
def BatchItem.reported (run : BacktestRun) (row : BatchItem) : BatchItem :=
  { row with
    status := itemStatusOf run.status
    statistics := run.statistics
    error := run.error }

/-- The row of an attempt after its run reported. -/
def ItemAttempt.reported (run : BacktestRun) (a : ItemAttempt) : ItemAttempt :=
  { a with status := itemStatusOf run.status, error := run.error }

/-- What is left when the run of an item was written and reconciled. -/
structure Reported (run : BacktestRun) (item : BatchItem) (db after : ExperimentDb) : Prop where
  items : after.items = db.items.map (fun row => if row.id = item.id then row.reported run else row)
  attempts : after.attempts = db.attempts.map (fun a =>
    if a.itemId = item.id ∧ a.attempt = item.attempt then a.reported run else a)
  own : after.backtest run.id = some run
  others : ∀ other ≠ run.id, after.backtest other = db.backtest other
  evaluations : ∀ other, after.evaluationOf other = (db.evaluationOf other).map (fun evaluation =>
    if other = item.id then evaluation.reported run else evaluation)
  windows : after.evaluations.map OosEvaluation.window = db.evaluations.map OosEvaluation.window
  events : after.events = db.events
  batch : after.batch = db.batch

theorem backtest_rewritten {f : BacktestRun → BacktestRun} (hid : ∀ run, (f run).id = run.id)
    (other : String) :
    (Experiments.updateRun runId f db).backtest other =
      (db.backtest other).map (fun run => if other = runId then f run else run) := by
  unfold ExperimentDb.backtest Experiments.updateRun
  rw [find_map]
  · cases hfind : Tables.find BacktestRun.id db.runs other with
    | none => rfl
    | some run =>
      rw [Option.map_some, Option.map_some, show run.id = other from find_key hfind]
  · intro run _
    split_ifs
    · exact hid run
    · rfl

theorem reconcileBacktest_rows (hids : Tables.Unique BatchItem.id db.items)
    (hitem : item ∈ db.items) {run : BacktestRun} (hrun : db.backtest runId = some run)
    (hlinked : run.batchItemId = some item.id) :
    (reconcileBacktest runId db).state = persistOosEvaluation item.id run
      { updateItem item.id (BatchItem.reported run) db with
        attempts := db.attempts.map (fun a =>
          if a.itemId = item.id ∧ a.attempt = item.attempt then a.reported run else a) } := by
  have hfind : db.item item.id = some item := hids.find_of_mem hitem
  rw [reconcileBacktest_state]
  simp only [hrun, hlinked, Experiments.reconcileItem, hfind]
  rfl

theorem report_reported (hids : Tables.Unique BatchItem.id db.items)
    (hwindows : Tables.Unique OosEvaluation.window db.evaluations) {f : BacktestRun → BacktestRun}
    (hid : ∀ run, (f run).id = run.id) (hlink : ∀ run, (f run).batchItemId = run.batchItemId)
    (hitem : item ∈ db.items) {old : BacktestRun} (hold : db.backtest runId = some old)
    (hlinked : old.batchItemId = some item.id) :
    Reported (f old) item db (reconcileBacktest runId (updateRun runId f db)).state := by
  have hrunId : (f old).id = runId := (hid old).trans (find_key hold)
  have hnew : (updateRun runId f db).backtest runId = some (f old) := by
    rw [backtest_rewritten hid, hold, Option.map_some, if_pos rfl]
  have hids' : Tables.Unique BatchItem.id (updateRun runId f db).items := hids
  rw [reconcileBacktest_rows hids' hitem hnew ((hlink old).trans hlinked)]
  generalize hbefore : ({ updateItem item.id (BatchItem.reported (f old)) (updateRun runId f db) with
    attempts := (updateRun runId f db).attempts.map (fun a =>
      if a.itemId = item.id ∧ a.attempt = item.attempt then a.reported (f old) else a) } :
        ExperimentDb) = before
  obtain ⟨hitems, hattempts, hruns, hevents, hbatch⟩ := persist_rows item.id (f old) before
  have hbacktest : ∀ other, (persistOosEvaluation item.id (f old) before).backtest other =
      (db.backtest other).map (fun run => if other = runId then f run else run) := by
    intro other
    rw [← backtest_rewritten hid]
    unfold ExperimentDb.backtest
    rw [hruns, ← hbefore]
    rfl
  have hevaluations : before.evaluations = db.evaluations := by
    rw [← hbefore]
    rfl
  refine ⟨?_, ?_, ?_, fun other hne => ?_, fun other => ?_, ?_, ?_, ?_⟩
  · rw [hitems, ← hbefore]
    rfl
  · rw [hattempts, ← hbefore]
    rfl
  · rw [hrunId, hbacktest, hold, Option.map_some, if_pos rfl]
  · rw [hrunId] at hne
    simp only [hbacktest, if_neg hne, Option.map_id']
  · have hwindows' : Tables.Unique OosEvaluation.window before.evaluations := by
      rw [hevaluations]
      exact hwindows
    rw [persist_evaluationOf hwindows']
    unfold ExperimentDb.evaluationOf
    rw [hevaluations]
  · rw [persist_windows, hevaluations]
  · rw [hevents, ← hbefore]
    rfl
  · rw [hbatch, ← hbefore]
    rfl

end Log

section Report

variable {runIds : List String} {db after : ExperimentDb} {run : BacktestRun} {item : BatchItem}

theorem Reported.row (hreported : Reported run item db after)
    (hids : Tables.Unique BatchItem.id db.items) (hitem : item ∈ db.items) {row : BatchItem}
    (hrow : row ∈ after.items) : row = item.reported run ∨ row ∈ db.items ∧ row.id ≠ item.id := by
  rw [hreported.items] at hrow
  obtain ⟨before, hbefore, rfl⟩ := List.mem_map.mp hrow
  split_ifs with hsame
  · rw [hids.eq hbefore hitem hsame]
    exact Or.inl rfl
  · exact Or.inr ⟨hbefore, hsame⟩

theorem Reported.attempt (hreported : Reported run item db after) {a : ItemAttempt}
    (ha : a ∈ after.attempts) :
    (∃ before ∈ db.attempts, before.itemId = item.id ∧ before.attempt = item.attempt ∧
      a = before.reported run) ∨
      a ∈ db.attempts ∧ ¬ (a.itemId = item.id ∧ a.attempt = item.attempt) := by
  rw [hreported.attempts] at ha
  obtain ⟨before, hbefore, rfl⟩ := List.mem_map.mp ha
  split_ifs with hsame
  · exact Or.inl ⟨before, hbefore, hsame.1, hsame.2, rfl⟩
  · exact Or.inr ⟨hbefore, hsame⟩

theorem Reported.numbered (hreported : Reported run item db after) (h : db.Numbered) :
    after.Numbered := by
  refine h.of_names ?_ ?_
  · rw [hreported.items, List.map_map]
    refine List.map_congr_left (fun row _ => ?_)
    show BatchItem.names (if _ then _ else _) = _
    split_ifs <;> rfl
  · rw [hreported.attempts, List.map_map]
    refine List.map_congr_left (fun a _ => ?_)
    show ItemAttempt.names (if _ then _ else _) = _
    split_ifs <;> rfl

theorem Reported.evaluation_other (hreported : Reported run item db after) {other : Nat}
    (hne : other ≠ item.id) : after.evaluationOf other = db.evaluationOf other := by
  rw [hreported.evaluations]
  simp only [if_neg hne, Option.map_id']

theorem itemStatusOf_recorded (status : String) : itemStatusOf status ∉ unrecorded := by
  unfold itemStatusOf
  split_ifs <;> decide

theorem Cancelling.of_cons {runId : String} (h : Cancelling (runId :: runIds) run)
    (hne : run.id ≠ runId) : Cancelling runIds run :=
  ⟨(List.mem_cons.mp h.1).resolve_left hne, h.2⟩

/-- The run of an item reports. -/
theorem AttemptLog.report (h : AttemptLog (run.id :: runIds) db)
    (hreported : Reported run item db after) (hitem : item ∈ db.items)
    (hrelated : item.relatedId = some run.id) (hlinked : run.batchItemId = some item.id) :
    AttemptLog runIds after := by
  -- a row with another index names another run
  have hforeign : ∀ row ∈ db.items, row.id ≠ item.id → ∀ other, row.relatedId = some other →
      other ≠ run.id := by
    rintro row hmem hne other hother rfl
    exact hne (congrArg _ (h.numbered.owner hmem hitem hother hrelated))
  have hnamed : run.id ≠ "" := by
    obtain ⟨old, hold, hof⟩ := h.item item hitem run.id hrelated
    rw [← show old.id = run.id from find_key hold]
    exact hof.named
  refine ⟨hreported.numbered h.numbered, ?_, ?_, ?_, ?_, ?_, ?_, ?_, ?_, ?_⟩
  · unfold Tables.Unique
    rw [hreported.windows]
    exact h.windows
  · intro evaluation hmem
    have hwindow : evaluation.window ∈ db.evaluations.map OosEvaluation.window := by
      rw [← hreported.windows]
      exact List.mem_map_of_mem hmem
    obtain ⟨before, hbefore, hsame⟩ := List.mem_map.mp hwindow
    unfold ExperimentDb.event
    rw [hreported.events, ← hsame]
    exact h.frozen before hbefore
  · intro hkind
    rw [hreported.batch] at hkind
    cases ((h.research hkind).1 item hitem).symm.trans hrelated
  · intro row hmem hstatus
    rcases hreported.row h.numbered.ids hitem hmem with rfl | ⟨hbefore, -⟩
    · exact absurd hstatus (itemStatusOf_recorded _)
    · exact h.idle row hbefore hstatus
  · intro hkind row hmem hnone
    rw [hreported.batch] at hkind
    rcases hreported.row h.numbered.ids hitem hmem with rfl | ⟨hbefore, hne⟩
    · cases hnone.symm.trans hrelated
    · obtain ⟨hstatistics, hevaluation⟩ := h.unused hkind row hbefore hnone
      refine ⟨hstatistics, fun evaluation hfound => hevaluation evaluation ?_⟩
      rw [← hreported.evaluation_other hne]
      exact hfound
  · intro row hmem hnone a ha hid hattempt other hother
    rcases hreported.row h.numbered.ids hitem hmem with rfl | ⟨hbefore, hne⟩
    · cases hnone.symm.trans hrelated
    · rcases hreported.attempt ha with ⟨before, -, hitemId, -, rfl⟩ | ⟨hkept, -⟩
      · exact absurd (hid.symm.trans hitemId) hne
      · exact h.closed row hbefore hnone a hkept hid hattempt other hother
  · intro row hmem other hother
    rcases hreported.row h.numbered.ids hitem hmem with rfl | ⟨hbefore, hne⟩
    · obtain rfl : other = run.id := Option.some.inj (hother.symm.trans hrelated)
      exact ⟨run, hreported.own, rfl, hnamed, Or.inl hlinked, Or.inr rfl⟩
    · have hrunId := hforeign row hbefore hne other hother
      obtain ⟨found, hfound, hof⟩ := h.item row hbefore other hother
      refine ⟨found, (hreported.others other hrunId).trans hfound, { hof with status := ?_ }⟩
      rcases hof.status with hcancelling | hagrees
      · refine Or.inl (hcancelling.of_cons ?_)
        rw [show found.id = other from find_key hfound]
        exact hrunId
      · exact Or.inr hagrees
  · intro row hmem other hother evaluation hfound
    rcases hreported.row h.numbered.ids hitem hmem with rfl | ⟨hbefore, hne⟩
    · obtain rfl : other = run.id := Option.some.inj (hother.symm.trans hrelated)
      rw [hreported.evaluations] at hfound
      obtain ⟨before, -, rfl⟩ := Option.map_eq_some_iff.mp hfound
      rw [if_pos (show (item.reported run).id = item.id from rfl)]
      exact Or.inr ⟨run, hreported.own, evaluates_reported run before⟩
    · rw [hreported.evaluation_other hne] at hfound
      have hrunId := hforeign row hbefore hne other hother
      rw [hreported.others other hrunId]
      exact h.evaluation row hbefore other hother evaluation hfound
  · intro a ha other hother
    rcases hreported.attempt ha with ⟨before, hbefore, hid, hattempt, rfl⟩ | ⟨hkept, hne⟩
    · have hrun := h.numbered.current hitem hbefore hrelated hid hattempt
      obtain rfl : other = run.id := Option.some.inj (hother.symm.trans hrun)
      exact ⟨run, hreported.own, ⟨Or.inr ⟨rfl, rfl⟩⟩⟩
    · have hrunId : other ≠ run.id := by
        rintro rfl
        exact hne (h.numbered.attempts hitem hkept hrelated hother)
      obtain ⟨found, hfound, hof⟩ := h.attempt a hkept other hother
      refine ⟨found, (hreported.others other hrunId).trans hfound, ⟨?_⟩⟩
      rcases hof.reported with hcancelling | hagrees
      · refine Or.inl (hcancelling.of_cons ?_)
        rw [show found.id = other from find_key hfound]
        exact hrunId
      · exact Or.inr hagrees

end Report

/-! ## A refresh -/

theorem releaseItem_row (selectedKey : String) (oosItems : List BatchItem) (row : BatchItem) :
    (releaseItem selectedKey oosItems row).names = row.names ∧
      (releaseItem selectedKey oosItems row).statistics = row.statistics ∧
      ((releaseItem selectedKey oosItems row).status = row.status ∨
        row.status = .blockedSelection) := by
  unfold releaseItem
  split
  · exact ⟨rfl, rfl, Or.inl rfl⟩
  · by_cases hblocked : row.status ≠ .blockedSelection
    · rw [if_pos hblocked]
      exact ⟨rfl, rfl, Or.inl rfl⟩
    · rw [if_neg hblocked]
      split_ifs <;> exact ⟨rfl, rfl, Or.inr (not_not.mp hblocked)⟩

section Rows

variable {runIds : List String} {db db' : ExperimentDb}

/-- The item can go on without a run. -/
structure Closable (db : ExperimentDb) (item : BatchItem) : Prop where
  unused : db.batch.kind ≠ "research" → Unused db item
  closed : ∀ a ∈ db.attempts, a.itemId = item.id → a.attempt = item.attempt →
    ∀ runId, a.relatedId = some runId → a.status ∈ closedStatuses

variable {item : BatchItem}

theorem AttemptLog.closable (h : AttemptLog runIds db) (hitem : item ∈ db.items)
    (hnone : item.relatedId = none) : Closable db item :=
  ⟨fun hkind => h.unused hkind item hitem hnone, h.closed item hitem hnone⟩

/-- A row that keeps its run and what it holds, or that goes on without a run. -/
structure RowKept (db : ExperimentDb) (old row : BatchItem) : Prop where
  id : row.id = old.id
  attempt : row.attempt = old.attempt
  statistics : row.statistics = old.statistics
  kept : row.relatedId = old.relatedId ∧ row.status = old.status ∨
    row.relatedId = none ∧ Closable db old

/-- A transaction that leaves the runs and the attempts, and keeps every row of an item
that has a run. -/
theorem AttemptLog.transfer (h : AttemptLog runIds db) (hnumbered : db'.Numbered)
    (hkind : db'.batch.kind = db.batch.kind) (hattempts : db'.attempts = db.attempts)
    (hruns : db'.runs = db.runs) (hwindows : Tables.Unique OosEvaluation.window db'.evaluations)
    (hfrozen : ∀ evaluation ∈ db'.evaluations, (db'.event evaluation.window).isSome)
    (hevaluations : ∀ itemId evaluation, db'.evaluationOf itemId = some evaluation →
      db.evaluationOf itemId = some evaluation ∨ evaluation.oosRunId = none)
    (hrows : ∀ row ∈ db'.items, ∃ old ∈ db.items, RowKept db old row) : AttemptLog runIds db' := by
  have hbacktest : ∀ runId, db'.backtest runId = db.backtest runId := by
    intro runId
    unfold ExperimentDb.backtest
    rw [hruns]
  -- a row without a run comes from one that can go on without it
  have hclosable : ∀ row ∈ db'.items, row.relatedId = none →
      ∃ old ∈ db.items, RowKept db old row ∧ Closable db old := by
    intro row hmem hnone
    obtain ⟨old, hold, hkept⟩ := hrows row hmem
    refine ⟨old, hold, hkept, ?_⟩
    rcases hkept.kept with ⟨hrelated, -⟩ | ⟨-, hclosable⟩
    · exact h.closable hold (hrelated.symm.trans hnone)
    · exact hclosable
  -- a row with a run comes from one with the same run
  have hrelated : ∀ row ∈ db'.items, ∀ runId, row.relatedId = some runId →
      ∃ old ∈ db.items, RowKept db old row ∧ old.relatedId = some runId ∧
        row.status = old.status := by
    intro row hmem runId hrun
    obtain ⟨old, hold, hkept⟩ := hrows row hmem
    rcases hkept.kept with ⟨hsame, hstatus⟩ | ⟨hnone, -⟩
    · exact ⟨old, hold, hkept, hsame.symm.trans hrun, hstatus⟩
    · cases hnone.symm.trans hrun
  refine ⟨hnumbered, hwindows, hfrozen, ?_, ?_, ?_, ?_, ?_, ?_, ?_⟩
  · intro hresearch
    obtain ⟨hitems, hnone, hempty⟩ := h.research (hkind.symm.trans hresearch)
    rw [hattempts]
    refine ⟨fun row hmem => ?_, hnone, hruns.trans hempty⟩
    obtain ⟨old, hold, hkept⟩ := hrows row hmem
    rcases hkept.kept with ⟨hsame, -⟩ | ⟨hrow, -⟩
    · exact hsame.trans (hitems old hold)
    · exact hrow
  · intro row hmem hstatus
    obtain ⟨old, hold, hkept⟩ := hrows row hmem
    rcases hkept.kept with ⟨hsame, hsameStatus⟩ | ⟨hnone, -⟩
    · rw [hsameStatus] at hstatus
      exact hsame.trans (h.idle old hold hstatus)
    · exact hnone
  · intro hother row hmem hnone
    obtain ⟨old, -, hkept, hclosable⟩ := hclosable row hmem hnone
    obtain ⟨hstatistics, hevaluation⟩ := hclosable.unused (by rw [← hkind]; exact hother)
    refine ⟨hkept.statistics.trans hstatistics, fun evaluation hfound => ?_⟩
    rw [hkept.id] at hfound
    rcases hevaluations old.id evaluation hfound with hold | hempty
    · exact hevaluation evaluation hold
    · exact hempty
  · intro row hmem hnone a ha hid hattempt runId hrun
    obtain ⟨old, -, hkept, hclosable⟩ := hclosable row hmem hnone
    rw [hattempts] at ha
    exact hclosable.closed a ha (hid.trans hkept.id) (hattempt.trans hkept.attempt) runId hrun
  · intro row hmem runId hrun
    obtain ⟨old, hold, hkept, holdRun, hstatus⟩ := hrelated row hmem runId hrun
    obtain ⟨run, hfound, hof⟩ := h.item old hold runId holdRun
    rw [hbacktest]
    refine ⟨run, hfound, hkept.statistics.trans hof.statistics, hof.named, ?_, ?_⟩
    · rw [hkept.id]
      exact hof.linked
    · rw [hstatus]
      exact hof.status
  · intro row hmem runId hrun evaluation hfound
    obtain ⟨old, hold, hkept, holdRun, -⟩ := hrelated row hmem runId hrun
    rw [hkept.id] at hfound
    rw [hbacktest]
    rcases hevaluations old.id evaluation hfound with hbefore | hempty
    · exact h.evaluation old hold runId holdRun evaluation hbefore
    · exact Or.inl hempty
  · intro a ha runId hrun
    rw [hattempts] at ha
    rw [hbacktest]
    exact h.attempt a ha runId hrun

theorem AttemptLog.numbered_map (h : AttemptLog runIds db) {f : BatchItem → BatchItem}
    (hitems : db'.items = db.items.map f) (hattempts : db'.attempts = db.attempts)
    (hf : ∀ row, (f row).names = row.names) : db'.Numbered := by
  refine h.numbered.of_names ?_ ?_
  · rw [hitems, List.map_map]
    exact List.map_congr_left (fun row _ => hf row)
  · rw [hattempts]

/-! ## A refresh -/

theorem evaluationOf_append {added : OosEvaluation}
    (hdb : db'.evaluations = db.evaluations ++ [added]) (hadded : added.oosRunId = none)
    (itemId : Nat) (evaluation : OosEvaluation) (h : db'.evaluationOf itemId = some evaluation) :
    db.evaluationOf itemId = some evaluation ∨ evaluation.oosRunId = none := by
  unfold ExperimentDb.evaluationOf Tables.find at h ⊢
  rw [hdb, List.find?_append] at h
  cases hold : db.evaluations.find? (fun row => row.oosItemId == itemId) with
  | some found =>
    rw [hold] at h
    exact Or.inl h
  | none =>
    rw [hold, Option.none_or] at h
    refine Or.inr ?_
    rw [List.mem_singleton.mp (List.mem_of_find?_eq_some h)]
    exact hadded

theorem AttemptLog.freeze {objective : Objective} {items : List BatchItem} {key : WindowKey}
    {selected : RankingRow} {ranking : List RankingRow} {oos : BatchItem} (h : AttemptLog runIds db)
    (hstep : FreezeStep objective items key selected ranking oos db db') :
    AttemptLog runIds db' := by
  obtain ⟨oosInput, hevaluations⟩ := hstep.evaluations
  have hevent : ∀ window event, db.event window = some event → db'.event window = some event :=
    fun window event hfound => hstep.evolves.event hfound
  have hfresh : ∀ evaluation ∈ db.evaluations, evaluation.window ≠ key := by
    intro evaluation hmem hwindow
    have hsome := h.frozen evaluation hmem
    rw [hwindow, hstep.unfrozen] at hsome
    cases hsome
  have hnew : (db'.event key).isSome := by
    unfold ExperimentDb.event Tables.find
    rw [hstep.events, List.find?_append]
    simp [selectionEvent]
  refine h.transfer (h.numbered_map hstep.items hstep.attempts
    (fun row => (releaseItem_row _ _ row).1)) ?_ hstep.attempts hstep.runs ?_ ?_
    (evaluationOf_append hevaluations rfl) ?_
  · rw [hstep.batch]
  · unfold Tables.Unique
    rw [hevaluations, List.map_append, List.nodup_append]
    refine ⟨h.windows, by simp, ?_⟩
    intro window hwindow other hother hsame
    obtain ⟨evaluation, hmem, rfl⟩ := List.mem_map.mp hwindow
    simp only [List.map_cons, List.map_nil, List.mem_singleton] at hother
    exact hfresh evaluation hmem (hsame.trans hother)
  · intro evaluation hmem
    rw [hevaluations] at hmem
    rcases List.mem_append.mp hmem with hold | hadded
    · obtain ⟨event, hfound⟩ := Option.isSome_iff_exists.mp (h.frozen evaluation hold)
      rw [hevent _ _ hfound]
      rfl
    · rw [List.mem_singleton.mp hadded]
      exact hnew
  · intro row hmem
    rw [hstep.items] at hmem
    obtain ⟨old, hold, rfl⟩ := List.mem_map.mp hmem
    obtain ⟨hnames, hstatistics, hstatus⟩ := releaseItem_row selected.candidateKey
      (phaseItems items key "oos") old
    have hrelated := congrArg ItemNames.relatedId hnames
    refine ⟨old, hold, congrArg ItemNames.id hnames, congrArg ItemNames.attempt hnames,
      hstatistics, ?_⟩
    rcases hstatus with hsame | hblocked
    · exact Or.inl ⟨hrelated, hsame⟩
    · have hnone := h.idle old hold (by rw [hblocked]; decide)
      exact Or.inr ⟨hrelated.trans hnone, h.closable hold hnone⟩

theorem refreshing_attemptLog (runIds : List String) :
    Refreshing (fun db db' => AttemptLog runIds db → AttemptLog runIds db') where
  refl := fun _ => id
  trans := fun _ _ _ h h' hlog => h' (h hlog)
  freeze := fun hstep hlog => hlog.freeze hstep
  storeStatus := fun _ _ h => h.transfer h.numbered rfl rfl rfl h.windows h.frozen
    (fun _ _ => Or.inl) (fun row hmem => ⟨row, hmem, rfl, rfl, rfl, Or.inl ⟨rfl, rfl⟩⟩)
  walkForwardRun := fun _ _ h => h.transfer h.numbered rfl rfl rfl h.windows h.frozen
    (fun _ _ => Or.inl) (fun row hmem => ⟨row, hmem, rfl, rfl, rfl, Or.inl ⟨rfl, rfl⟩⟩)

/-! ## Items that wait again -/

/-- What an item must not hold when it waits again: a result, an evaluation, or a run
that skipped it. -/
structure Restartable (db : ExperimentDb) (item : BatchItem) : Prop where
  unused : Unused db item
  skipped : item.status = .skipped → item.relatedId = none

theorem AttemptLog.requeueItems (h : AttemptLog [] db) {statuses : List ItemStatus}
    (hstatuses : ∀ status ∈ statuses, status ∈ restartable)
    (hfresh : db.batch.kind ≠ "research" →
      ∀ item ∈ db.items, item.status ∈ statuses → Restartable db item) :
    AttemptLog [] (requeueItems statuses db) := by
  have hnone : ∀ run : BacktestRun, ¬ Cancelling [] run := by simp [Cancelling]
  refine h.transfer ?_ rfl rfl rfl h.windows h.frozen (fun _ _ => Or.inl) ?_
  · refine Numbered.drop h.numbered ?_ (fun row hrow => ?_)
    · show ((db.items.map _).map _).map _ = _
      rw [List.map_map, List.map_map, List.map_map]
      refine List.map_congr_left (fun item _ => ?_)
      show BatchItem.id (if _ then _ else _) = _
      split_ifs <;> rfl
    · obtain ⟨item, hitem, rfl⟩ := List.mem_map.mp hrow
      obtain ⟨old, hold, rfl⟩ := List.mem_map.mp hitem
      refine ⟨old.names, List.mem_map_of_mem hold, ?_⟩
      split_ifs
      · exact ⟨rfl, rfl, Or.inl rfl⟩
      · exact ⟨rfl, rfl, Or.inr rfl⟩
  · intro row hmem
    obtain ⟨old, hold, rfl⟩ := List.mem_map.mp hmem
    refine ⟨old, hold, ?_⟩
    split_ifs with hstatus
    · refine ⟨rfl, rfl, rfl, Or.inr ⟨rfl,
        fun hkind => (hfresh hkind old hold hstatus).unused, ?_⟩⟩
      intro a ha hid hattempt runId hrun
      cases hrelated : old.relatedId with
      | none => exact h.closed old hold hrelated a ha hid hattempt runId hrun
      | some other =>
        have hcurrent := h.numbered.current hold ha hrelated hid hattempt
        obtain rfl := Option.some.inj (hcurrent.symm.trans hrun)
        obtain ⟨run, hfound, hof⟩ := h.item old hold other hrelated
        obtain ⟨run', hfound', hof'⟩ := h.attempt a ha other hrun
        obtain rfl := Option.some.inj (hfound.symm.trans hfound')
        have hsame : a.status = old.status := (hof'.reported.resolve_left (hnone run)).1.trans
            (hof.status.resolve_left (hnone run)).symm
        have hkind : db.batch.kind ≠ "research" := by
          intro hresearch
          cases ((h.research hresearch).1 old hold).symm.trans hrelated
        have hskipped : old.status ≠ .skipped := by
          intro hskip
          cases ((hfresh hkind old hold hstatus).skipped hskip).symm.trans hrelated
        have hclosed := hstatuses old.status hstatus
        rw [hsame]
        generalize old.status = status at hskipped hclosed
        revert hskipped hclosed
        cases status <;> decide
    · exact ⟨rfl, rfl, rfl, Or.inl ⟨rfl, rfl⟩⟩

/-! ## A dispatch -/

theorem AttemptLog.claim (h : AttemptLog runIds db) (hitem : item ∈ db.items)
    (hpending : item.status = .pending) :
    AttemptLog runIds (updateItem item.id (fun row => { row with status := .dispatching }) db) := by
  refine h.transfer (h.numbered_map rfl rfl (fun row => ?_)) rfl rfl rfl h.windows h.frozen
    (fun _ _ => Or.inl) (fun row hmem => ?_)
  · split_ifs <;> rfl
  · obtain ⟨old, hold, rfl⟩ := List.mem_map.mp hmem
    refine ⟨old, hold, ?_⟩
    split_ifs with hid
    · have hnone := h.idle item hitem (by rw [hpending]; decide)
      rw [h.numbered.ids.eq hold hitem hid]
      exact ⟨rfl, rfl, rfl, Or.inr ⟨hnone, h.closable hitem hnone⟩⟩
    · exact ⟨rfl, rfl, rfl, Or.inl ⟨rfl, rfl⟩⟩

/-- The row of a recorded attempt. -/
def recordedRow (item : BatchItem) (relatedId taskId : Option String) (status : ItemStatus)
    (error : Option String) (row : BatchItem) : BatchItem :=
  { row with
    status := status
    attempt := item.attempt + 1
    relatedId := relatedId <|> row.relatedId
    taskId := taskId <|> row.taskId
    error := error <|> row.error }

variable {row : BatchItem}

theorem recordAttempt_row (hids : Tables.Unique BatchItem.id db.items) (hrow : row ∈ db.items)
    (hid : row.id = item.id) {relatedId taskId : Option String} {status : ItemStatus}
    {error : Option String} {later : BatchItem}
    (hlater : later ∈ (recordAttempt item relatedId taskId status error db).items) :
    later = recordedRow item relatedId taskId status error row ∨
      later ∈ db.items ∧ later.id ≠ item.id := by
  obtain ⟨old, hold, rfl⟩ := List.mem_map.mp hlater
  split_ifs with hsame
  · rw [hids.eq hold hrow (hsame.trans hid.symm)]
    exact Or.inl rfl
  · exact Or.inr ⟨hold, hsame⟩

theorem AttemptLog.recorded_numbered (h : AttemptLog runIds db) (hrow : row ∈ db.items)
    (hnone : row.relatedId = none) (hid : row.id = item.id) (hattempt : row.attempt = item.attempt)
    {relatedId : Option String}
    (hfresh : ∀ runId, relatedId = some runId → db.backtest runId = none) (taskId : Option String)
    (status : ItemStatus) (error : Option String) :
    (recordAttempt item relatedId taskId status error db).Numbered := by
  have hnewItems : ∀ runId, relatedId = some runId →
      ∀ names ∈ db.items.map BatchItem.names, names.relatedId ≠ some runId := by
    intro runId hrun names hnames hrelated
    obtain ⟨other, hother, rfl⟩ := List.mem_map.mp hnames
    obtain ⟨run, hfound, -⟩ := h.item other hother runId hrelated
    cases (hfresh runId hrun).symm.trans hfound
  have hnewAttempts : ∀ runId, relatedId = some runId →
      ∀ names ∈ db.attempts.map ItemAttempt.names, names.relatedId ≠ some runId := by
    intro runId hrun names hnames hrelated
    obtain ⟨a, ha, rfl⟩ := List.mem_map.mp hnames
    obtain ⟨run, hfound, -⟩ := h.attempt a ha runId hrelated
    cases (hfresh runId hrun).symm.trans hfound
  have hrecord := Numbered.record h.numbered (List.mem_map_of_mem hrow) hnewItems hnewAttempts
  have hitems : (recordAttempt item relatedId taskId status error db).items.map BatchItem.names =
      (db.items.map BatchItem.names).map (fun names => if names.id = row.names.id then
        { names with attempt := row.names.attempt + 1, relatedId := relatedId } else names) := by
    show (db.items.map _).map _ = _
    rw [List.map_map, List.map_map]
    refine List.map_congr_left (fun old hold => ?_)
    show BatchItem.names (if old.id = item.id then _ else old) =
      if old.id = row.id then _ else old.names
    rw [← hid]
    split_ifs with hsame
    · rw [h.numbered.ids.eq hold hrow hsame]
      unfold BatchItem.names
      simp [hnone, hattempt]
    · rfl
  have hattempts : (recordAttempt item relatedId taskId status error db).attempts.map
      ItemAttempt.names = db.attempts.map ItemAttempt.names ++
        [{ itemId := row.names.id, attempt := row.names.attempt + 1, relatedId := relatedId }] := by
    show (db.attempts ++ [_]).map _ = _
    rw [List.map_append]
    unfold ItemAttempt.names BatchItem.names
    simp [hid, hattempt]
  unfold ExperimentDb.Numbered
  rw [hitems, hattempts]
  exact hrecord

/-- An attempt with a new run. -/
theorem AttemptLog.record (h : AttemptLog [] db) (hkind : db.batch.kind ≠ "research")
    (hrow : row ∈ db.items) (hnone : row.relatedId = none) (hid : row.id = item.id)
    (hattempt : row.attempt = item.attempt) {run : BacktestRun} (hfresh : db.backtest run.id = none)
    (hnamed : run.id ≠ "") (hstatistics : run.statistics = [])
    (hlinked : run.batchItemId = some item.id ∨ run.status = "failed") (taskId : Option String)
    {status : ItemStatus} (hrecorded : status ∉ unrecorded) {error : Option String}
    (hreported : Cancelling runIds run ∨ status = itemStatusOf run.status ∧ error = run.error) :
    AttemptLog runIds (recordAttempt item (some run.id) taskId status error
      { db with runs := db.runs ++ [run] }) := by
  obtain ⟨hempty, hunevaluated⟩ := h.unused hkind row hrow hnone
  have hlog := h.weaken runIds
  have hids := h.numbered.ids
  have hbacktest : ∀ runId, (ExperimentDb.backtest { db with runs := db.runs ++ [run] } runId) =
      if runId = run.id then some run else db.backtest runId :=
    fun runId => find_append_singleton hfresh runId
  have hold : ∀ runId found, db.backtest runId = some found →
      ExperimentDb.backtest { db with runs := db.runs ++ [run] } runId = some found := by
    intro runId found hfound
    rw [hbacktest, if_neg]
    · exact hfound
    · rintro rfl
      cases hfresh.symm.trans hfound
  have hnew : ExperimentDb.backtest { db with runs := db.runs ++ [run] } run.id = some run := by
    rw [hbacktest, if_pos rfl]
  have hnumbered := h.recorded_numbered hrow hnone hid hattempt
    (fun runId hrun => Option.some.inj hrun ▸ hfresh) taskId status error
  refine ⟨hnumbered, h.windows, h.frozen, fun hresearch => absurd hresearch hkind, ?_, ?_, ?_, ?_,
    ?_, ?_⟩
  · intro later hlater hstatus
    rcases recordAttempt_row hids hrow hid hlater with rfl | ⟨hmem, -⟩
    · exact absurd hstatus hrecorded
    · exact h.idle later hmem hstatus
  · intro _ later hlater hlaterNone
    rcases recordAttempt_row hids hrow hid hlater with rfl | ⟨hmem, -⟩
    · cases hlaterNone
    · obtain ⟨hstatistics', hevaluation⟩ := h.unused hkind later hmem hlaterNone
      exact ⟨hstatistics', hevaluation⟩
  · intro later hlater hlaterNone a ha hitemId hnumber runId hrun
    rcases recordAttempt_row hids hrow hid hlater with rfl | ⟨hmem, hne⟩
    · cases hlaterNone
    · rcases List.mem_append.mp ha with ha | ha
      · exact h.closed later hmem hlaterNone a ha hitemId hnumber runId hrun
      · rw [List.mem_singleton.mp ha] at hitemId
        exact absurd hitemId.symm hne
  · intro later hlater runId hrun
    rcases recordAttempt_row hids hrow hid hlater with rfl | ⟨hmem, -⟩
    · obtain rfl : run.id = runId := Option.some.inj hrun
      refine ⟨run, hnew, hempty.trans hstatistics.symm, hnamed, ?_, ?_⟩
      · rw [← hid] at hlinked
        exact hlinked
      · exact hreported.imp_right And.left
    · obtain ⟨found, hfound, hof⟩ := hlog.item later hmem runId hrun
      exact ⟨found, hold runId found hfound, hof⟩
  · intro later hlater runId hrun evaluation hfound
    rcases recordAttempt_row hids hrow hid hlater with rfl | ⟨hmem, -⟩
    · exact Or.inl (hunevaluated evaluation hfound)
    · rcases h.evaluation later hmem runId hrun evaluation hfound with hempty | ⟨found, hrun', heval⟩
      · exact Or.inl hempty
      · exact Or.inr ⟨found, hold runId found hrun', heval⟩
  · intro a ha runId hrun
    rcases List.mem_append.mp ha with ha | ha
    · obtain ⟨found, hfound, hof⟩ := hlog.attempt a ha runId hrun
      exact ⟨found, hold runId found hfound, hof⟩
    · rw [List.mem_singleton.mp ha] at hrun ⊢
      obtain rfl : run.id = runId := Option.some.inj hrun
      exact ⟨run, hnew, ⟨hreported⟩⟩

theorem AttemptLog.of_research (hkind : db.batch.kind = "research") (hnumbered : db.Numbered)
    (hwindows : Tables.Unique OosEvaluation.window db.evaluations)
    (hfrozen : ∀ evaluation ∈ db.evaluations, (db.event evaluation.window).isSome)
    (hitems : ∀ item ∈ db.items, item.relatedId = none)
    (hattempts : ∀ a ∈ db.attempts, a.relatedId = none) (hruns : db.runs = []) :
    AttemptLog runIds db := by
  refine ⟨hnumbered, hwindows, hfrozen, fun _ => ⟨hitems, hattempts, hruns⟩, ?_, ?_, ?_, ?_, ?_,
    ?_⟩
  · exact fun item hitem _ => hitems item hitem
  · exact fun hother => absurd hkind hother
  · intro item hitem _ a ha _ _ runId hrun
    cases (hattempts a ha).symm.trans hrun
  · intro item hitem runId hrun
    cases (hitems item hitem).symm.trans hrun
  · intro item hitem runId hrun
    cases (hitems item hitem).symm.trans hrun
  · intro a ha runId hrun
    cases (hattempts a ha).symm.trans hrun

theorem AttemptLog.recordResearch (h : AttemptLog [] db) (hkind : db.batch.kind = "research")
    (hrow : row ∈ db.items) (hid : row.id = item.id) (hattempt : row.attempt = item.attempt)
    (taskId : Option String) (status : ItemStatus) (error : Option String) :
    AttemptLog [] (recordAttempt item none taskId status error db) := by
  obtain ⟨hitems, hattempts, hruns⟩ := h.research hkind
  have hnone := hitems row hrow
  refine .of_research hkind (h.recorded_numbered hrow hnone hid hattempt
    (fun _ hrun => by cases hrun) taskId status error) h.windows h.frozen
    (fun later hlater => ?_) (fun a ha => ?_) hruns
  · rcases recordAttempt_row h.numbered.ids hrow hid hlater with rfl | ⟨hmem, -⟩
    · exact hnone
    · exact hitems later hmem
  · rcases List.mem_append.mp ha with ha | ha
    · exact hattempts a ha
    · rw [List.mem_singleton.mp ha]

theorem AttemptLog.finishItem (h : AttemptLog [] db) (hkind : db.batch.kind = "research")
    (itemId : Nat) (statistics : Statistics) (error : Option String) :
    AttemptLog [] (finishItem itemId statistics error db).state := by
  obtain ⟨hitems, hattempts, hruns⟩ := h.research hkind
  let finished := fun (item : BatchItem) =>
    { item with
      status := (if error.any (· ≠ "") then .failed else .success : ItemStatus)
      statistics := statistics
      error := error }
  have hupdated : (updateItem itemId finished db).Numbered := by
    refine h.numbered_map rfl rfl (fun row => ?_)
    split_ifs <;> rfl
  have hnone : ∀ item ∈ (updateItem itemId finished db).items, item.relatedId = none := by
    intro item hitem
    obtain ⟨old, hold, rfl⟩ := List.mem_map.mp hitem
    split_ifs <;> exact hitems old hold
  cases hfind : db.item itemId with
  | none =>
    have hstate : (Experiments.finishItem itemId statistics error db).state =
        updateItem itemId finished db := by
      unfold Experiments.finishItem TxM.tx
      simp only [hfind]
      rfl
    rw [hstate]
    exact .of_research hkind hupdated h.windows h.frozen hnone hattempts hruns
  | some item =>
    have hstate : (Experiments.finishItem itemId statistics error db).state =
        { updateItem itemId finished db with
          attempts := db.attempts.map (fun a =>
            if a.itemId = itemId ∧ a.attempt = item.attempt then
              { a with
                status := if error.any (· ≠ "") then .failed else .success
                error := error }
            else a) } := by
      unfold Experiments.finishItem TxM.tx
      simp only [hfind]
      rfl
    rw [hstate]
    refine .of_research hkind (hupdated.of_names rfl ?_) h.windows h.frozen hnone
      (fun a ha => ?_) hruns
    · show (db.attempts.map _).map _ = _
      rw [List.map_map]
      refine List.map_congr_left (fun a _ => ?_)
      show ItemAttempt.names (if _ then _ else _) = _
      split_ifs <;> rfl
    · obtain ⟨old, hold, rfl⟩ := List.mem_map.mp ha
      split_ifs <;> exact hattempts old hold

/-! ## A cancellation -/

theorem itemStatusOf_queued {status : String} (h : itemStatusOf status = .queued) :
    status = "queued" := by
  unfold itemStatusOf at h
  split_ifs at h with _ _ _ hqueued
  exact hqueued

theorem AttemptLog.cancelling (h : AttemptLog [] db) (hitem : item ∈ db.items)
    (hcancellable : item.status ∈ cancellable) {runId : String}
    (hrelated : item.relatedId = some runId) {run : BacktestRun}
    (hfound : db.backtest runId = some run) : Cancelling (activeRuns db.items) run := by
  obtain ⟨found, hfound', hof⟩ := h.item item hitem runId hrelated
  obtain rfl := Option.some.inj (hfound.symm.trans hfound')
  have hagrees : item.status = itemStatusOf run.status :=
    hof.status.resolve_left (by simp [Cancelling])
  have hrecorded : item.status ∉ unrecorded := by
    intro hidle
    cases (h.idle item hitem hidle).symm.trans hrelated
  have hqueued : item.status = .queued := by
    generalize item.status = status at hcancellable hrecorded
    revert hcancellable hrecorded
    cases status <;> decide
  have hstatus := itemStatusOf_queued (hagrees.symm.trans hqueued)
  have hrunId : run.id = runId := find_key hfound
  refine ⟨?_, ?_⟩
  · refine List.mem_filterMap.mpr ⟨item, List.mem_filter.mpr ⟨hitem, ?_⟩, ?_⟩
    · simp [hqueued, active]
    · rw [hrelated, hrunId]
      have hnamed := hof.named
      rw [hrunId] at hnamed
      simp [Option.filter, hnamed]
  · rw [hstatus]
    decide +kernel

theorem cancelItems_row (h : row ∈ (cancelItems db).items) :
    ∃ old ∈ db.items, row.names = old.names ∧ row.statistics = old.statistics ∧
      (old.status ∈ cancellable ∧ row.status = .cancelled ∨
        old.status ∉ cancellable ∧ row.status = old.status) := by
  obtain ⟨old, hold, rfl⟩ := List.mem_map.mp h
  refine ⟨old, hold, ?_⟩
  split_ifs with hcancellable
  · exact ⟨rfl, rfl, Or.inl ⟨hcancellable, rfl⟩⟩
  · exact ⟨rfl, rfl, Or.inr ⟨hcancellable, rfl⟩⟩

theorem cancelItems_attempt {a : ItemAttempt} (h : a ∈ (cancelItems db).attempts) :
    a ∈ db.attempts ∨ ∃ old ∈ db.attempts, old.status ∉ closedStatuses ∧
      a = { old with status := .cancelled } ∧ ∃ row ∈ (cancelItems db).items,
        row.status = .cancelled ∧ row.id = old.itemId ∧ row.attempt = old.attempt := by
  obtain ⟨old, hold, rfl⟩ := List.mem_map.mp h
  split_ifs with hcancelled
  · obtain ⟨hany, hopen⟩ := hcancelled
    obtain ⟨row, hrow, hnamed⟩ := List.any_eq_true.mp hany
    simp only [Bool.and_eq_true, beq_iff_eq, decide_eq_true_eq] at hnamed
    exact Or.inr ⟨old, hold, hopen, rfl, row, hrow, hnamed.1.1.1, hnamed.1.1.2, hnamed.1.2⟩
  · exact Or.inl hold

theorem AttemptLog.cancelItems (h : AttemptLog [] db) :
    AttemptLog (activeRuns db.items) (cancelItems db) := by
  have hnone : ∀ run : BacktestRun, ¬ Cancelling [] run := by simp [Cancelling]
  refine ⟨?_, h.windows, h.frozen, ?_, ?_, ?_, ?_, ?_, ?_, ?_⟩
  · refine h.numbered.of_names ?_ ?_
    · show (db.items.map _).map _ = _
      rw [List.map_map]
      refine List.map_congr_left (fun item _ => ?_)
      show BatchItem.names (if _ then _ else _) = _
      split_ifs <;> rfl
    · show (db.attempts.map _).map _ = _
      rw [List.map_map]
      refine List.map_congr_left (fun a _ => ?_)
      show ItemAttempt.names (if _ then _ else _) = _
      split_ifs <;> rfl
  · intro hkind
    obtain ⟨hitems, hattempts, hruns⟩ := h.research hkind
    refine ⟨fun row hrow => ?_, fun a ha => ?_, hruns⟩
    · obtain ⟨old, hold, hnames, -⟩ := cancelItems_row hrow
      exact (congrArg ItemNames.relatedId hnames).trans (hitems old hold)
    · rcases cancelItems_attempt ha with hkept | ⟨old, hold, -, rfl, -⟩
      · exact hattempts a hkept
      · exact hattempts old hold
  · intro row hrow hstatus
    obtain ⟨old, hold, hnames, -, ⟨-, hcancelled⟩ | ⟨hkept, hsame⟩⟩ := cancelItems_row hrow
    · rw [hcancelled] at hstatus
      exact absurd hstatus (by decide)
    · rw [hsame] at hstatus
      exact (congrArg ItemNames.relatedId hnames).trans (h.idle old hold hstatus)
  · intro hkind row hrow hrowNone
    obtain ⟨old, hold, hnames, hstatistics, -⟩ := cancelItems_row hrow
    have holdNone := (congrArg ItemNames.relatedId hnames).symm.trans hrowNone
    obtain ⟨hempty, hevaluation⟩ := h.unused hkind old hold holdNone
    refine ⟨hstatistics.trans hempty, fun evaluation hfound => hevaluation evaluation ?_⟩
    rw [show row.id = old.id from congrArg ItemNames.id hnames] at hfound
    exact hfound
  · intro row hrow hrowNone a ha hid hattempt runId hrun
    obtain ⟨old, hold, hnames, -⟩ := cancelItems_row hrow
    have holdNone := (congrArg ItemNames.relatedId hnames).symm.trans hrowNone
    rcases cancelItems_attempt ha with hkept | ⟨before, -, -, rfl, -⟩
    · exact h.closed old hold holdNone a hkept (hid.trans (congrArg ItemNames.id hnames))
        (hattempt.trans (congrArg ItemNames.attempt hnames)) runId hrun
    · simp [closedStatuses]
  · intro row hrow runId hrelated
    obtain ⟨old, hold, hnames, hstatistics, hstatus⟩ := cancelItems_row hrow
    have holdRelated := (congrArg ItemNames.relatedId hnames).symm.trans hrelated
    obtain ⟨run, hfound, hof⟩ := h.item old hold runId holdRelated
    refine ⟨run, hfound, hstatistics.trans hof.statistics, hof.named, ?_, ?_⟩
    · rw [show row.id = old.id from congrArg ItemNames.id hnames]
      exact hof.linked
    · rcases hstatus with ⟨hcancellable, -⟩ | ⟨-, hsame⟩
      · exact Or.inl (h.cancelling hold hcancellable holdRelated hfound)
      · exact Or.inr (hsame.trans (hof.status.resolve_left (hnone run)))
  · intro row hrow runId hrelated evaluation hfound
    obtain ⟨old, hold, hnames, -⟩ := cancelItems_row hrow
    have holdRelated := (congrArg ItemNames.relatedId hnames).symm.trans hrelated
    rw [show row.id = old.id from congrArg ItemNames.id hnames] at hfound
    exact h.evaluation old hold runId holdRelated evaluation hfound
  · intro a ha runId hrun
    rcases cancelItems_attempt ha with
      hkept | ⟨before, hbefore, hopen, rfl, row, hrow, hcancelled, hid, hattempt⟩
    · obtain ⟨run, hfound, hof⟩ := h.attempt a hkept runId hrun
      exact ⟨run, hfound, ⟨Or.inr (hof.reported.resolve_left (hnone run))⟩⟩
    · obtain ⟨run, hfound, hof⟩ := h.attempt before hbefore runId hrun
      have hreported := hof.reported.resolve_left (hnone run)
      refine ⟨run, hfound, ⟨Or.inl ?_⟩⟩
      obtain ⟨old, hold, hnames, -, hstatus⟩ := cancelItems_row hrow
      have hitemId : before.itemId = old.id := hid.symm.trans (congrArg ItemNames.id hnames)
      have hnumber : before.attempt = old.attempt :=
        hattempt.symm.trans (congrArg ItemNames.attempt hnames)
      cases hrelated : old.relatedId with
      | none =>
        exact absurd (h.closed old hold hrelated before hbefore hitemId hnumber runId hrun) hopen
      | some other =>
        have hcurrent := h.numbered.current hold hbefore hrelated hitemId hnumber
        obtain rfl : other = runId := Option.some.inj (hcurrent.symm.trans hrun)
        rcases hstatus with ⟨hcancellable, -⟩ | ⟨-, hsame⟩
        · exact h.cancelling hold hcancellable hrelated hfound
        · -- an item that was cancelled before agrees with its run, and so does the attempt
          exfalso
          apply hopen
          obtain ⟨run', hfound', hof'⟩ := h.item old hold other hrelated
          obtain rfl := Option.some.inj (hfound.symm.trans hfound')
          rw [hreported.1, ← hof'.status.resolve_left (hnone run), ← hsame, hcancelled]
          decide

end Rows

end LocalPlatform.Experiments
