import LocalPlatform.Experiments.Evolution

/-!
# The quarantine of out-of-sample items

An out-of-sample item must not run before the validation items of its window
have chosen its candidate.  The only sign of that in the database is the status
`blocked_selection`, which several calls rewrite in bulk.

* `Chosen` says that the selection event of a window names the candidate of an
  item, and `FrozenFrom` that the event ranks the validation items of a state,
  which have all succeeded.
* `Quarantine` is the invariant: an item that is not waiting for a selection,
  cancelled or skipped is chosen, and so is one with an attempt or a run.
* Every event of a run was written from a state that the run had passed
  (`sourced_program`).
* `restart_cancelled` puts cancelled and skipped items back to `pending`, chosen
  or not.  `RestartsChosen` is the condition under which every run keeps the
  quarantine.
-/

namespace LocalPlatform.Experiments

open Paper Transaction Transaction.TxM Machines Tables

/-! ## The invariant -/

/-- The statuses of an item that was never released or does not run any more. -/
def unrun : List ItemStatus := [.blockedSelection, .cancelled, .skipped]

/-- All validation items of the window of the event have succeeded in `db`, and the
event is the one that their ranking gives. -/
structure FrozenFrom (db : ExperimentDb) (event : SelectionEvent) : Prop where
  succeeded : ∀ item ∈ phaseItems db.items event.window "validation", item.status = .success
  ranked : ∃ selected ranking, ranking.head? = some selected ∧
    rankValidation db.batch.objective (phaseItems db.items event.window "validation") =
      .ok (some ranking) ∧
    event = selectionEvent db.batch.objective event.window selected ranking

/-- The event of the window of an out-of-sample item names its candidate. -/
def Chosen (db : ExperimentDb) (item : BatchItem) : Prop :=
  item.phase = "oos" → ∀ key ∈ item.window, ∃ event ∈ db.event key,
    event.selectedCandidate = item.candidate

instance (db : ExperimentDb) (item : BatchItem) : Decidable (Chosen db item) :=
  inferInstanceAs (Decidable (item.phase = "oos" → ∀ key ∈ item.window, ∃ event ∈ db.event key,
    event.selectedCandidate = item.candidate))

def Licensed (db : ExperimentDb) (itemId : Nat) : Prop :=
  ∀ item ∈ db.items, item.id = itemId → Chosen db item

/-- Whatever ran or runs was chosen. -/
structure Quarantine (db : ExperimentDb) : Prop where
  ids : Unique BatchItem.id db.items
  items : ∀ item ∈ db.items, item.status ∉ unrun → Licensed db item.id
  attempts : ∀ attempt ∈ db.attempts, Licensed db attempt.itemId
  runs : ∀ run ∈ db.runs, ∀ itemId ∈ run.batchItemId, Licensed db itemId

section Invariant

variable {db db' : ExperimentDb}

theorem Evolves.chosen (h : Evolves db db') {a b : BatchItem} (hplan : a.plan = b.plan)
    (hchosen : Chosen db a) : Chosen db' b := by
  intro hphase key hkey
  rw [← plan_phase hplan] at hphase
  rw [← plan_window hplan] at hkey
  obtain ⟨event, hevent, hselected⟩ := hchosen hphase key hkey
  exact ⟨event, h.event hevent, hselected.trans (plan_candidate hplan)⟩

variable {itemId : Nat}

theorem Evolves.licensed (h : Evolves db db') (hlicensed : Licensed db itemId) :
    Licensed db' itemId := by
  intro item hitem hid
  obtain ⟨old, hold, hplan⟩ := mem_of_planOf h.items hitem
  exact h.chosen hplan (hlicensed old hold ((plan_id hplan).trans hid))

theorem unique_of_planOf {a b : List BatchItem} (h : planOf a = planOf b)
    (hb : Unique BatchItem.id b) : Unique BatchItem.id a := by
  have hids : ∀ items : List BatchItem, items.map BatchItem.id = (planOf items).map ItemPlan.id := by
    intro items
    unfold planOf
    rw [List.map_map]
    rfl
  unfold Tables.Unique at hb ⊢
  rw [hids, h, ← hids]
  exact hb

theorem Quarantine.keep (h : Quarantine db) (hevolves : Evolves db db')
    (hitems : ∀ item ∈ db'.items, item.status ∉ unrun → Licensed db item.id)
    (hattempts : ∀ attempt ∈ db'.attempts, Licensed db attempt.itemId)
    (hruns : ∀ run ∈ db'.runs, ∀ itemId ∈ run.batchItemId, Licensed db itemId) :
    Quarantine db' where
  ids := unique_of_planOf hevolves.items h.ids
  items := fun item hitem hstatus => hevolves.licensed (hitems item hitem hstatus)
  attempts := fun attempt hattempt => hevolves.licensed (hattempts attempt hattempt)
  runs := fun run hrun itemId hitem => hevolves.licensed (hruns run hrun itemId hitem)

theorem Quarantine.updateItem (h : Quarantine db) (hlicensed : Licensed db itemId)
    {f : BatchItem → BatchItem} (hf : ∀ item, (f item).id = item.id) :
    ∀ item ∈ (updateItem itemId f db).items, item.status ∉ unrun → Licensed db item.id := by
  intro item hitem hstatus
  obtain ⟨old, hold, rfl⟩ := List.mem_map.mp hitem
  split_ifs at hstatus ⊢ with hid
  · rw [hf, hid]
    exact hlicensed
  · exact h.items old hold hstatus

/-! ## Transactions -/

variable {items : List BatchItem}

theorem FreezeStep.event {objective : Objective} {key : WindowKey} {selected : RankingRow}
    {ranking : List RankingRow} {oos : BatchItem}
    (h : FreezeStep objective items key selected ranking oos db db') :
    db'.event key = some (selectionEvent objective key selected ranking) := by
  have hfresh : Tables.find SelectionEvent.window db.events
      (selectionEvent objective key selected ranking).window = none := h.unfrozen
  unfold ExperimentDb.event
  rw [h.events, find_append_singleton hfresh]
  exact if_pos rfl

theorem Quarantine.freeze (h : Quarantine db) {objective : Objective} {key : WindowKey}
    {selected : RankingRow} {ranking : List RankingRow} {oos : BatchItem}
    (hplan : planOf db.items = planOf items)
    (hstep : FreezeStep objective items key selected ranking oos db db') : Quarantine db' := by
  have hevolves := hstep.evolves
  have hids : Unique BatchItem.id items := unique_of_planOf hplan.symm h.ids
  refine ⟨unique_of_planOf hevolves.items h.ids, ?_, ?_, ?_⟩
  · intro item hitem hstatus
    rw [hstep.items] at hitem
    obtain ⟨row, hrow, rfl⟩ := List.mem_map.mp hitem
    have hold : row.status ∉ unrun → Licensed db' row.id :=
      fun hrun => hevolves.licensed (h.items row hrow hrun)
    unfold releaseItem at hstatus ⊢
    split at hstatus
    · exact hold hstatus
    · rename_i released hreleased
      split_ifs at hstatus ⊢ with hblocked hcandidate
      · exact hold hstatus
      · -- the released item is the one of the selected candidate
        intro other hother hid
        obtain ⟨planned, hplanned, hsame⟩ := mem_of_planOf (hevolves.items.trans hplan) hother
        have hmem := List.mem_of_find?_eq_some hreleased
        have hfound : released.id = row.id := by simpa using List.find?_some hreleased
        have hequal : planned = released := hids.eq hplanned (List.mem_filter.mp hmem).1
            (((plan_id hsame).trans hid).trans hfound.symm)
        have hwindow : released.window = some key := by
          have hfilter := (List.mem_filter.mp hmem).2
          simp only [Bool.and_eq_true, beq_iff_eq] at hfilter
          exact hfilter.1
        subst hequal
        intro _ key' hkey'
        rw [← plan_window hsame, hwindow, Option.mem_some_iff] at hkey'
        subst hkey'
        exact ⟨_, hstep.event, hcandidate.symm.trans (plan_candidate hsame)⟩
      · exact absurd (show ItemStatus.skipped ∈ unrun by decide) hstatus
  · rw [hstep.attempts]
    exact fun attempt hattempt => hevolves.licensed (h.attempts attempt hattempt)
  · rw [hstep.runs]
    exact fun run hrun itemId hitem => hevolves.licensed (h.runs run hrun itemId hitem)

theorem Quarantine.storeStatus (h : Quarantine db) (status : String) :
    Quarantine (storeStatus status db) :=
  h.keep (evolves_storeStatus status db) h.items h.attempts h.runs

theorem Quarantine.updateRun (h : Quarantine db) (runId : String) {f : BacktestRun → BacktestRun}
    (hf : ∀ run, ∀ itemId ∈ (f run).batchItemId, itemId ∈ run.batchItemId ∨ Licensed db itemId) :
    Quarantine (updateRun runId f db) := by
  refine h.keep (evolves_updateRun runId f db) h.items h.attempts ?_
  intro run hrun itemId hitem
  obtain ⟨old, hold, rfl⟩ := List.mem_map.mp hrun
  split_ifs at hitem
  · rcases hf old itemId hitem with hsame | hlicensed
    · exact h.runs old hold itemId hsame
    · exact hlicensed
  · exact h.runs old hold itemId hitem

theorem Quarantine.addRun (h : Quarantine db) {run : BacktestRun} (hrun : run.batchItemId = none) :
    Quarantine (addRun run db) := by
  refine h.keep (evolves_addRun run db) h.items h.attempts ?_
  intro row hrow itemId hitem
  rcases List.mem_append.mp hrow with hold | hnew
  · exact h.runs row hold itemId hitem
  · rw [List.mem_singleton.mp hnew, hrun] at hitem
    cases hitem

theorem Quarantine.recordAttempt (h : Quarantine db) {item : BatchItem}
    (hlicensed : Licensed db item.id) (relatedId taskId : Option String) (status : ItemStatus)
    (error : Option String) : Quarantine (recordAttempt item relatedId taskId status error db) := by
  refine h.keep (evolves_recordAttempt item _ _ _ _ db) ?_ ?_ h.runs
  · exact h.updateItem hlicensed (fun _ => rfl)
  · intro attempt hattempt
    rcases List.mem_append.mp hattempt with hold | hnew
    · exact h.attempts attempt hold
    · rw [List.mem_singleton.mp hnew]
      exact hlicensed

theorem Quarantine.reconcileItem (h : Quarantine db) {run : BacktestRun}
    (hlicensed : Licensed db itemId) {u : Unit}
    (hrun : Experiments.reconcileItem run itemId db = .ok (u, db')) : Quarantine db' := by
  have hevolves := evolves_reconcileItem hrun
  unfold Experiments.reconcileItem at hrun
  split at hrun
  · cases hrun
  · obtain ⟨-, rfl⟩ := ok_inj hrun
    refine h.keep hevolves ?_ ?_ h.runs
    · exact h.updateItem hlicensed (fun _ => rfl)
    · intro attempt hattempt
      obtain ⟨old, hold, rfl⟩ := List.mem_map.mp hattempt
      split_ifs <;> exact h.attempts old hold

theorem Quarantine.persistOosEvaluation (h : Quarantine db) (itemId : Nat) (run : BacktestRun) :
    Quarantine (persistOosEvaluation itemId run db) := by
  have hevolves := evolves_persistOosEvaluation itemId run db
  unfold Experiments.persistOosEvaluation at hevolves ⊢
  split
  · exact h
  · rename_i hfound
    simp only [hfound] at hevolves
    exact h.keep hevolves h.items h.attempts h.runs

theorem Quarantine.claimItem (h : Quarantine db) {claimed : Bool}
    (hrun : Experiments.claimItem itemId db = .ok (claimed, db')) :
    Quarantine db' ∧ (claimed = true → Licensed db' itemId) := by
  have hevolves := evolves_claimItem hrun
  unfold Experiments.claimItem at hrun
  split at hrun
  · obtain ⟨rfl, rfl⟩ := ok_inj hrun
    exact ⟨h, fun hclaimed => by cases hclaimed⟩
  · rename_i item hfind
    split_ifs at hrun with hpending
    · obtain ⟨rfl, rfl⟩ := ok_inj hrun
      exact ⟨h, fun hclaimed => by cases hclaimed⟩
    · obtain ⟨rfl, rfl⟩ := ok_inj hrun
      have hlicensed : Licensed db itemId := by
        rw [← show item.id = itemId from find_key hfind]
        apply h.items item (mem_of_find hfind)
        rw [not_not.mp hpending]
        decide
      refine ⟨h.keep hevolves ?_ h.attempts h.runs, fun _ => hevolves.licensed hlicensed⟩
      exact h.updateItem hlicensed (fun _ => rfl)

theorem Quarantine.cancelItems (h : Quarantine db) : Quarantine (cancelItems db) := by
  refine h.keep (evolves_cancelItems db) ?_ ?_ h.runs
  · intro item hitem hstatus
    obtain ⟨old, hold, rfl⟩ := List.mem_map.mp hitem
    split_ifs at hstatus ⊢
    · exact absurd (show ItemStatus.cancelled ∈ unrun by decide) hstatus
    · exact h.items old hold hstatus
  · intro attempt hattempt
    obtain ⟨old, hold, rfl⟩ := List.mem_map.mp hattempt
    split_ifs <;> exact h.attempts old hold

theorem Quarantine.requeueItems (h : Quarantine db) {statuses : List ItemStatus}
    (hlicensed : ∀ item ∈ db.items, item.status ∈ statuses → Licensed db item.id) :
    Quarantine (requeueItems statuses db) := by
  refine h.keep (evolves_requeueItems statuses db) ?_ h.attempts h.runs
  intro item hitem hstatus
  obtain ⟨old, hold, rfl⟩ := List.mem_map.mp hitem
  split_ifs at hstatus ⊢ with hrequeued
  · exact hlicensed old hold hrequeued
  · exact h.items old hold hstatus

/-! ## Programs -/

theorem wp_write {I : ExperimentDb → Prop} {f : ExperimentDb → ExperimentDb}
    {Q : Except BatchError Unit → ExperimentDb → Prop} (hcommit : I (f db))
    (hpost : Q (.ok ()) (f db)) :
    wp I (TxM.tx (fun db => (.ok ((), f db) : Except BatchError _))) Q db := by
  refine wp_tx (fun u t hrun => ?_) (fun e hrun => by cases hrun)
  obtain ⟨rfl, rfl⟩ := ok_inj hrun
  exact ⟨hcommit, hpost⟩

section Rules

variable {I P : ExperimentDb → Prop} {batch : Batch}

theorem wp_advanceSelection (h : P db)
    (hfreeze : ∀ key t, P t → ∀ changed t',
      freezeWindow batch.objective items key t = .ok (changed, t') → I t' ∧ P t') :
    wp I (advanceSelection batch items) (fun _ t => P t) db := by
  unfold advanceSelection
  split_ifs
  · exact wp_pure h
  · refine wp_bind_keep (wp_forEach_keep P (fun key t ht => ?_) (groupKeys items) db h)
      (fun changed t ht => wp_pure ht)
    exact wp_tx (hfreeze key t ht) (fun _ _ => ht)

theorem wp_publishStatus {status : String}
    (hstored : I (storeStatus status db) ∧ P (storeStatus status db))
    (hissue : ∀ certificate t, issueCertificate (storeStatus status db) = .ok (certificate, t) →
      I t ∧ P t) :
    wp I (publishStatus batch status) (fun _ t => P t) db := by
  refine wp_bind (wp_write hstored.1 ?_)
  show wp I (if _ then _ else _) _ _
  split_ifs
  · exact wp_bind_keep (wp_tx hissue (fun _ _ => hstored.2)) (fun _ _ ht => wp_pure ht)
  · exact wp_pure hstored.2

theorem wp_refresh (hadvance : wp I (advanceSelection db.batch db.items) (fun _ t => P t) db)
    (hpublish : ∀ batch status t, P t → wp I (publishStatus batch status) (fun _ u => P u) t) :
    wp I refresh (fun _ t => P t) db := by
  refine wp_bind (wp_read (wp_bind_keep hadvance (fun changed t ht => ?_)))
  have hcurrent : wp I (currentItems changed db.items) (fun _ u => P u) t := by
    unfold currentItems
    split_ifs
    · exact wp_read ht
    · exact wp_pure ht
  exact wp_bind_keep hcurrent (fun current u hu => hpublish _ _ u hu)

end Rules

/-- A program that keeps the quarantine, at every commit and at its end. -/
abbrev Keeps {α : Type} (m : TxM ExperimentDb BatchError α) (db : ExperimentDb) : Prop :=
  wp Quarantine m (fun _ t => Quarantine t) db

theorem Quarantine.advance (h : Quarantine db) (batch : Batch)
    (hplan : planOf db.items = planOf items) : Keeps (advanceSelection batch items) db := by
  refine wp_mono (wp_advanceSelection (P := fun t => Quarantine t ∧ planOf t.items = planOf items)
    ⟨h, hplan⟩ ?_) (fun _ h => h) (fun _ _ ht => ht.1)
  rintro key t ⟨ht, hitems⟩ changed t' hrun
  rcases freezeWindow_cases hrun with ⟨-, rfl⟩ | ⟨-, selected, ranking, oos, hstep⟩
  · exact ⟨ht, ht, hitems⟩
  · have hfrozen := ht.freeze hitems hstep
    exact ⟨hfrozen, hfrozen, hstep.evolves.items.trans hitems⟩

theorem Quarantine.publishStatus (h : Quarantine db) (batch : Batch) (status : String) :
    Keeps (publishStatus batch status) db := by
  have hstored := h.storeStatus status
  refine wp_publishStatus ⟨hstored, hstored⟩ (fun certificate t hrun => ?_)
  have ht : Quarantine t := by
    have hevolves := evolves_issueCertificate hrun
    unfold issueCertificate at hrun
    split at hrun
    · cases hrun
    · split at hrun
      · obtain ⟨-, rfl⟩ := ok_inj hrun
        exact hstored
      · split_ifs at hrun
        split at hrun
        · cases hrun
        · obtain ⟨-, rfl⟩ := ok_inj hrun
          exact hstored.keep hevolves hstored.items hstored.attempts hstored.runs
  exact ⟨ht, ht⟩

theorem Quarantine.refresh (h : Quarantine db) : Keeps refresh db :=
  wp_refresh (h.advance db.batch rfl) (fun _ _ _ ht => ht.publishStatus _ _)

theorem wp_detail {I P : ExperimentDb → Prop} (h : wp I Experiments.refresh (fun _ t => P t) db) :
    wp I detail (fun r t => P t ∧ ∀ snapshot, r = .ok snapshot → snapshot = (t.batch, t.items))
      db := by
  refine wp_bind (wp_mono h (fun _ h => h) ?_)
  rintro (e | _) t ht
  · exact ⟨ht, fun _ hsnapshot => by cases hsnapshot⟩
  · exact wp_read ⟨ht, fun _ hsnapshot => (Except.ok.inj hsnapshot).symm⟩

theorem Quarantine.reconcileBacktest (h : Quarantine db) (runId : String) :
    Keeps (reconcileBacktest runId) db := by
  refine wp_bind (wp_read ?_)
  cases hrun : db.backtest runId with
  | none => exact wp_pure h
  | some run =>
    dsimp only
    cases hitem : run.batchItemId with
    | none => exact wp_pure h
    | some itemId =>
      have hlicensed : Licensed db itemId := h.runs run (mem_of_find hrun) itemId hitem
      refine wp_bind (wp_tx (fun _ t hreconcile => ?_) (fun _ _ => h))
      have ht := h.reconcileItem hlicensed hreconcile
      have hpersisted := ht.persistOosEvaluation itemId run
      exact ⟨ht, wp_write hpersisted hpersisted⟩

theorem Quarantine.deliver (h : Quarantine db) (runId status : String) (error : Option String)
    (statistics : Statistics) : Keeps (deliver runId status error statistics) db := by
  have hwritten : Quarantine (Experiments.updateRun runId (fun run =>
      { run with status := status, error := error, statistics := statistics }) db) :=
    h.updateRun runId (fun _ _ hitem => Or.inl hitem)
  exact wp_bind (wp_write hwritten (hwritten.reconcileBacktest runId))

theorem Quarantine.dispatchBacktest (h : Quarantine db) (env : DispatchEnv) {item : BatchItem}
    (hlicensed : Licensed db item.id) : Keeps (dispatchBacktest env item) db := by
  have hadded : ∀ run : BacktestRun, run.batchItemId = none →
      Quarantine (Experiments.addRun run db) := fun _ hrun => h.addRun hrun
  unfold Experiments.dispatchBacktest
  cases env.createRun item.id with
  | error message =>
    refine wp_bind (wp_write (hadded _ (by rfl)) ?_)
    have hrecorded := (hadded { id := (env.failedRun item.id).1, taskId :=
      (env.failedRun item.id).2, status := "failed", error := some message }
      rfl).recordAttempt hlicensed (some (env.failedRun item.id).1)
        (some (env.failedRun item.id).2) .failed (some message)
    exact wp_write hrecorded hrecorded
  | ok created =>
    obtain ⟨runId, taskId⟩ := created
    have hlinked : Quarantine (Experiments.updateRun runId
        (fun run => { run with batchItemId := some item.id })
          (Experiments.addRun { id := runId, taskId := taskId, status := "created" } db)) := by
      refine (hadded _ rfl).updateRun runId (fun run itemId hitem => Or.inr ?_)
      rw [← Option.some.inj hitem]
      exact hlicensed
    refine wp_bind (wp_write (hadded _ (by rfl)) ?_)
    have hrecorded := hlinked.recordAttempt hlicensed (some runId) (some taskId) .queued none
    refine wp_bind (wp_write hrecorded ?_)
    cases env.publish item.id with
    | error message =>
      have hfailed := hrecorded.updateRun runId (f := fun run =>
        { run with status := "failed", error := some message }) (fun _ _ hitem => Or.inl hitem)
      exact wp_bind (wp_write hfailed (hfailed.reconcileBacktest runId))
    | ok _ =>
      have hqueued := hrecorded.updateRun runId (f := fun run => { run with status := "queued" })
        (fun _ _ hitem => Or.inl hitem)
      exact wp_write hqueued hqueued

theorem Quarantine.dispatchItem (h : Quarantine db) (env : DispatchEnv) (batch : Batch)
    (item : BatchItem) : Keeps (dispatchItem env batch item) db := by
  refine wp_bind (wp_tx (fun claimed t hrun => ?_) (fun _ _ => h))
  obtain ⟨ht, hlicensed⟩ := h.claimItem hrun
  refine ⟨ht, ?_⟩
  show Keeps (if claimed = true then _ else _) t
  split_ifs with hclaimed
  · unfold dispatchResearch
    cases env.publish item.id with
    | error message =>
      have hrecorded := ht.recordAttempt (hlicensed hclaimed) none none .failed (some message)
      exact wp_write hrecorded hrecorded
    | ok taskId =>
      have hrecorded := ht.recordAttempt (hlicensed hclaimed) none (some taskId) .queued none
      exact wp_write hrecorded hrecorded
  · exact ht.dispatchBacktest env (hlicensed hclaimed)
  · exact wp_pure ht

theorem Quarantine.dispatchWindow (h : Quarantine db) (env : DispatchEnv) :
    Keeps (dispatchWindow env) db := by
  refine wp_bind (wp_mono (wp_detail h.refresh) (fun _ h => h) ?_)
  rintro (e | ⟨batch, items⟩) t ⟨ht, -⟩
  · exact ht
  · show Keeps (if _ then _ else _) t
    split_ifs
    · exact wp_pure ht
    · refine wp_bind_keep (wp_forEach_keep Quarantine
        (fun item u hu => hu.dispatchItem env batch item) _ t ht) (fun _ u hu => ?_)
      exact hu.refresh

theorem Quarantine.cancelBacktest (h : Quarantine db) (runId : String) :
    Keeps (cancelBacktest runId) db := by
  refine wp_bind (wp_read ?_)
  cases db.backtest runId with
  | none => exact h
  | some run =>
    show Keeps (if runIsTerminal run.status = true then _ else _) db
    cases runIsTerminal run.status
    · have hcancelled : Quarantine (Experiments.updateRun runId (fun run =>
          { run with
            status := "cancelled"
            error := some "Cancellation requested by user." }) db) :=
        h.updateRun runId (fun _ _ hitem => Or.inl hitem)
      refine wp_bind (wp_write hcancelled (wp_bind (wp_attempt ?_)))
      exact wp_mono (hcancelled.reconcileBacktest runId) (fun _ h => h) (fun _ _ ht => wp_pure ht)
    · exact wp_pure h

theorem Quarantine.cancel (h : Quarantine db) : Keeps cancel db := by
  refine wp_bind (wp_mono (wp_detail h.refresh) (fun _ h => h) ?_)
  rintro (e | ⟨batch, items⟩) t ⟨ht, -⟩
  · exact ht
  · have hcancelled := ht.cancelItems
    refine wp_bind (wp_write hcancelled ?_)
    refine wp_bind_keep (wp_forEach_keep Quarantine
      (fun runId u hu => hu.cancelBacktest runId) _ _ hcancelled) (fun _ u hu => ?_)
    exact hu.refresh

theorem Quarantine.retryFailed (h : Quarantine db) (env : DispatchEnv) :
    Keeps (retryFailed env) db := by
  refine wp_bind (wp_mono (wp_detail h.refresh) (fun _ h => h) ?_)
  rintro (e | ⟨batch, items⟩) t ⟨ht, -⟩
  · exact ht
  · show Keeps (if _ then _ else if _ then _ else _) t
    split_ifs
    · have hrequeued : Quarantine (Experiments.requeueItems [.failed] t) := by
        refine ht.requeueItems (fun item hitem hstatus => ht.items item hitem ?_)
        rw [List.mem_singleton.mp hstatus]
        decide
      exact wp_bind (wp_write hrequeued (hrequeued.dispatchWindow env))
    · exact wp_fail ht
    · exact wp_fail ht

end Invariant

/-! ## A restart -/

def SameFlag (before after : ExperimentDb) : Prop :=
  after.batch.cancelRequested = before.batch.cancelRequested

theorem sameFlag_refresh : Within SameFlag refresh := by
  have hrefreshing : Refreshing SameFlag :=
    { refl := fun _ => rfl
      trans := fun _ _ _ h h' => h'.trans h
      freeze := fun hstep => congrArg Batch.cancelRequested hstep.batch
      storeStatus := fun _ _ => rfl
      walkForwardRun := fun _ _ => rfl }
  exact hrefreshing.refresh hrefreshing.within

variable {db : ExperimentDb}

theorem refresh_cancelled (hcancelled : db.batch.cancelRequested = true) :
    wp (fun _ => True) refresh (fun _ t => t.items = db.items ∧ t.events = db.events) db := by
  refine wp_bind (wp_read (wp_bind ?_))
  show wp _ (advanceSelection db.batch db.items) _ db
  unfold advanceSelection
  rw [if_pos (Or.inr hcancelled)]
  refine wp_pure (wp_bind (wp_pure (wp_bind (wp_write trivial ?_))))
  show wp _ (if _ then _ else _) _ _
  split_ifs
  · refine wp_bind (wp_tx (fun certificate t hrun => ⟨trivial, wp_pure ?_⟩)
      (fun _ _ => ⟨rfl, rfl⟩))
    obtain ⟨run, rfl⟩ := issueCertificate_rows hrun
    exact ⟨rfl, rfl⟩
  · exact wp_pure ⟨rfl, rfl⟩

/-- `restart_cancelled` finds only chosen ones among the out-of-sample items that
it starts again. -/
def RestartsChosen (db : ExperimentDb) : BatchAction → Prop
  | .restartCancelled _ => ∀ item ∈ db.items, item.status ∈ restartable → Chosen db item
  | _ => True

instance (db : ExperimentDb) (action : BatchAction) : Decidable (RestartsChosen db action) :=
  match action with
  | .restartCancelled _ =>
    inferInstanceAs (Decidable (∀ item ∈ db.items, item.status ∈ restartable → Chosen db item))
  | .refresh | .dispatchWindow _ | .deliver _ _ _ _ | .finishResearchItem _ _ _ | .cancel
  | .retryFailed _ => .isTrue trivial

theorem Quarantine.restartCancelled (h : Quarantine db) {env : DispatchEnv}
    (hchosen : RestartsChosen db (.restartCancelled env)) :
    Keeps (Experiments.restartCancelled env) db := by
  cases hflag : db.batch.cancelRequested with
  | false =>
    -- the call raises after its refresh
    refine wp_bind (wp_mono (wp_detail (P := fun t => Quarantine t ∧ SameFlag db t)
      (wp_and h.refresh (sameFlag_refresh db))) (fun _ h => h.1) ?_)
    rintro (e | ⟨batch, items⟩) t ⟨⟨ht, hsame⟩, hsnapshot⟩
    · exact ht
    · obtain ⟨rfl, rfl⟩ := Prod.mk.inj (hsnapshot _ rfl)
      show Keeps (if _ then _ else _) t
      have hopen : ¬ t.batch.cancelRequested = true := by
        rw [show t.batch.cancelRequested = db.batch.cancelRequested from hsame, hflag]
        decide
      rw [if_pos (Or.inl hopen)]
      exact wp_fail ht
  | true =>
    refine wp_bind (wp_mono (wp_detail
      (P := fun t => Quarantine t ∧ t.items = db.items ∧ t.events = db.events)
      (wp_and h.refresh (refresh_cancelled hflag))) (fun _ h => h.1) ?_)
    rintro (e | ⟨batch, items⟩) t ⟨⟨ht, hitems, hevents⟩, -⟩
    · exact ht
    · have hlicensed : ∀ item ∈ t.items, item.status ∈ restartable → Licensed t item.id := by
        intro item hitem hstatus other hother hid
        rw [ht.ids.eq hother hitem hid]
        rw [hitems] at hitem
        intro hphase key hkey
        unfold ExperimentDb.event
        rw [hevents]
        exact hchosen item hitem hstatus hphase key hkey
      have hrequeued := ht.requeueItems hlicensed
      show Keeps (if _ then _ else if _ then _ else _) t
      split_ifs
      · exact wp_fail ht
      · exact wp_bind (wp_write hrequeued (hrequeued.dispatchWindow env))
      · exact wp_fail ht

/-! ## Every call -/

theorem Quarantine.program (h : Quarantine db) (hkind : db.batch.kind ≠ "research")
    {action : BatchAction} (hallowed : (batchMachine.restrict RestartsChosen).allowed db action) :
    Keeps action.program db := by
  obtain ⟨hallowed, hchosen⟩ := hallowed
  cases action with
  | refresh => exact h.refresh
  | dispatchWindow env => exact h.dispatchWindow env
  | deliver runId status error statistics => exact h.deliver runId status error statistics
  | finishResearchItem itemId statistics error => exact absurd hallowed hkind
  | cancel => exact h.cancel
  | retryFailed env => exact h.retryFailed env
  | restartCancelled env => exact h.restartCancelled hchosen

theorem created_events {kind : String} {objective : Option String} {planned : List PlannedItem}
    (h : createBatch kind objective planned = .ok db) : db.events = [] := by
  unfold createBatch at h
  simp only at h
  split_ifs at h
  split at h
  · cases h
  · rw [← Except.ok.inj h]

theorem quarantine_created {kind : String} {objective : Option String} {planned : List PlannedItem}
    (h : createBatch kind objective planned = .ok db) : Quarantine db ∧ db.batch.kind = kind := by
  unfold createBatch at h
  simp only at h
  split_ifs at h
  split at h
  · cases h
  · have hdb := Except.ok.inj h
    subst hdb
    have hids : (planned.zipIdx.map newItem).map BatchItem.id = List.range' 0 planned.length := by
      rw [List.map_map]
      exact List.zipIdx_map_snd 0 planned
    have hunique : Unique BatchItem.id (planned.zipIdx.map newItem) := by
      unfold Tables.Unique
      rw [hids]
      exact List.nodup_range'
    refine ⟨⟨hunique, ?_, (fun _ h => by cases h), (fun _ h => by cases h)⟩, rfl⟩
    intro item hitem hstatus other hother hid hphase
    rw [hunique.eq hother hitem hid] at hphase
    obtain ⟨row, -, rfl⟩ := List.mem_map.mp hitem
    exfalso
    apply hstatus
    show (if row.1.phase = "oos" then ItemStatus.blockedSelection else .pending) ∈ unrun
    rw [if_pos (show row.1.phase = "oos" from hphase)]
    decide

/-- An out-of-sample item of a window was dispatched: it is being dispatched, or
it has an attempt. -/
def Dispatched (db : ExperimentDb) (key : WindowKey) (item : BatchItem) : Prop :=
  item ∈ db.items ∧ item.phase = "oos" ∧ item.window = some key ∧
    (item.status = .dispatching ∨ ∃ attempt ∈ db.attempts, attempt.itemId = item.id)

/-- A dispatched out-of-sample item is the one that the event of its window
selected.  The event was written from one of the states `before`, in which every
validation item of the window had succeeded, and a window has one candidate that
was dispatched at most. -/
structure Quarantined (before : List ExperimentDb) (db : ExperimentDb) : Prop where
  selected : ∀ key item, Dispatched db key item → ∃ event, db.event key = some event ∧
    event.selectedCandidate = item.candidate ∧ ∃ s ∈ before, FrozenFrom s event
  single : ∀ key a b, Dispatched db key a → Dispatched db key b → a.candidate = b.candidate

theorem Quarantine.quarantined {before : List ExperimentDb} (h : Quarantine db)
    (hfrozen : ∀ event ∈ db.events, ∃ s ∈ before, FrozenFrom s event) : Quarantined before db := by
  have hselected : ∀ key item, Dispatched db key item → ∃ event, db.event key = some event ∧
      event.selectedCandidate = item.candidate := by
    rintro key item ⟨hmem, hphase, hwindow, hrun⟩
    have hlicensed : Licensed db item.id := by
      rcases hrun with hstatus | ⟨attempt, hattempt, hid⟩
      · apply h.items item hmem
        rw [hstatus]
        decide
      · rw [← hid]
        exact h.attempts attempt hattempt
    exact hlicensed item hmem rfl hphase key hwindow
  refine ⟨fun key item hitem => ?_, fun key a b ha hb => ?_⟩
  · obtain ⟨event, hevent, hcandidate⟩ := hselected key item hitem
    exact ⟨event, hevent, hcandidate, hfrozen event (mem_of_find hevent)⟩
  · obtain ⟨event, hevent, hcandidate⟩ := hselected key a ha
    obtain ⟨event', hevent', hcandidate'⟩ := hselected key b hb
    rw [hevent] at hevent'
    rw [← hcandidate, ← hcandidate', Option.some.inj hevent']

/-! ## Where the events come from -/

def SameEvents (before after : ExperimentDb) : Prop :=
  ∀ event, event ∈ after.events → event ∈ before.events

theorem publishing_sameEvents : Publishing SameEvents where
  refl := fun _ _ => id
  trans := fun _ _ _ h h' event hevent => h event (h' event hevent)
  storeStatus := fun _ _ _ => id
  walkForwardRun := fun _ _ _ => id

theorem updating_sameEvents : Updating SameEvents where
  refl := fun _ _ => id
  trans := fun _ _ _ h h' event hevent => h event (h' event hevent)
  updateItem := fun _ _ _ _ _ _ => id
  attempts := fun _ _ _ => id
  runs := fun _ _ _ => id
  persistOosEvaluation := by
    intro itemId run db event hevent
    unfold persistOosEvaluation at hevent
    split at hevent <;> exact hevent
  cancelItems := fun _ _ => id
  requeueItems := fun _ _ _ => id

/-- A refresh writes an event from the items that it read first. -/
theorem sourced_refresh :
    Sourced (fun (db : ExperimentDb) event => event ∈ db.events) FrozenFrom refresh := by
  have htrue : Refreshing (fun _ _ => True) :=
    ⟨⟨fun _ => trivial, fun _ _ _ _ _ => trivial, fun _ _ => trivial, fun _ _ => trivial⟩,
      fun _ => trivial⟩
  refine sourced_of_start (htrue.refresh composes_settles) ?_
  intro db
  let I := fun t : ExperimentDb => ∀ event, event ∈ t.events →
    event ∈ db.events ∨ FrozenFrom db event
  have hadvance : wp I (advanceSelection db.batch db.items) (fun _ t => I t) db := by
    refine wp_advanceSelection (fun _ => Or.inl) (fun key t ht changed t' hrun => ?_)
    have ht' : I t' := by
      rcases freezeWindow_cases hrun with ⟨-, rfl⟩ | ⟨-, selected, ranking, oos, hstep⟩
      · exact ht
      · intro event hevent
        rw [hstep.events] at hevent
        rcases List.mem_append.mp hevent with hold | hnew
        · exact ht event hold
        · rw [List.mem_singleton.mp hnew]
          exact Or.inr ⟨(rankValidation_some hstep.ranked).2.1, selected, ranking, hstep.head,
            hstep.ranked, rfl⟩
    exact ⟨ht', ht'⟩
  have hpublish : ∀ batch status t, I t → wp I (publishStatus batch status) (fun _ u => I u) t := by
    intro batch status t ht
    have hsame := publishing_sameEvents.publishStatus publishing_sameEvents.within batch status t
    exact wp_mono hsame (fun u hu event hevent => ht event (hu event hevent))
      (fun _ u hu event hevent => ht event (hu event hevent))
  exact (wp_refresh hadvance hpublish).1

theorem sourced_program (action : BatchAction) :
    Sourced (fun (db : ExperimentDb) event => event ∈ db.events) FrozenFrom action.program :=
  updating_sameEvents.program composes_sourced sourced_refresh action

/-! ## Every run -/

/-- A run of calls that all return or raise. -/
theorem visits_after (machine : Machine ExperimentDb BatchAction)
    (hnext : ∀ db action, machine.next db action = (action.program db).state)
    {start : ExperimentDb} : ∀ (actions : List BatchAction) {before : List ExperimentDb}
      {db : ExperimentDb}, Visits machine.allowed BatchAction.program start before db →
        machine.Accepts db actions →
          ∃ passed, Visits machine.allowed BatchAction.program start passed
            (machine.after db actions) := by
  intro actions
  induction actions with
  | nil => exact fun hrun _ => ⟨_, hrun⟩
  | cons action actions ih =>
    intro before db hrun haccepts
    obtain ⟨passed, left, hsplit⟩ := List.append_of_mem ((sourced_program action).settles db)
    have hcall := hrun.call haccepts.1 hsplit
    rw [← hnext] at hcall
    exact ih hcall haccepts.2

/-- In every run whose restarts find chosen items only, every state that a call
commits keeps the out-of-sample items in quarantine. -/
theorem quarantined_of_restartsChosen {kind : String} (hkind : kind ≠ "research")
    {objective : Option String} {planned : List PlannedItem} {start : ExperimentDb}
    (hcreate : createBatch kind objective planned = .ok start) {before : List ExperimentDb}
    {t : ExperimentDb} (hrun : Visits (batchMachine.restrict RestartsChosen).allowed
      BatchAction.program start before t) : Quarantined before t := by
  have hinvariant : (Quarantine t ∧ t.batch.kind ≠ "research") ∧
      ∀ event ∈ t.events, ∃ s ∈ before, FrozenFrom s event := by
    induction hrun with
    | start =>
      obtain ⟨hstart, hstartKind⟩ := quarantine_created hcreate
      refine ⟨⟨hstart, hstartKind ▸ hkind⟩, fun event hevent => ?_⟩
      rw [created_events hcreate] at hevent
      cases hevent
    | @call before s action passed t left _ hallowed ht ih =>
      obtain ⟨⟨hs, hsKind⟩, hevents⟩ := ih
      have hmem : t ∈ crashStates (action.program) s := by
        rw [ht]
        simp
      refine ⟨⟨Leaves.of_wp (Or.inl hmem) hs (hs.program hsKind hallowed), ?_⟩, ?_⟩
      · have hevolves : Evolves s t :=
          Leaves.of_wp (Or.inl hmem) (.refl s) (within_program action s)
        rw [hevolves.kind]
        exact hsKind
      · intro event hevent
        rcases (sourced_program action).source s ht event hevent with hold | ⟨u, hu, hfrozen⟩
        · obtain ⟨u, hu, hfrozen⟩ := hevents event hold
          exact ⟨u, List.mem_append_left _ hu, hfrozen⟩
        · exact ⟨u, List.mem_append_right _ hu, hfrozen⟩
  exact hinvariant.1.1.quarantined hinvariant.2

/-! ## A batch that is cancelled and started again -/

def twoCandidates : List PlannedItem :=
  expandWalkForward ["project"] ["510300"] [1]
    (fun _ => [("window=20", [("window", "20")]), ("window=60", [("window", "60")])])

/-- The batch of these items, as it is created. -/
def twoCandidateBatch : ExperimentDb :=
  match createBatch "backtest" none twoCandidates with
  | .ok db => db
  | .error _ => { batch := { kind := "", mode := "" }, items := [] }

/-- A backtest service and a broker that accept every item. -/
def acceptingEnv : DispatchEnv where
  window := 16
  createRun := fun itemId => .ok (s!"run-{itemId}", s!"task-{itemId}")
  failedRun := fun itemId => (s!"run-{itemId}", s!"task-{itemId}")
  publish := fun itemId => .ok s!"celery-{itemId}"

/-- The runs of the train and validation items succeed. -/
def validatedBatch : List BatchAction :=
  [.dispatchWindow acceptingEnv,
    .deliver "run-0" "success" none [("Sharpe Ratio", .text "1.5")],
    .deliver "run-1" "success" none [("Sharpe Ratio", .text "0.5")],
    .deliver "run-2" "success" none [("Sharpe Ratio", .text "1.2")],
    .deliver "run-3" "success" none [("Sharpe Ratio", .text "0.7")]]

theorem quarantined_validatedBatch :
    ∃ before, Visits (batchMachine.restrict RestartsChosen).allowed BatchAction.program
        twoCandidateBatch before (batchMachine.after twoCandidateBatch
          (validatedBatch ++ [.dispatchWindow acceptingEnv])) ∧
      Quarantined before (batchMachine.after twoCandidateBatch
        (validatedBatch ++ [.dispatchWindow acceptingEnv])) := by
  obtain ⟨before, hrun⟩ := visits_after (batchMachine.restrict RestartsChosen) (fun _ _ => rfl)
    (validatedBatch ++ [.dispatchWindow acceptingEnv]) .start
    (show (batchMachine.restrict RestartsChosen).Accepts twoCandidateBatch _ by decide +kernel)
  exact ⟨before, hrun, quarantined_of_restartsChosen (by decide)
    (show createBatch "backtest" none twoCandidates = .ok twoCandidateBatch by decide +kernel)
    hrun⟩

/-- A batch that is cancelled at once and started again dispatches both
out-of-sample items of a window that has no selection. -/
theorem restarted_without_selection :
    ¬ ∀ (kind : String) (objective : Option String) (planned : List PlannedItem)
      (start : ExperimentDb) (before : List ExperimentDb) (t : ExperimentDb),
        kind ≠ "research" → createBatch kind objective planned = .ok start →
          Visits batchMachine.allowed BatchAction.program start before t →
            Quarantined before t := by
  intro h
  obtain ⟨before, hrun⟩ := visits_after batchMachine (fun _ _ => rfl)
    [.cancel, .restartCancelled acceptingEnv] .start
    (show batchMachine.Accepts twoCandidateBatch _ by decide +kernel)
  have hquarantined := h "backtest" none twoCandidates twoCandidateBatch before _ (by decide)
    (by decide +kernel) hrun
  have hitem : ∃ item ∈ (batchMachine.after twoCandidateBatch
      [.cancel, .restartCancelled acceptingEnv]).items,
      item.phase = "oos" ∧ item.window = some ⟨"project", "510300", 1⟩ ∧
        (item.status = .dispatching ∨ ∃ attempt ∈ (batchMachine.after twoCandidateBatch
          [.cancel, .restartCancelled acceptingEnv]).attempts, attempt.itemId = item.id) := by
    decide +kernel
  obtain ⟨item, hmem, hphase, hwindow, hrun⟩ := hitem
  obtain ⟨event, hevent, -⟩ := hquarantined.selected ⟨"project", "510300", 1⟩ item
    ⟨hmem, hphase, hwindow, hrun⟩
  have hnone : (batchMachine.after twoCandidateBatch
      [.cancel, .restartCancelled acceptingEnv]).event ⟨"project", "510300", 1⟩ = none := by
    decide +kernel
  cases hevent.symm.trans hnone

end LocalPlatform.Experiments
