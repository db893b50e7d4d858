import LocalPlatform.Experiments.Steps
import LocalPlatform.Experiments.Noninterference

/-!
# The evidence of a walk-forward batch

A certificate reads the selection event and the out-of-sample evaluation of every
window.  `Evidence` relates these rows to the status of the items.

* An item that is blocked has a window without an event, and one that a selection
  skipped has a window whose event names another candidate.
* A window with an event has an evaluation of the item that was released, and the
  evaluation is complete when that item has succeeded.
* `Evidence.step` says that every step keeps this, if it starts again chosen items
  only and no run reports the skip of a selection.
-/

namespace LocalPlatform.Experiments

open Paper Transaction Transaction.TxM Machines Tables

/-! ## The invariant -/

/-- The error of an item that a selection skipped. -/
def notSelected : String := "not_selected_by_validation"

def SelectionSkipped (item : BatchItem) : Prop :=
  item.status = .skipped ∧ item.error = some notSelected

/-- An evaluation with all that a certificate reads. -/
structure Completed (evaluation : OosEvaluation) : Prop where
  status : evaluation.status = "COMPLETED"
  run : ∃ runId, evaluation.oosRunId = some runId ∧ runId ≠ ""
  digest : ∃ digest, evaluation.resultDigest = some digest

structure Evidence (db : ExperimentDb) : Prop where
  quarantine : Quarantine db
  research : db.batch.kind = "research" → ∀ item ∈ db.items, item.phase ≠ "oos"
  blocked : ∀ item ∈ db.items, item.status = .blockedSelection →
    db.batch.mode = "walk_forward" ∧ db.batch.cancelRequested = false ∧ item.phase = "oos" ∧
      ∃ key, item.window = some key ∧ db.event key = none
  gated : (∃ item ∈ db.items, item.status = .blockedSelection) → ∀ item ∈ db.items,
    item.phase = "oos" → ∀ key, item.window = some key → db.event key = none →
      item.status = .blockedSelection
  skipped : ∀ item ∈ db.items, SelectionSkipped item → ∃ key event, item.window = some key ∧
    db.event key = some event ∧ item.candidate ≠ event.selectedCandidate
  evaluated : ∀ key event, db.event key = some event → ∃ evaluation,
    db.evaluation key = some evaluation ∧ ∃ item ∈ db.items, item.id = evaluation.oosItemId ∧
      item.phase = "oos" ∧ item.window = some key ∧ item.candidate = event.selectedCandidate
  evaluations : Unique OosEvaluation.window db.evaluations
  owned : ∀ evaluation ∈ db.evaluations, (db.event evaluation.window).isSome = true ∧
    ∀ item ∈ db.items, item.id = evaluation.oosItemId →
      item.phase = "oos" ∧ item.window = some evaluation.window
  settled : ∀ evaluation ∈ db.evaluations, ∀ item ∈ db.items, item.id = evaluation.oosItemId →
    item.status = .success → Completed evaluation
  named : ∀ run ∈ db.runs, ∀ itemId ∈ run.batchItemId, run.id ≠ ""
  lineage : db.batch.mode = "walk_forward" → ∃ run, db.walkForwardRun = some run ∧
    run.lineageStatus = "complete"

/-- An update of an item that neither blocks nor skips it for a selection, and
reports no out-of-sample success. -/
structure ItemLater (before after : BatchItem) : Prop where
  plan : after.plan = before.plan
  blocked : after.status = .blockedSelection → before.status = .blockedSelection
  skipped : SelectionSkipped after → SelectionSkipped before
  succeeded : after.phase = "oos" → after.status = .success → before.status = .success

theorem ItemLater.refl (item : BatchItem) : ItemLater item item := ⟨rfl, id, id, fun _ => id⟩

theorem ItemLater.of_status (status : ItemStatus) {before after : BatchItem}
    (hplan : after.plan = before.plan) (hstatus : after.status = status)
    (hquiet : status ∉ [.blockedSelection, .skipped, .success]) : ItemLater before after := by
  subst hstatus
  refine ⟨hplan, fun h => ?_, fun h => ?_, fun _ h => ?_⟩
  · exact absurd (by rw [h]; decide) hquiet
  · exact absurd (by rw [h.1]; decide) hquiet
  · exact absurd (by rw [h]; decide) hquiet

/-- A transaction that leaves the events and the evaluations. -/
structure Quiet (db db' : ExperimentDb) : Prop where
  evolves : Evolves db db'
  events : db'.events = db.events
  evaluations : db'.evaluations = db.evaluations
  items : ∀ after ∈ db'.items, ∃ before ∈ db.items, ItemLater before after ∧
    (before.status = .blockedSelection → (∃ item ∈ db'.items, item.status = .blockedSelection) →
      after.status = .blockedSelection)
  flag : (∃ item ∈ db'.items, item.status = .blockedSelection) →
    db.batch.cancelRequested = false → db'.batch.cancelRequested = false
  lineage : db'.walkForwardRun.map WalkForwardRun.lineageStatus =
    db.walkForwardRun.map WalkForwardRun.lineageStatus

section Invariant

variable {db db' : ExperimentDb}

theorem lineage_of_map (hmap : db'.walkForwardRun.map WalkForwardRun.lineageStatus =
      db.walkForwardRun.map WalkForwardRun.lineageStatus) {run : WalkForwardRun}
    (hrun : db.walkForwardRun = some run) (hstatus : run.lineageStatus = "complete") :
    ∃ run', db'.walkForwardRun = some run' ∧ run'.lineageStatus = "complete" := by
  rw [hrun, Option.map_some] at hmap
  obtain ⟨run', hrun', hsame⟩ := Option.map_eq_some_iff.mp hmap
  exact ⟨run', hrun', hsame.trans hstatus⟩

/-- A quiet transaction keeps the evidence. -/
theorem Evidence.quiet (h : Evidence db) (hquiet : Quiet db db') (hquarantine : Quarantine db')
    (hnamed : ∀ run ∈ db'.runs, ∀ itemId ∈ run.batchItemId, run.id ≠ "") : Evidence db' := by
  have hevent : ∀ key, db'.event key = db.event key := by
    intro key
    unfold ExperimentDb.event
    rw [hquiet.events]
  have hevaluation : ∀ key, db'.evaluation key = db.evaluation key := by
    intro key
    unfold ExperimentDb.evaluation
    rw [hquiet.evaluations]
  refine ⟨hquarantine, ?_, ?_, ?_, ?_, ?_, ?_, ?_, ?_, hnamed, ?_⟩
  · intro hkind item hitem
    obtain ⟨before, hbefore, hlater, -⟩ := hquiet.items item hitem
    rw [plan_phase hlater.plan]
    exact h.research (hquiet.evolves.kind.symm.trans hkind) before hbefore
  · intro item hitem hstatus
    obtain ⟨before, hbefore, hlater, -⟩ := hquiet.items item hitem
    obtain ⟨hmode, hflag, hphase, key, hwindow, hnone⟩ :=
      h.blocked before hbefore (hlater.blocked hstatus)
    refine ⟨hquiet.evolves.mode.trans hmode, hquiet.flag ⟨item, hitem, hstatus⟩ hflag,
      (plan_phase hlater.plan).trans hphase, key, (plan_window hlater.plan).trans hwindow, ?_⟩
    rw [hevent]
    exact hnone
  · rintro ⟨blocked, hblocked, hstatus⟩ item hitem hphase key hwindow hnone
    obtain ⟨old, hold, hlater, -⟩ := hquiet.items blocked hblocked
    obtain ⟨before, hbefore, hlater', hkept⟩ := hquiet.items item hitem
    refine hkept ?_ ⟨blocked, hblocked, hstatus⟩
    rw [hevent] at hnone
    exact h.gated ⟨old, hold, hlater.blocked hstatus⟩ before hbefore
      ((plan_phase hlater'.plan).symm.trans hphase) key
      ((plan_window hlater'.plan).symm.trans hwindow) hnone
  · intro item hitem hskipped
    obtain ⟨before, hbefore, hlater, -⟩ := hquiet.items item hitem
    obtain ⟨key, event, hwindow, hsome, hother⟩ :=
      h.skipped before hbefore (hlater.skipped hskipped)
    refine ⟨key, event, (plan_window hlater.plan).trans hwindow, by rw [hevent]; exact hsome, ?_⟩
    rw [plan_candidate hlater.plan]
    exact hother
  · intro key event hsome
    rw [hevent] at hsome
    obtain ⟨evaluation, hfound, item, hitem, hid, hphase, hwindow, hcandidate⟩ :=
      h.evaluated key event hsome
    obtain ⟨after, hafter, hplan⟩ := mem_of_planOf hquiet.evolves.items.symm hitem
    refine ⟨evaluation, by rw [hevaluation]; exact hfound, after, hafter,
      (plan_id hplan).trans hid, (plan_phase hplan).trans hphase,
      (plan_window hplan).trans hwindow, (plan_candidate hplan).trans hcandidate⟩
  · rw [hquiet.evaluations]
    exact h.evaluations
  · intro evaluation hmem
    rw [hquiet.evaluations] at hmem
    obtain ⟨hsome, hitems⟩ := h.owned evaluation hmem
    refine ⟨by rw [hevent]; exact hsome, fun item hitem hid => ?_⟩
    obtain ⟨before, hbefore, hlater, -⟩ := hquiet.items item hitem
    rw [plan_phase hlater.plan, plan_window hlater.plan]
    exact hitems before hbefore ((plan_id hlater.plan).symm.trans hid)
  · intro evaluation hmem item hitem hid hstatus
    rw [hquiet.evaluations] at hmem
    obtain ⟨before, hbefore, hlater, -⟩ := hquiet.items item hitem
    have hbeforeId : before.id = evaluation.oosItemId := (plan_id hlater.plan).symm.trans hid
    have hphase := ((h.owned evaluation hmem).2 before hbefore hbeforeId).1
    exact h.settled evaluation hmem before hbefore hbeforeId
      (hlater.succeeded ((plan_phase hlater.plan).trans hphase) hstatus)
  · intro hmode
    obtain ⟨run, hrun, hstatus⟩ := h.lineage (hquiet.evolves.mode.symm.trans hmode)
    exact lineage_of_map hquiet.lineage hrun hstatus

theorem quiet_of_items (hevolves : Evolves db db') (hevents : db'.events = db.events)
    (hevaluations : db'.evaluations = db.evaluations) (hitems : db'.items = db.items)
    (hflag : db'.batch.cancelRequested = db.batch.cancelRequested)
    (hlineage : db'.walkForwardRun.map WalkForwardRun.lineageStatus =
      db.walkForwardRun.map WalkForwardRun.lineageStatus) : Quiet db db' where
  evolves := hevolves
  events := hevents
  evaluations := hevaluations
  items := by
    rw [hitems]
    exact fun item hitem => ⟨item, hitem, .refl item, fun hblocked _ => hblocked⟩
  flag := fun _ h => hflag.trans h
  lineage := hlineage

theorem quiet_updateItem {itemId : Nat} {f : BatchItem → BatchItem}
    (hevolves : Evolves db db') (hevents : db'.events = db.events)
    (hevaluations : db'.evaluations = db.evaluations)
    (hitems : db'.items = (updateItem itemId f db).items) (hbatch : db'.batch = db.batch)
    (hlineage : db'.walkForwardRun = db.walkForwardRun)
    (hf : ∀ item ∈ db.items, item.id = itemId → ItemLater item (f item))
    (hopen : ∀ item ∈ db.items, item.id = itemId → item.status ≠ .blockedSelection) :
    Quiet db db' where
  evolves := hevolves
  events := hevents
  evaluations := hevaluations
  items := by
    rw [hitems]
    intro after hafter
    obtain ⟨before, hbefore, rfl⟩ := List.mem_map.mp hafter
    refine ⟨before, hbefore, ?_⟩
    split_ifs with hid
    · exact ⟨hf before hbefore hid, fun hblocked _ => absurd hblocked (hopen before hbefore hid)⟩
    · exact ⟨.refl before, fun hblocked _ => hblocked⟩
  flag := fun _ h => by
    rw [hbatch]
    exact h
  lineage := by rw [hlineage]

end Invariant

/-! ## Quiet transactions -/

section Transactions

variable {db db' : ExperimentDb}

theorem Evidence.storeStatus (h : Evidence db) (status : String) :
    Evidence (storeStatus status db) := by
  refine h.quiet (quiet_of_items (evolves_storeStatus status db) rfl rfl rfl rfl ?_)
    (h.quarantine.storeStatus status) h.named
  show Option.map _ (if status ∈ finishedStatuses then _ else _) = _
  by_cases hfinished : status ∈ finishedStatuses
  · rw [if_pos hfinished, Option.map_map]
    rfl
  · rw [if_neg hfinished]

theorem Evidence.issueCertificate (h : Evidence db) {certificate : List CertifiedWindow}
    (hrun : Experiments.issueCertificate db = .ok (certificate, db')) : Evidence db' := by
  have hevolves := evolves_issueCertificate hrun
  unfold Experiments.issueCertificate at hrun
  split at hrun
  · cases hrun
  · rename_i run hrow
    split at hrun
    · obtain ⟨-, rfl⟩ := ok_inj hrun
      exact h
    · split_ifs at hrun
      split at hrun
      · cases hrun
      · obtain ⟨-, rfl⟩ := ok_inj hrun
        refine h.quiet (quiet_of_items hevolves rfl rfl rfl rfl (by rw [hrow]; rfl))
          (h.quarantine.keep hevolves h.quarantine.items h.quarantine.attempts
            h.quarantine.runs) h.named

theorem Evidence.open_of_licensed (h : Evidence db) {itemId : Nat}
    (hlicensed : Licensed db itemId) :
    ∀ item ∈ db.items, item.id = itemId → item.status ≠ .blockedSelection := by
  intro item hitem hid hblocked
  obtain ⟨-, -, hphase, key, hwindow, hnone⟩ := h.blocked item hitem hblocked
  obtain ⟨event, hevent, -⟩ := hlicensed item hitem hid hphase key hwindow
  rw [Option.mem_def.mp hevent] at hnone
  cases hnone

theorem Evidence.claimItem (h : Evidence db) {itemId : Nat} {claimed : Bool}
    (hrun : Experiments.claimItem itemId db = .ok (claimed, db')) : Evidence db' := by
  have hevolves := evolves_claimItem hrun
  have hquarantine := (h.quarantine.claimItem hrun).1
  unfold Experiments.claimItem at hrun
  split at hrun
  · obtain ⟨-, rfl⟩ := ok_inj hrun
    exact h
  · rename_i found hfound
    split_ifs at hrun with hpending
    · obtain ⟨-, rfl⟩ := ok_inj hrun
      exact h
    · obtain ⟨-, rfl⟩ := ok_inj hrun
      refine h.quiet (quiet_updateItem hevolves rfl rfl rfl rfl rfl
        (fun item _ _ => .of_status .dispatching rfl rfl (by decide)) ?_) hquarantine h.named
      intro item hitem hid hblocked
      have hsame : item = found :=
        h.quarantine.ids.eq hitem (mem_of_find hfound) (hid.trans (find_key hfound).symm)
      rw [← hsame, hblocked] at hpending
      exact hpending (by decide)

theorem Evidence.recordAttempt (h : Evidence db) {item : BatchItem}
    (hlicensed : Licensed db item.id) (relatedId taskId : Option String) {status : ItemStatus}
    (hstatus : status ∉ [.blockedSelection, .skipped, .success]) (error : Option String) :
    Evidence (recordAttempt item relatedId taskId status error db) :=
  h.quiet (quiet_updateItem (evolves_recordAttempt item _ _ _ _ db) rfl rfl rfl rfl rfl
    (fun _ _ _ => .of_status status rfl rfl hstatus) (h.open_of_licensed hlicensed))
    (h.quarantine.recordAttempt hlicensed relatedId taskId status error) h.named

theorem Evidence.updateRun (h : Evidence db) (runId : String) {f : BacktestRun → BacktestRun}
    (hlicensed : ∀ run itemId, (f run).batchItemId = some itemId →
      run.batchItemId = some itemId ∨ Licensed db itemId)
    (hid : ∀ run, (f run).id = run.id)
    (hnamed : ∀ run, (f run).batchItemId ≠ none → run.batchItemId ≠ none ∨ run.id ≠ "" ∨
      run.id ≠ runId) :
    Evidence (updateRun runId f db) := by
  refine h.quiet (quiet_of_items (evolves_updateRun runId f db) rfl rfl rfl rfl rfl)
    (h.quarantine.updateRun runId hlicensed) ?_
  intro run hrun itemId hitem
  obtain ⟨old, hold, rfl⟩ := List.mem_map.mp hrun
  split_ifs at hitem ⊢ with hmatch
  · rw [hid]
    rcases hnamed old (by rw [hitem]; exact Option.some_ne_none itemId) with hlinked | hname | hother
    · obtain ⟨oldItem, holdItem⟩ := Option.ne_none_iff_exists'.mp hlinked
      exact h.named old hold oldItem holdItem
    · exact hname
    · exact absurd hmatch hother
  · exact h.named old hold itemId hitem

theorem Evidence.addRun (h : Evidence db) {run : BacktestRun} (hrun : run.batchItemId = none) :
    Evidence (addRun run db) := by
  refine h.quiet (quiet_of_items (evolves_addRun run db) rfl rfl rfl rfl rfl)
    (h.quarantine.addRun hrun) ?_
  intro row hrow itemId hitem
  rcases List.mem_append.mp hrow with hold | hnew
  · exact h.named row hold itemId hitem
  · rw [List.mem_singleton.mp hnew, hrun] at hitem
    cases hitem

theorem Evidence.cancelItems (h : Evidence db) : Evidence (cancelItems db) := by
  have hitem : ∀ item : BatchItem, ItemLater item
      (if item.status ∈ cancellable then { item with status := .cancelled } else item) := by
    intro item
    split_ifs
    · exact .of_status .cancelled rfl rfl (by decide)
    · exact .refl item
  -- a blocked item is one of those that are cancelled
  have hnone : ¬ ∃ item ∈ (Experiments.cancelItems db).items, item.status = .blockedSelection := by
    rintro ⟨after, hafter, hblocked⟩
    obtain ⟨before, hbefore, rfl⟩ := List.mem_map.mp hafter
    have hstatus := (hitem before).blocked hblocked
    rw [if_pos (by rw [hstatus]; decide)] at hblocked
    cases hblocked
  refine h.quiet ⟨evolves_cancelItems db, rfl, rfl, ?_, ?_, rfl⟩ h.quarantine.cancelItems h.named
  · intro after hafter
    obtain ⟨before, hbefore, rfl⟩ := List.mem_map.mp hafter
    exact ⟨before, hbefore, hitem before, fun _ hblocked => absurd hblocked hnone⟩
  · exact fun hblocked => absurd hblocked hnone

theorem Evidence.requeueItems (h : Evidence db) {statuses : List ItemStatus}
    (hstatuses : .blockedSelection ∉ statuses)
    (hchosen : ∀ item ∈ db.items, item.status ∈ statuses → Licensed db item.id) :
    Evidence (requeueItems statuses db) := by
  refine h.quiet ⟨evolves_requeueItems statuses db, rfl, rfl, ?_, fun _ _ => rfl, rfl⟩
    (h.quarantine.requeueItems hchosen) h.named
  intro after hafter
  obtain ⟨before, hbefore, rfl⟩ := List.mem_map.mp hafter
  refine ⟨before, hbefore, ?_⟩
  split_ifs with hmem
  · refine ⟨.of_status .pending rfl rfl (by decide), fun hblocked _ => ?_⟩
    rw [hblocked] at hmem
    exact absurd hmem hstatuses
  · exact ⟨.refl before, fun hblocked _ => hblocked⟩

theorem Evidence.licensed_of_research (h : Evidence db) (hkind : db.batch.kind = "research")
    (itemId : Nat) : Licensed db itemId :=
  fun item hitem _ hphase => absurd hphase (h.research hkind item hitem)

theorem Evidence.finishItem (h : Evidence db) (hkind : db.batch.kind = "research") (itemId : Nat)
    (statistics : Statistics) (error : Option String) :
    wp (fun _ => True) (finishItem itemId statistics error) (fun _ t => Evidence t) db := by
  have hlicensed := h.licensed_of_research hkind itemId
  have hstatus : ∀ item ∈ db.items, item.id = itemId → ItemLater item
      { item with
        status := if error.any (· ≠ "") then .failed else .success
        statistics := statistics
        error := error } := by
    intro item hitem _
    refine ⟨rfl, fun hblocked => ?_, fun hskipped => ?_, fun hphase _ => ?_⟩
    · have hcase : (if error.any (· ≠ "") then ItemStatus.failed else .success) =
          .blockedSelection := hblocked
      split_ifs at hcase
    · have hcase : (if error.any (· ≠ "") then ItemStatus.failed else .success) = .skipped :=
        hskipped.1
      split_ifs at hcase
    · exact absurd hphase (h.research hkind item hitem)
  refine wp_tx (fun u t hrun => ⟨trivial, ?_⟩) (fun e hrun => ?_)
  · simp only at hrun
    split at hrun
    · obtain ⟨-, rfl⟩ := ok_inj hrun
      have hevolves := evolves_updateItem itemId (f := fun item =>
        { item with
          status := if error.any (· ≠ "") then .failed else .success
          statistics := statistics
          error := error }) (fun _ => rfl) db
      exact h.quiet (quiet_updateItem hevolves rfl rfl rfl rfl rfl hstatus
        (h.open_of_licensed hlicensed))
        (h.quarantine.keep hevolves (h.quarantine.updateItem hlicensed (fun _ => rfl))
          h.quarantine.attempts h.quarantine.runs) h.named
    · obtain ⟨-, rfl⟩ := ok_inj hrun
      have hevolves := (evolves_updateItem itemId (f := fun item =>
        { item with
          status := if error.any (· ≠ "") then .failed else .success
          statistics := statistics
          error := error }) (fun _ => rfl) db)
      refine h.quiet (quiet_updateItem (hevolves.trans (evolves_attempts _ _)) rfl rfl rfl rfl rfl
        hstatus (h.open_of_licensed hlicensed)) ?_ h.named
      refine h.quarantine.keep (hevolves.trans (evolves_attempts _ _))
        (h.quarantine.updateItem hlicensed (fun _ => rfl)) ?_ h.quarantine.runs
      intro attempt hattempt
      obtain ⟨old, hold, rfl⟩ := List.mem_map.mp hattempt
      split_ifs <;> exact h.quarantine.attempts old hold
  · simp only at hrun
    split at hrun <;> cases hrun

end Transactions

/-! ## The transaction of a window -/

section Freeze

variable {objective : Objective} {items : List BatchItem} {key : WindowKey}
  {selected : RankingRow} {ranking : List RankingRow} {oos : BatchItem} {db db' : ExperimentDb}

theorem FreezeStep.event_eq (h : FreezeStep objective items key selected ranking oos db db')
    (other : WindowKey) : db'.event other =
      if other = key then some (selectionEvent objective key selected ranking)
      else db.event other := by
  have hfresh : Tables.find SelectionEvent.window db.events
      (selectionEvent objective key selected ranking).window = none := h.unfrozen
  unfold ExperimentDb.event
  rw [h.events, find_append_singleton hfresh]
  rfl

theorem releaseItem_cases (hids : Unique BatchItem.id items)
    {row planned : BatchItem} (hplanned : planned ∈ items) (hplan : planned.plan = row.plan) :
    (releaseItem selected.candidateKey (phaseItems items key "oos") row = row ∧
        (row.status = .blockedSelection → row.phase = "oos" → row.window ≠ some key)) ∨
      (row.status = .blockedSelection ∧ row.phase = "oos" ∧ row.window = some key ∧
        (row.candidate = selected.candidateKey ∧
            releaseItem selected.candidateKey (phaseItems items key "oos") row =
              { row with status := .pending, error := none } ∨
          row.candidate ≠ selected.candidateKey ∧
            releaseItem selected.candidateKey (phaseItems items key "oos") row =
              { row with status := .skipped, error := some notSelected })) := by
  unfold releaseItem
  split
  · rename_i hnone
    refine Or.inl ⟨rfl, fun _ hphase hwindow => ?_⟩
    have hmem : planned ∈ phaseItems items key "oos" := mem_phaseItems.mpr
      ⟨hplanned, (plan_window hplan).trans hwindow, (plan_phase hplan).trans hphase⟩
    have hother := List.find?_eq_none.mp hnone planned hmem
    simp [plan_id hplan] at hother
  · rename_i found hfound
    obtain ⟨hmem, hwindow, hphase⟩ := mem_phaseItems.mp (List.mem_of_find?_eq_some hfound)
    have hid : found.id = row.id := by simpa using List.find?_some hfound
    have hequal : found = planned := hids.eq hmem hplanned (hid.trans (plan_id hplan).symm)
    subst hequal
    split_ifs with hblocked hcandidate
    · exact Or.inl ⟨rfl, fun h => absurd h hblocked⟩
    · refine Or.inr ⟨not_not.mp hblocked, (plan_phase hplan).symm.trans hphase,
        (plan_window hplan).symm.trans hwindow, Or.inl ⟨?_, rfl⟩⟩
      exact (plan_candidate hplan).symm.trans hcandidate
    · refine Or.inr ⟨not_not.mp hblocked, (plan_phase hplan).symm.trans hphase,
        (plan_window hplan).symm.trans hwindow, Or.inr ⟨?_, rfl⟩⟩
      exact fun h => hcandidate ((plan_candidate hplan).trans h)

theorem Evidence.freeze (h : Evidence db) (hplan : planOf db.items = planOf items)
    (hstep : FreezeStep objective items key selected ranking oos db db') : Evidence db' := by
  have hevolves := hstep.evolves
  have hids : Unique BatchItem.id items := unique_of_planOf hplan.symm h.quarantine.ids
  -- every item comes from a row, and the transaction did one of three things to it
  have hcases : ∀ item ∈ db'.items, ∃ row ∈ db.items, item.plan = row.plan ∧
      ((item = row ∧ (row.status = .blockedSelection → row.phase = "oos" →
          row.window ≠ some key)) ∨
        (row.status = .blockedSelection ∧ row.phase = "oos" ∧ row.window = some key ∧
          (row.candidate = selected.candidateKey ∧
              item = { row with status := .pending, error := none } ∨
            row.candidate ≠ selected.candidateKey ∧
              item = { row with status := .skipped, error := some notSelected }))) := by
    intro item hitem
    rw [hstep.items] at hitem
    obtain ⟨row, hrow, rfl⟩ := List.mem_map.mp hitem
    obtain ⟨planned, hplanned, hsame⟩ := mem_of_planOf hplan hrow
    exact ⟨row, hrow, releaseItem_plan _ _ row, releaseItem_cases hids hplanned hsame⟩
  obtain ⟨new, hnewWindow, hnewItem, hevaluations⟩ : ∃ new : OosEvaluation, new.window = key ∧
      new.oosItemId = oos.id ∧ db'.evaluations = db.evaluations ++ [new] := by
    obtain ⟨oosInput, hevaluations⟩ := hstep.evaluations
    exact ⟨_, rfl, rfl, hevaluations⟩
  obtain ⟨⟨hoosMem, hoosWindow, hoosPhase⟩, hoosCandidate⟩ :
      (oos ∈ items ∧ oos.window = some key ∧ oos.phase = "oos") ∧
        oos.candidate = selected.candidateKey :=
    ⟨mem_phaseItems.mp hstep.oosItem.1, hstep.oosItem.2⟩
  have hfresh : Tables.find OosEvaluation.window db.evaluations new.window = none := by
    rw [hnewWindow]
    cases hfind : Tables.find OosEvaluation.window db.evaluations key with
    | none => rfl
    | some evaluation =>
      have hsome := (h.owned evaluation (mem_of_find hfind)).1
      rw [find_key hfind, hstep.unfrozen] at hsome
      cases hsome
  have hevaluation : ∀ other, db'.evaluation other =
      if other = key then some new else db.evaluation other := by
    intro other
    unfold ExperimentDb.evaluation
    rw [hevaluations, find_append_singleton hfresh, hnewWindow]
  refine ⟨h.quarantine.freeze hplan hstep, ?_, ?_, ?_, ?_, ?_, ?_, ?_, ?_, ?_, ?_⟩
  · intro hkind item hitem
    obtain ⟨row, hrow, hrowPlan, -⟩ := hcases item hitem
    rw [plan_phase hrowPlan]
    exact h.research (hevolves.kind.symm.trans hkind) row hrow
  · intro item hitem hblocked
    obtain ⟨row, hrow, -, ⟨rfl, hother⟩ | ⟨-, -, -, ⟨-, rfl⟩ | ⟨-, rfl⟩⟩⟩ := hcases item hitem
    · obtain ⟨hmode, hflag, hphase, key', hwindow, hnone⟩ := h.blocked item hrow hblocked
      refine ⟨hevolves.mode.trans hmode, by rw [hstep.batch]; exact hflag, hphase, key', hwindow,
        ?_⟩
      rw [hstep.event_eq, if_neg]
      · exact hnone
      · rintro rfl
        exact hother hblocked hphase hwindow
    · cases hblocked
    · cases hblocked
  · rintro ⟨blocked, hblocked, hstatus⟩ item hitem hphase other hwindow hnone
    have hopen : ∃ item ∈ db.items, item.status = .blockedSelection := by
      obtain ⟨row, hrow, -, ⟨rfl, -⟩ | ⟨hbefore, -⟩⟩ := hcases blocked hblocked
      · exact ⟨blocked, hrow, hstatus⟩
      · exact ⟨row, hrow, hbefore⟩
    rw [hstep.event_eq] at hnone
    split_ifs at hnone with hother
    obtain ⟨row, hrow, hrowPlan, ⟨rfl, -⟩ | ⟨-, -, hrowWindow, -⟩⟩ := hcases item hitem
    · exact h.gated hopen item hrow hphase other hwindow hnone
    · rw [plan_window hrowPlan, hrowWindow] at hwindow
      exact absurd (Option.some.inj hwindow).symm hother
  · intro item hitem hskipped
    obtain ⟨row, hrow, -, ⟨rfl, -⟩ | ⟨-, -, hwindow, ⟨-, rfl⟩ | ⟨hcandidate, rfl⟩⟩⟩ :=
      hcases item hitem
    · obtain ⟨key', event, hwindow, hevent, hother⟩ := h.skipped item hrow hskipped
      exact ⟨key', event, hwindow, hevolves.event hevent, hother⟩
    · cases hskipped.1
    · exact ⟨key, _, hwindow, hstep.event, hcandidate⟩
  · intro other event hevent
    rw [hstep.event_eq] at hevent
    rw [hevaluation]
    split_ifs at hevent ⊢ with hother
    · subst hother
      obtain ⟨item, hitem, hitemPlan⟩ :=
        mem_of_planOf (hplan.symm.trans hevolves.items.symm) hoosMem
      refine ⟨new, rfl, item, hitem, (plan_id hitemPlan).trans hnewItem.symm,
        (plan_phase hitemPlan).trans hoosPhase,
        (plan_window hitemPlan).trans hoosWindow, ?_⟩
      rw [← Option.some.inj hevent]
      exact (plan_candidate hitemPlan).trans hoosCandidate
    · obtain ⟨evaluation, hfound, item, hitem, hid, hphase, hwindow, hcandidate⟩ :=
        h.evaluated other event hevent
      obtain ⟨after, hafter, hafterPlan⟩ := mem_of_planOf hevolves.items.symm hitem
      exact ⟨evaluation, hfound, after, hafter, (plan_id hafterPlan).trans hid,
        (plan_phase hafterPlan).trans hphase, (plan_window hafterPlan).trans hwindow,
        (plan_candidate hafterPlan).trans hcandidate⟩
  · rw [hevaluations]
    exact h.evaluations.append_singleton hfresh
  · intro evaluation hmem
    rw [hevaluations] at hmem
    rcases List.mem_append.mp hmem with hold | hnew
    · obtain ⟨hsome, hitems⟩ := h.owned evaluation hold
      obtain ⟨event, hevent⟩ := Option.isSome_iff_exists.mp hsome
      refine ⟨by rw [hevolves.event hevent]; rfl, fun item hitem hid => ?_⟩
      obtain ⟨row, hrow, hrowPlan, -⟩ := hcases item hitem
      rw [plan_phase hrowPlan, plan_window hrowPlan]
      exact hitems row hrow ((plan_id hrowPlan).symm.trans hid)
    · rw [List.mem_singleton.mp hnew, hnewWindow, hnewItem]
      refine ⟨by rw [hstep.event]; rfl, fun item hitem hid => ?_⟩
      obtain ⟨planned, hplanned, hsame⟩ := mem_of_planOf (hevolves.items.trans hplan) hitem
      have hequal : planned = oos := hids.eq hplanned hoosMem ((plan_id hsame).trans hid)
      subst hequal
      exact ⟨(plan_phase hsame).symm.trans hoosPhase, (plan_window hsame).symm.trans hoosWindow⟩
  · intro evaluation hmem item hitem hid hstatus
    rw [hevaluations] at hmem
    obtain ⟨row, hrow, hrowPlan, ⟨rfl, -⟩ | ⟨-, -, -, ⟨-, rfl⟩ | ⟨-, rfl⟩⟩⟩ := hcases item hitem
    · rcases List.mem_append.mp hmem with hold | hnew
      · exact h.settled evaluation hold item hrow hid hstatus
      · -- an item of a window without an event has not run
        exfalso
        rw [List.mem_singleton.mp hnew, hnewItem] at hid
        have hlicensed := h.quarantine.items item hrow (by rw [hstatus]; decide)
        obtain ⟨planned, hplanned, hsame⟩ := mem_of_planOf hplan hrow
        have hequal : planned = oos := hids.eq hplanned hoosMem ((plan_id hsame).trans hid)
        subst hequal
        obtain ⟨event, hevent, -⟩ := hlicensed item hrow rfl
          ((plan_phase hsame).symm.trans hoosPhase) key
          ((plan_window hsame).symm.trans hoosWindow)
        have hnone := hstep.unfrozen
        rw [Option.mem_def.mp hevent] at hnone
        cases hnone
    · cases hstatus
    · cases hstatus
  · rw [hstep.runs]
    exact h.named
  · intro hmode
    obtain ⟨run, hrun, hstatus⟩ := h.lineage (hevolves.mode.symm.trans hmode)
    refine ⟨{ run with status := "OOS_PENDING" }, ?_, hstatus⟩
    rw [hstep.walkForwardRun, hrun]
    rfl

end Freeze

/-! ## `reconcile_backtest` -/

/-- The report of a run is not the one of an item that a selection skipped. -/
def PlainReport (status : String) (error : Option String) : Prop :=
  ¬ (itemStatusOf status = .skipped ∧ error = some notSelected)

instance (status : String) (error : Option String) : Decidable (PlainReport status error) :=
  inferInstanceAs (Decidable (¬ _))

section Reconcile

variable {db db' : ExperimentDb}

/-- The two transactions of a reconciliation together keep the evidence. -/
theorem Evidence.reconcile (h : Evidence db) {run : BacktestRun} (hrun : run ∈ db.runs)
    {itemId : Nat} (hitemId : run.batchItemId = some itemId)
    (hreport : PlainReport run.status run.error) {u : Unit}
    (hreconcile : reconcileItem run itemId db = .ok (u, db')) :
    Evidence (persistOosEvaluation itemId run db') := by
  have hlicensed : Licensed db itemId := h.quarantine.runs run hrun itemId hitemId
  have hquarantine := (h.quarantine.reconcileItem hlicensed hreconcile).persistOosEvaluation
    itemId run
  have hevolves := (evolves_reconcileItem hreconcile).trans
    (evolves_persistOosEvaluation itemId run db')
  have hname : run.id ≠ "" := h.named run hrun itemId hitemId
  -- what the first transaction wrote
  have hfields : db'.items = (updateItem itemId (fun item =>
        { item with
          status := itemStatusOf run.status
          statistics := run.statistics
          error := run.error }) db).items ∧ db'.events = db.events ∧
      db'.evaluations = db.evaluations ∧ db'.batch = db.batch ∧
      db'.runs = db.runs ∧ db'.walkForwardRun = db.walkForwardRun := by
    unfold reconcileItem at hreconcile
    split at hreconcile
    · cases hreconcile
    · obtain ⟨-, rfl⟩ := ok_inj hreconcile
      exact ⟨rfl, rfl, rfl, rfl, rfl, rfl⟩
  obtain ⟨hitems, hevents, hevaluations, hbatch, hruns, hlineage⟩ := hfields
  -- what the second one wrote
  have hpersist : ∃ f : OosEvaluation → OosEvaluation,
      persistOosEvaluation itemId run db' =
        { db' with
          evaluations := db.evaluations.map f
          windows := (persistOosEvaluation itemId run db').windows } ∧
      (∀ evaluation, (f evaluation).window = evaluation.window ∧
        (f evaluation).oosItemId = evaluation.oosItemId) ∧
      ∀ evaluation ∈ db.evaluations,
        (evaluation.oosItemId = itemId → itemStatusOf run.status = .success →
          Completed (f evaluation)) ∧
        (evaluation.oosItemId ≠ itemId → f evaluation = evaluation) := by
    unfold persistOosEvaluation
    simp only [hevaluations]
    cases hfound : db.evaluations.find? (fun evaluation => evaluation.oosItemId == itemId) with
    | none =>
      refine ⟨id, ?_, fun _ => ⟨rfl, rfl⟩, fun evaluation hmem => ⟨fun hid => ?_, fun _ => rfl⟩⟩
      · rw [List.map_id, ← hevaluations]
      · have hother := List.find?_eq_none.mp hfound evaluation hmem
        simp [hid] at hother
    | some found =>
      have hfoundMem := List.mem_of_find?_eq_some hfound
      have hfoundId : found.oosItemId = itemId := by simpa using List.find?_some hfound
      refine ⟨fun evaluation => if evaluation.window = found.window then _ else evaluation,
        rfl, fun evaluation => ?_, fun evaluation hmem => ⟨fun hid hsuccess => ?_, fun hid => ?_⟩⟩
      · show OosEvaluation.window (if _ then _ else _) = _ ∧
          OosEvaluation.oosItemId (if _ then _ else _) = _
        split_ifs <;> exact ⟨rfl, rfl⟩
      · -- both evaluations are of the window of the item
        have hsame : evaluation.window = found.window := by
          obtain ⟨item, hitem, hitemEq⟩ : ∃ item ∈ db.items, item.id = itemId := by
            unfold reconcileItem at hreconcile
            split at hreconcile
            · cases hreconcile
            · rename_i item hitem
              exact ⟨item, mem_of_find hitem, find_key hitem⟩
          have hwindow := ((h.owned evaluation hmem).2 item hitem (hitemEq.trans hid.symm)).2
          have hwindow' := ((h.owned found hfoundMem).2 item hitem
            (hitemEq.trans hfoundId.symm)).2
          exact Option.some.inj (hwindow.symm.trans hwindow')
        show Completed (if evaluation.window = found.window then _ else evaluation)
        rw [if_pos hsame]
        refine ⟨?_, ⟨run.id, rfl, hname⟩, run.statistics, ?_⟩
        · exact if_pos hsuccess
        · exact if_pos hsuccess
      · show (if evaluation.window = found.window then _ else evaluation) = evaluation
        rw [if_neg]
        intro hsame
        have hequal : evaluation = found := h.evaluations.eq hmem hfoundMem hsame
        exact hid (by rw [hequal, hfoundId])
  obtain ⟨f, hstate, hkeys, hdone⟩ := hpersist
  have hevent : ∀ key, (persistOosEvaluation itemId run db').event key = db.event key := by
    intro key
    rw [hstate]
    unfold ExperimentDb.event
    rw [hevents]
  have hrows : (persistOosEvaluation itemId run db').items = db'.items := by rw [hstate]
  have hevaluationRows : (persistOosEvaluation itemId run db').evaluations =
      db.evaluations.map f := by rw [hstate]
  -- every item is an old one or the reconciled one
  have hcases : ∀ item ∈ (persistOosEvaluation itemId run db').items, ∃ row ∈ db.items,
      item.plan = row.plan ∧ ((row.id ≠ itemId ∧ item = row) ∨
        (row.id = itemId ∧ item.status = itemStatusOf run.status ∧ item.error = run.error)) := by
    intro item hitem
    rw [hrows, hitems] at hitem
    obtain ⟨row, hrow, rfl⟩ := List.mem_map.mp hitem
    refine ⟨row, hrow, ?_⟩
    split_ifs with hid
    · exact ⟨rfl, Or.inr ⟨hid, rfl, rfl⟩⟩
    · exact ⟨rfl, Or.inl ⟨hid, rfl⟩⟩
  refine ⟨hquarantine, ?_, ?_, ?_, ?_, ?_, ?_, ?_, ?_, ?_, ?_⟩
  · intro hkind item hitem
    obtain ⟨row, hrow, hplan, -⟩ := hcases item hitem
    rw [plan_phase hplan]
    exact h.research (hevolves.kind.symm.trans hkind) row hrow
  · intro item hitem hblocked
    obtain ⟨row, hrow, -, ⟨-, rfl⟩ | ⟨-, hstatus, -⟩⟩ := hcases item hitem
    · obtain ⟨hmode, hflag, hphase, key, hwindow, hnone⟩ := h.blocked item hrow hblocked
      refine ⟨hevolves.mode.trans hmode, ?_, hphase, key, hwindow, by rw [hevent]; exact hnone⟩
      rw [hstate]
      show db'.batch.cancelRequested = false
      rw [hbatch]
      exact hflag
    · exact absurd (hstatus.symm.trans hblocked) (itemStatusOf_ne_blocked _)
  · rintro ⟨blocked, hblocked, hstatus⟩ item hitem hphase key hwindow hnone
    have hopen : ∃ item ∈ db.items, item.status = .blockedSelection := by
      obtain ⟨row, hrow, -, ⟨-, rfl⟩ | ⟨-, hreconciled, -⟩⟩ := hcases blocked hblocked
      · exact ⟨blocked, hrow, hstatus⟩
      · exact absurd (hreconciled.symm.trans hstatus) (itemStatusOf_ne_blocked _)
    rw [hevent] at hnone
    obtain ⟨row, hrow, hrowPlan, ⟨-, rfl⟩ | ⟨hid, -⟩⟩ := hcases item hitem
    · exact h.gated hopen item hrow hphase key hwindow hnone
    · obtain ⟨event, hsome, -⟩ := hlicensed row hrow hid
        ((plan_phase hrowPlan).symm.trans hphase) key ((plan_window hrowPlan).symm.trans hwindow)
      rw [Option.mem_def.mp hsome] at hnone
      cases hnone
  · intro item hitem hskipped
    obtain ⟨row, hrow, -, ⟨-, rfl⟩ | ⟨-, hstatus, herror⟩⟩ := hcases item hitem
    · obtain ⟨key, event, hwindow, hsome, hother⟩ := h.skipped item hrow hskipped
      exact ⟨key, event, hwindow, by rw [hevent]; exact hsome, hother⟩
    · exact absurd ⟨hstatus.symm.trans hskipped.1, herror.symm.trans hskipped.2⟩ hreport
  · intro key event hsome
    rw [hevent] at hsome
    obtain ⟨evaluation, hfound, item, hitem, hid, hphase, hwindow, hcandidate⟩ :=
      h.evaluated key event hsome
    obtain ⟨after, hafter, hplan⟩ := mem_of_planOf hevolves.items.symm hitem
    refine ⟨f evaluation, ?_, after, hafter,
      (plan_id hplan).trans (hid.trans (hkeys evaluation).2.symm), (plan_phase hplan).trans hphase,
      (plan_window hplan).trans hwindow, (plan_candidate hplan).trans hcandidate⟩
    unfold ExperimentDb.evaluation at hfound ⊢
    rw [hevaluationRows, find_map _ (fun evaluation _ => (hkeys evaluation).1), hfound]
    rfl
  · rw [hevaluationRows]
    exact h.evaluations.map (fun evaluation _ => (hkeys evaluation).1)
  · intro evaluation hmem
    rw [hevaluationRows] at hmem
    obtain ⟨old, hold, rfl⟩ := List.mem_map.mp hmem
    obtain ⟨hsome, howned⟩ := h.owned old hold
    rw [(hkeys old).1, (hkeys old).2, hevent]
    refine ⟨hsome, fun item hitem hid => ?_⟩
    obtain ⟨row, hrow, hplan, -⟩ := hcases item hitem
    rw [plan_phase hplan, plan_window hplan]
    exact howned row hrow ((plan_id hplan).symm.trans hid)
  · intro evaluation hmem item hitem hid hsuccess
    rw [hevaluationRows] at hmem
    obtain ⟨old, hold, rfl⟩ := List.mem_map.mp hmem
    rw [(hkeys old).2] at hid
    obtain ⟨row, hrow, hplan, ⟨hother, rfl⟩ | ⟨hself, hstatus, -⟩⟩ := hcases item hitem
    · rw [(hdone old hold).2 (by rw [← hid]; exact hother)]
      exact h.settled old hold item hrow hid hsuccess
    · refine (hdone old hold).1 ?_ (hstatus.symm.trans hsuccess)
      rw [← hid, plan_id hplan, hself]
  · rw [hstate]
    show ∀ run ∈ db'.runs, _
    rw [hruns]
    exact h.named
  · intro hmode
    obtain ⟨row, hrow, hstatus⟩ := h.lineage (hevolves.mode.symm.trans hmode)
    refine ⟨row, ?_, hstatus⟩
    rw [hstate]
    exact hlineage.trans hrow

theorem Evidence.reconcileFirst (h : Evidence db) {runId : String}
    (hreport : ∀ run, db.backtest runId = some run → PlainReport run.status run.error)
    (hoos : ∀ run, db.backtest runId = some run → ∀ itemId ∈ run.batchItemId,
      ∀ item ∈ db.items, item.id = itemId → item.phase = "oos" →
        itemStatusOf run.status ≠ .success) :
    wp (fun _ => True) (reconcileFirst runId) (fun _ t => Evidence t) db := by
  refine wp_bind (wp_read ?_)
  cases hrun : db.backtest runId with
  | none => exact wp_pure h
  | some run =>
    dsimp only
    cases hitem : run.batchItemId with
    | none => exact wp_pure h
    | some itemId =>
      have hlicensed := h.quarantine.runs run (mem_of_find hrun) itemId hitem
      refine wp_tx (fun u t hreconcile => ⟨trivial, ?_⟩) (fun _ _ => h)
      have hevolves := evolves_reconcileItem hreconcile
      have hquarantine := h.quarantine.reconcileItem hlicensed hreconcile
      unfold Experiments.reconcileItem at hreconcile
      split at hreconcile
      · cases hreconcile
      · obtain ⟨-, rfl⟩ := ok_inj hreconcile
        refine h.quiet (quiet_updateItem hevolves rfl rfl rfl rfl rfl (fun item hmem hid => ?_)
          (h.open_of_licensed hlicensed)) hquarantine h.named
        refine ⟨rfl, fun hblocked => ?_, fun hskipped => ?_, fun hphase hsuccess => ?_⟩
        · exact absurd hblocked (itemStatusOf_ne_blocked _)
        · exact absurd hskipped (hreport run hrun)
        · exact absurd hsuccess (hoos run hrun itemId hitem item hmem hid hphase)

theorem Evidence.reconcileBacktest (h : Evidence db) {runId : String}
    (hreport : ∀ run, db.backtest runId = some run → PlainReport run.status run.error) :
    wp (fun _ => True) (reconcileBacktest runId) (fun _ t => Evidence t) db := by
  refine wp_bind (wp_read ?_)
  cases hrun : db.backtest runId with
  | none => exact wp_pure h
  | some run =>
    dsimp only
    cases hitem : run.batchItemId with
    | none => exact wp_pure h
    | some itemId =>
      refine wp_bind (wp_tx (fun u t hreconcile => ⟨trivial, ?_⟩) (fun _ _ => h))
      exact wp_write trivial (h.reconcile (mem_of_find hrun) hitem (hreport run hrun) hreconcile)

end Reconcile

/-! ## Steps -/

section Steps

variable {db : ExperimentDb}

abbrev Certifies {α : Type} (m : TxM ExperimentDb BatchError α) (db : ExperimentDb) : Prop :=
  wp (fun _ => True) m (fun _ t => Evidence t) db

theorem Evidence.advance (h : Evidence db) (batch : Batch) {items : List BatchItem}
    (hplan : planOf db.items = planOf items) : Certifies (advanceSelection batch items) db := by
  refine wp_mono (wp_advanceSelection (P := fun t => Evidence t ∧ planOf t.items = planOf items)
    ⟨h, hplan⟩ ?_) (fun _ h => h) (fun _ _ ht => ht.1)
  rintro key t ⟨ht, hitems⟩ changed t' hrun
  refine ⟨trivial, ?_⟩
  rcases freezeWindow_cases hrun with ⟨-, rfl⟩ | ⟨-, selected, ranking, oos, hstep⟩
  · exact ⟨ht, hitems⟩
  · exact ⟨ht.freeze hitems hstep, hstep.evolves.items.trans hitems⟩

theorem Evidence.publishStatus (h : Evidence db) (batch : Batch) (status : String) :
    Certifies (publishStatus batch status) db :=
  wp_publishStatus ⟨trivial, h.storeStatus status⟩
    (fun _ _ hrun => ⟨trivial, (h.storeStatus status).issueCertificate hrun⟩)

theorem Evidence.refresh (h : Evidence db) : Certifies refresh db :=
  wp_refresh (h.advance db.batch rfl) (fun _ _ _ ht => ht.publishStatus _ _)

variable {f : BacktestRun → BacktestRun}

theorem backtest_updateRun {runId : String} (hid : ∀ run, (f run).id = run.id) {run : BacktestRun}
    (hrun : (updateRun runId f db).backtest runId = some run) :
    ∃ old ∈ db.runs, old.id = runId ∧ run = f old := by
  unfold ExperimentDb.backtest updateRun at hrun
  have hkeys : ∀ run ∈ db.runs, (if run.id = runId then f run else run).id = run.id := by
    intro run _
    split_ifs
    · exact hid run
    · rfl
  rw [find_map _ hkeys] at hrun
  obtain ⟨old, hold, hsame⟩ := Option.map_eq_some_iff.mp hrun
  rw [if_pos (find_key hold)] at hsame
  exact ⟨old, mem_of_find hold, find_key hold, hsame.symm⟩

theorem Evidence.rewriteRun (h : Evidence db) (runId : String) (hid : ∀ run, (f run).id = run.id)
    (hitem : ∀ run, (f run).batchItemId = run.batchItemId) :
    Evidence (Experiments.updateRun runId f db) := by
  refine h.updateRun runId (fun run itemId hlinked => Or.inl ?_) hid (fun run hlinked => Or.inl ?_)
  · rw [← hitem]
    exact hlinked
  · rw [← hitem]
    exact hlinked

theorem Evidence.report (h : Evidence db) (runId : String) (hid : ∀ run, (f run).id = run.id)
    (hitem : ∀ run, (f run).batchItemId = run.batchItemId)
    (hreport : ∀ run, PlainReport (f run).status (f run).error) :
    Evidence (Experiments.updateRun runId f db) ∧
      Certifies (Experiments.reconcileBacktest runId) (Experiments.updateRun runId f db) := by
  have hwritten := h.rewriteRun runId hid hitem
  refine ⟨hwritten, hwritten.reconcileBacktest (fun run hrun => ?_)⟩
  obtain ⟨old, -, -, rfl⟩ := backtest_updateRun hid hrun
  exact hreport old

theorem plainReport_failed (error : Option String) : PlainReport "failed" error := by
  rintro ⟨hstatus, -⟩
  exact absurd hstatus (by decide)

theorem plainReport_cancelled (error : Option String) : PlainReport "cancelled" error := by
  rintro ⟨hstatus, -⟩
  exact absurd hstatus (by decide)

theorem Evidence.dispatchBacktest (h : Evidence db) {env : DispatchEnv} {item : BatchItem}
    (hlicensed : Licensed db item.id) (hnames : env.Names item.id) :
    Certifies (dispatchBacktest env item) db := by
  unfold Experiments.dispatchBacktest
  unfold DispatchEnv.Names at hnames
  cases hcreate : env.createRun item.id with
  | error message =>
    have hadded : Evidence (Experiments.addRun
        { id := (env.failedRun item.id).1, taskId := (env.failedRun item.id).2,
          status := "failed", error := some message } db) := h.addRun rfl
    refine wp_bind (wp_write trivial ?_)
    exact wp_write trivial (hadded.recordAttempt hlicensed _ _ (by decide) _)
  | ok created =>
    obtain ⟨runId, taskId⟩ := created
    rw [hcreate] at hnames
    have hadded : Evidence (Experiments.addRun
        { id := runId, taskId := taskId, status := "created" } db) := h.addRun rfl
    have hlinked : Evidence (Experiments.updateRun runId
        (fun run => { run with batchItemId := some item.id })
          (Experiments.addRun { id := runId, taskId := taskId, status := "created" } db)) := by
      refine hadded.updateRun runId (fun run itemId hitem => Or.inr ?_) (fun _ => rfl)
        (fun run _ => Or.inr ?_)
      · rw [← Option.some.inj hitem]
        exact hlicensed
      · by_cases hid : run.id = runId
        · exact Or.inl (by rw [hid]; exact hnames)
        · exact Or.inr hid
    refine wp_bind (wp_write trivial ?_)
    have hquiet : ItemStatus.queued ∉ [ItemStatus.blockedSelection, .skipped, .success] := by
      decide
    have hrecorded := hlinked.recordAttempt hlicensed (some runId) (some taskId) hquiet none
    refine wp_bind (wp_write trivial ?_)
    cases env.publish item.id with
    | error message =>
      have hfailed := hrecorded.report runId (f := fun run =>
        { run with status := "failed", error := some message }) (fun _ => rfl) (fun _ => rfl)
        (fun _ => plainReport_failed _)
      exact wp_bind (wp_write trivial hfailed.2)
    | ok _ =>
      exact wp_write trivial (hrecorded.updateRun runId
        (fun _ _ hitem => Or.inl hitem) (fun _ => rfl) (fun _ hlinked => Or.inl hlinked))

theorem Evidence.dispatchItem (h : Evidence db) {env : DispatchEnv} (batch : Batch)
    {item : BatchItem} (hnames : env.Names item.id) :
    Certifies (dispatchItem env batch item) db := by
  refine wp_bind (wp_tx (fun claimed t hrun => ⟨trivial, ?_⟩) (fun _ _ => h))
  have ht := h.claimItem hrun
  have hlicensed := (h.quarantine.claimItem hrun).2
  show wp _ (if claimed = true then _ else _) _ t
  split_ifs with hclaimed
  · unfold dispatchResearch
    cases env.publish item.id with
    | error message =>
      exact wp_write trivial (ht.recordAttempt (hlicensed hclaimed) _ _ (by decide) _)
    | ok taskId =>
      exact wp_write trivial (ht.recordAttempt (hlicensed hclaimed) _ _ (by decide) _)
  · exact ht.dispatchBacktest (hlicensed hclaimed) hnames
  · exact wp_pure ht

theorem Evidence.cancelBacktest (h : Evidence db) (runId : String) :
    Certifies (cancelBacktest runId) db := by
  refine wp_bind (wp_read ?_)
  cases db.backtest runId with
  | none => exact h
  | some run =>
    show wp _ (if runIsTerminal run.status = true then _ else _) _ db
    cases runIsTerminal run.status
    · have hcancelled := h.report runId (f := fun run =>
        { run with
          status := "cancelled"
          error := some "Cancellation requested by user." }) (fun _ => rfl) (fun _ => rfl)
        (fun _ => plainReport_cancelled _)
      refine wp_bind (wp_write trivial (wp_bind (wp_attempt ?_)))
      exact wp_mono hcancelled.2 (fun _ h => h) (fun _ _ ht => wp_pure ht)
    · exact wp_pure h

/-- What a step may do: it starts again chosen items only, a run does not report
the skip of a selection, and the success of an out-of-sample run is delivered as a
whole. -/
def KeepsEvidence (db : ExperimentDb) : BatchStep → Prop
  | .deliver _ status error _ => PlainReport status error
  | .deliverFirst runId status error _ => PlainReport status error ∧
    ∀ run ∈ db.runs, run.id = runId → ∀ itemId ∈ run.batchItemId, ∀ item ∈ db.items,
      item.id = itemId → item.phase = "oos" → itemStatusOf status ≠ .success
  | .requeueCancelled => ∀ item ∈ db.items, item.status ∈ restartable → Chosen db item
  | _ => True

/-- Every such step keeps the evidence. -/
theorem Evidence.step (h : Evidence db) {step : BatchStep}
    (hallowed : stepMachine.allowed db step) (hkeeps : KeepsEvidence db step) :
    Evidence (stepMachine.next db step) := by
  have hchosen : ∀ statuses : List ItemStatus,
      (∀ item ∈ db.items, item.status ∈ statuses → Chosen db item) →
        ∀ item ∈ db.items, item.status ∈ statuses → Licensed db item.id := by
    intro statuses hall item hitem hstatus other hother hid
    rw [h.quarantine.ids.eq hother hitem hid]
    exact hall item hitem hstatus
  cases step with
  | refresh => exact h.refresh.2
  | dispatchItem env batch item => exact (h.dispatchItem batch hallowed).2
  | deliver runId status error statistics =>
    have hreport := h.report runId (f := fun run =>
      { run with status := status, error := error, statistics := statistics })
      (fun _ => rfl) (fun _ => rfl) (fun _ => hkeeps)
    have hwp : Certifies (deliver runId status error statistics) db :=
      wp_bind (wp_write trivial hreport.2)
    exact hwp.2
  | deliverFirst runId status error statistics =>
    have hid : ∀ run : BacktestRun, ({ run with
        status := status
        error := error
        statistics := statistics } : BacktestRun).id = run.id := fun _ => rfl
    have hwritten := h.rewriteRun runId hid (fun _ => rfl)
    have hwp : Certifies (deliverFirst runId status error statistics) db := by
      refine wp_bind (wp_write trivial (hwritten.reconcileFirst (fun run hrun => ?_)
        (fun run hrun itemId hitem item hmem hitemId hphase => ?_)))
      · obtain ⟨old, -, -, rfl⟩ := backtest_updateRun hid hrun
        exact hkeeps.1
      · obtain ⟨old, hold, hname, rfl⟩ := backtest_updateRun hid hrun
        exact hkeeps.2 old hold hname itemId hitem item hmem hitemId hphase
    exact hwp.2
  | finishItem itemId statistics error => exact (h.finishItem hallowed itemId statistics error).2
  | cancelItems =>
    have hwp : Certifies (TxM.tx (fun db =>
        (.ok ((), Experiments.cancelItems db) : Except BatchError _))) db :=
      wp_write trivial h.cancelItems
    exact hwp.2
  | cancelBacktest runId => exact (h.cancelBacktest runId).2
  | requeueFailed =>
    have hwp : Certifies requeueFailed db := by
      refine wp_bind (wp_read ?_)
      show wp _ (if _ then _ else if _ then _ else _) _ db
      split_ifs
      · refine wp_write trivial (h.requeueItems (by decide) (fun item hitem hstatus => ?_))
        refine h.quarantine.items item hitem ?_
        rw [List.mem_singleton.mp hstatus]
        decide
      · exact wp_fail h
      · exact wp_fail h
    exact hwp.2
  | requeueCancelled =>
    have hwp : Certifies requeueCancelled db := by
      refine wp_bind (wp_read ?_)
      show wp _ (if _ then _ else if _ then _ else _) _ db
      split_ifs
      · exact wp_fail h
      · exact wp_write trivial (h.requeueItems (by decide) (hchosen restartable hkeeps))
      · exact wp_fail h
    exact hwp.2

end Steps

end LocalPlatform.Experiments
