import LocalPlatform.Experiments.Evidence

/-!
# Every finished batch is terminal

When no item of a batch waits or runs, `refresh` has to give the batch a status
that is final, and a successful walk-forward batch its certificate.

* `RefreshSound` says this about one state, and `Created` gives the batches that a
  run starts from.
* A window that cannot be ranked leaves its out-of-sample items blocked, and the
  batch stays `running`.  `RefreshReady` says that this does not happen and that
  the counts of the windows can be read.
* `refreshSound_after` is about every run of steps that keeps the evidence.
-/

namespace LocalPlatform.Experiments

open Paper Transaction Transaction.TxM Machines Tables

/-! ## The status of a batch -/

/-- The statuses of an item that waits to run or runs. -/
def waiting : List ItemStatus := [.pending, .dispatching, .queued, .running]

section Status

variable {cancelRequested : Bool} {items : List BatchItem}

theorem countStatus_eq_zero {status : ItemStatus} :
    countStatus items status = 0 ↔ ∀ item ∈ items, item.status ≠ status := by
  unfold countStatus
  simp [List.countP_eq_zero]

theorem countStatus_cons (item : BatchItem) (rest : List BatchItem) (status : ItemStatus) :
    countStatus (item :: rest) status =
      countStatus rest status + if item.status = status then 1 else 0 := by
  unfold countStatus
  simp [List.countP_cons]

theorem countStatus_terminal (items : List BatchItem) :
    countStatus items .success + countStatus items .failed + countStatus items .skipped +
      countStatus items .cancelled = items.countP (fun item => item.status ∈ terminal) := by
  induction items with
  | nil => rfl
  | cons item rest ih =>
    simp only [countStatus_cons, List.countP_cons, ← ih]
    cases item.status <;> simp [terminal] <;> omega

theorem completed_iff :
    countStatus items .success + countStatus items .failed + countStatus items .skipped +
      countStatus items .cancelled = items.length ↔ ∀ item ∈ items, item.status ∈ terminal := by
  rw [countStatus_terminal, List.countP_eq_length]
  simp

instance (item : BatchItem) : Decidable (SelectionSkipped item) :=
  inferInstanceAs (Decidable (_ ∧ _))

theorem countStatus_skipped (items : List BatchItem) :
    countStatus items .skipped = selectionSkips items +
      items.countP (fun item => item.status = .skipped ∧ ¬ SelectionSkipped item) := by
  induction items with
  | nil => rfl
  | cons item rest ih =>
    unfold selectionSkips at ih ⊢
    simp only [countStatus_cons, List.countP_cons, ih]
    by_cases hstatus : item.status = .skipped
    · by_cases herror : item.error = some notSelected
      · have hselection : SelectionSkipped item := ⟨hstatus, herror⟩
        unfold notSelected at herror
        simp [hstatus, herror, hselection]
        omega
      · have hselection : ¬ SelectionSkipped item := fun h => herror h.2
        unfold notSelected at herror
        simp [hstatus, herror, hselection]
        omega
    · simp [hstatus]

theorem refreshStatus_finished (hwaiting : ∀ item ∈ items, item.status ∉ waiting)
    (hdone : (∃ item ∈ items, item.status = .failed) ∨
      ∀ item ∈ items, item.status ≠ .blockedSelection) :
    refreshStatus cancelRequested items ∉ ["queued", "running"] := by
  have hnone : ∀ status ∈ waiting, countStatus items status = 0 := by
    intro status hstatus
    refine countStatus_eq_zero.mpr (fun item hitem hsame => hwaiting item hitem ?_)
    rw [hsame]
    exact hstatus
  have hpending := hnone .pending (by decide)
  have hdispatching := hnone .dispatching (by decide)
  have hqueued := hnone .queued (by decide)
  have hrunning := hnone .running (by decide)
  unfold refreshStatus
  simp only [hpending, hdispatching, hqueued, hrunning]
  by_cases hcompleted : ∀ item ∈ items, item.status ∈ terminal
  · rw [if_pos (completed_iff.mpr hcompleted)]
    split_ifs <;> decide
  · rcases hdone with ⟨item, hitem, hfailed⟩ | hopen
    · have hcount : countStatus items .failed ≠ 0 :=
        fun hzero => countStatus_eq_zero.mp hzero item hitem hfailed
      rw [if_neg (fun h => hcompleted (completed_iff.mp h)), if_pos (by simp [hcount])]
      decide
    · refine absurd (fun item hitem => ?_) hcompleted
      have hquiet := hwaiting item hitem
      have hblocked := hopen item hitem
      cases hstatus : item.status <;> rw [hstatus] at hquiet hblocked <;> revert hquiet hblocked <;>
        decide

theorem refreshStatus_success (h : refreshStatus cancelRequested items = "success") :
    ∀ item ∈ items, item.status = .success ∨ SelectionSkipped item := by
  unfold refreshStatus at h
  simp only at h
  by_cases hcompleted : ∀ item ∈ items, item.status ∈ terminal
  · rw [if_pos (completed_iff.mpr hcompleted)] at h
    split_ifs at h with hcancelled hpartial
    · exact absurd h (by decide)
    · exact absurd h (by decide)
    · push Not at hpartial
      obtain ⟨hfailed, hskips, hcancelled'⟩ := hpartial
      intro item hitem
      have hnotFailed := countStatus_eq_zero.mp hfailed item hitem
      have hnotCancelled := countStatus_eq_zero.mp hcancelled' item hitem
      have hterminal := hcompleted item hitem
      have hblocking : items.countP
          (fun item => item.status = .skipped ∧ ¬ SelectionSkipped item) = 0 := by
        have hsum := countStatus_skipped items
        omega
      have hskipped := List.countP_eq_zero.mp hblocking item hitem
      simp only [decide_eq_true_eq, not_and, not_not] at hskipped
      cases hstatus : item.status with
      | success => exact Or.inl rfl
      | skipped => exact Or.inr (hskipped hstatus)
      | failed => exact absurd hstatus hnotFailed
      | cancelled => exact absurd hstatus hnotCancelled
      | pending | dispatching | queued | running | blockedSelection =>
        rw [hstatus] at hterminal
        exact absurd hterminal (by decide)
  · rw [if_neg (fun hall => hcompleted (completed_iff.mp hall))] at h
    split_ifs at h <;> exact absurd h (by decide)

end Status

/-! ## The certificate -/

/-- All that a certificate reads of a window. -/
structure Certifiable (db : ExperimentDb) (key : WindowKey) : Prop where
  leakage : ∃ check, db.leakageChecks.find? (fun check => check.1 == key) = some check ∧
    check.2 = "ALLOW"
  event : ∃ event, db.event key = some event
  evaluation : ∃ evaluation, db.evaluation key = some evaluation ∧ Completed evaluation

variable {db : ExperimentDb}

theorem certifyWindow_ok {window : Window} (h : Certifiable db window.key) :
    ∃ certified, certifyWindow db window = .ok certified := by
  obtain ⟨check, hcheck, hallow⟩ := h.leakage
  obtain ⟨event, hevent⟩ := h.event
  obtain ⟨evaluation, hevaluation, hcompleted⟩ := h.evaluation
  obtain ⟨runId, hrun, hname⟩ := hcompleted.run
  obtain ⟨digest, hdigest⟩ := hcompleted.digest
  unfold certifyWindow
  simp only [hcheck, hevent, hevaluation, hcompleted.status, hrun, hdigest]
  rw [if_neg (not_not.mpr hallow), if_neg hname]
  exact ⟨_, rfl⟩

theorem mapM_certifyWindow_ok : ∀ {windows : List Window},
    (∀ window ∈ windows, Certifiable db window.key) →
      ∃ certificate, windows.mapM (certifyWindow db) = .ok certificate := by
  intro windows
  induction windows with
  | nil => exact fun _ => ⟨[], rfl⟩
  | cons window rest ih =>
    intro h
    obtain ⟨hwindow, hrest⟩ := List.forall_mem_cons.mp h
    obtain ⟨certified, hcertified⟩ := certifyWindow_ok hwindow
    obtain ⟨certificate, hcertificate⟩ := ih hrest
    rw [List.mapM_cons, hcertified, hcertificate]
    exact ⟨_, rfl⟩

theorem issueCertificate_ok {run : WalkForwardRun} (hrun : db.walkForwardRun = some run)
    (hstatus : run.status = "COMPLETED") (hlineage : run.lineageStatus = "complete")
    (hwindows : db.windows ≠ []) (hcertifiable : ∀ window ∈ db.windows, Certifiable db window.key) :
    ∃ result, issueCertificate db = .ok result := by
  obtain ⟨certificate, hcertificate⟩ := mapM_certifyWindow_ok hcertifiable
  unfold issueCertificate
  rw [hrun]
  simp only
  cases run.certificate with
  | some issued => exact ⟨_, rfl⟩
  | none =>
    simp only
    rw [if_neg (by simp [hstatus, hlineage]), if_neg (by simpa using hwindows), hcertificate]
    exact ⟨_, rfl⟩

/-! ## The batches that a run starts from -/

/-- The row of an item of a batch that is not `walk_forward`. -/
def plainItem (planned : ItemPlan × Nat) : BatchItem where
  id := planned.2
  projectId := planned.1.projectId
  symbol := planned.1.symbol
  fold := planned.1.fold
  phase := planned.1.phase
  candidateKey := planned.1.candidateKey
  overrides := planned.1.overrides
  status := .pending

/-- The transaction of `create_batch` for a batch that is not `walk_forward`. -/
def createPlainBatch (kind mode : String) (objective : Option String) (plans : List ItemPlan) :
    ExperimentDb where
  batch := { kind := kind, mode := mode, configObjective := objective }
  items := plans.zipIdx.map plainItem

/-- What `create_batch` leaves behind.  A research batch is not `walk_forward`, and
`expand` refuses a batch of no items. -/
inductive Created : ExperimentDb → Prop where
  | walkForward {kind : String} {objective : Option String} {projects symbols : List String}
      {folds : List Int} {candidates : String → List (String × Overrides)} {start : ExperimentDb}
      (hkind : kind ≠ "research")
      (hitems : expandWalkForward projects symbols folds candidates ≠ [])
      (hcreate : createBatch kind objective
        (expandWalkForward projects symbols folds candidates) = .ok start) : Created start
  | plain (kind mode : String) (objective : Option String) (plans : List ItemPlan)
      (hmode : mode ≠ "walk_forward") : Created (createPlainBatch kind mode objective plans)

/-- The evidence of a walk-forward batch as it is created. -/
structure Planned (start : ExperimentDb) : Prop where
  mode : start.batch.mode = "walk_forward"
  windows : start.windows.map Window.key = groupKeys start.items
  leakageChecks : start.leakageChecks = (groupKeys start.items).map (fun key => (key, "ALLOW"))
  items : groupKeys start.items ≠ []
  oosItems : ∀ item ∈ start.items, ∀ key, item.window = some key →
    ∃ other ∈ start.items, other.window = some key ∧ other.phase = "oos"
  plannedWindows : ∀ db, Evolves start db → ∀ key ∈ groupKeys db.items, PlannedWindow db.items db key

section Start

variable {kind : String} {objective : Option String} {projects symbols : List String}
  {folds : List Int} {candidates : String → List (String × Overrides)} {start : ExperimentDb}

theorem createBatch_rows {planned : List PlannedItem}
    (hcreate : createBatch kind objective planned = .ok start) :
    start.batch = { kind := kind, mode := "walk_forward", configObjective := objective } ∧
      start.leakageChecks = (groupKeys start.items).map (fun key => (key, "ALLOW")) ∧
      start.walkForwardRun = some {} ∧ start.events = [] ∧ start.evaluations = [] ∧
      start.runs = [] := by
  unfold createBatch at hcreate
  simp only at hcreate
  split_ifs at hcreate
  split at hcreate
  · cases hcreate
  · rw [← Except.ok.inj hcreate]
    exact ⟨rfl, rfl, rfl, rfl, rfl, rfl⟩

theorem expandWalkForward_phase {planned : PlannedItem}
    (h : planned ∈ expandWalkForward projects symbols folds candidates) :
    planned.phase ∈ windowPhases := by
  simp only [expandWalkForward, List.mem_flatMap, List.mem_map] at h
  obtain ⟨_, _, _, _, _, _, phase, hphase, _, _, rfl⟩ := h
  exact hphase

theorem planned_of_createBatch (hitems : expandWalkForward projects symbols folds candidates ≠ [])
    (hcreate : createBatch kind objective (expandWalkForward projects symbols folds candidates) =
      .ok start) : Planned start := by
  obtain ⟨hrows, hwindows, -⟩ := createBatch_ok hcreate
  obtain ⟨hbatch, hleakage, -⟩ := createBatch_rows hcreate
  refine ⟨by rw [hbatch], hwindows, hleakage, ?_, ?_, ?_⟩
  · -- the first item has a window
    obtain ⟨planned, rest, hplanned⟩ := List.exists_cons_of_ne_nil hitems
    have hmem : planned ∈ expandWalkForward projects symbols folds candidates := by
      rw [hplanned]
      exact List.mem_cons_self
    have hitem : newItem (planned, 0) ∈ start.items := by
      rw [hrows, hplanned]
      exact List.mem_cons_self
    have hwindow : ∃ key, (newItem (planned, 0)).window = some key := by
      unfold BatchItem.window newItem
      simp only
      rw [if_pos (expandWalkForward_phase hmem)]
      exact ⟨_, rfl⟩
    obtain ⟨key, hkey⟩ := hwindow
    exact List.ne_nil_of_mem (mem_groupKeys.mpr ⟨_, hitem, hkey⟩)
  · intro item hitem key hwindow
    obtain ⟨other, hother, hotherWindow, hphase, -⟩ :=
      oosItem_of_createBatch hcreate hitem hwindow
    exact ⟨other, hother, hotherWindow, hphase⟩
  · intro db hdb key hkey
    refine plannedWindow_of_createBatch hcreate hdb ?_ hkey
    rw [hdb.items]

theorem evidence_of_createBatch (hkind : kind ≠ "research") {planned : List PlannedItem}
    (hcreate : createBatch kind objective planned = .ok start) : Evidence start := by
  obtain ⟨hrows, -, -⟩ := createBatch_ok hcreate
  obtain ⟨hbatch, -, hrun, hevents, hevaluations, hruns⟩ := createBatch_rows hcreate
  have hevent : ∀ key, start.event key = none := by
    intro key
    unfold ExperimentDb.event
    rw [hevents]
    rfl
  have hstatus : ∀ item ∈ start.items, (item.phase = "oos" → item.status = .blockedSelection) ∧
      (item.phase ≠ "oos" → item.status = .pending) ∧ ∃ fold, item.fold = some fold := by
    intro item hitem
    rw [hrows] at hitem
    obtain ⟨row, -, rfl⟩ := List.mem_map.mp hitem
    exact ⟨fun hphase => if_pos hphase, fun hphase => if_neg hphase, _, rfl⟩
  refine ⟨(quarantine_created hcreate).1, ?_, ?_, ?_, ?_, ?_, ?_, ?_, ?_, ?_, ?_⟩
  · intro hresearch
    rw [hbatch] at hresearch
    exact absurd hresearch hkind
  · intro item hitem hblocked
    obtain ⟨-, hpending, fold, hfold⟩ := hstatus item hitem
    have hphase : item.phase = "oos" := by
      by_contra hother
      rw [hpending hother] at hblocked
      cases hblocked
    rw [hbatch]
    refine ⟨rfl, rfl, hphase, ⟨item.projectId, item.symbol, fold⟩, ?_, hevent _⟩
    unfold BatchItem.window
    rw [hfold, hphase]
    rfl
  · intro _ item hitem hphase key _ _
    exact (hstatus item hitem).1 hphase
  · intro item hitem hskipped
    obtain ⟨hblocked, hpending, -⟩ := hstatus item hitem
    by_cases hphase : item.phase = "oos"
    · cases (hblocked hphase).symm.trans hskipped.1
    · cases (hpending hphase).symm.trans hskipped.1
  · intro key event hsome
    rw [hevent] at hsome
    cases hsome
  · rw [hevaluations]
    exact List.nodup_nil
  · intro evaluation hmem
    rw [hevaluations] at hmem
    cases hmem
  · intro evaluation hmem
    rw [hevaluations] at hmem
    cases hmem
  · intro run hmem
    rw [hruns] at hmem
    cases hmem
  · exact fun _ => ⟨{}, hrun, rfl⟩

end Start

/-! ## What a refresh does to the items -/

/-- Every item is as before, or it was blocked and a selection released or skipped
it. -/
def Released (before after : ExperimentDb) : Prop :=
  ∀ item ∈ after.items, ∃ old ∈ before.items, item.plan = old.plan ∧
    (item = old ∨ old.status = .blockedSelection ∧
      (item.status = .pending ∨ SelectionSkipped item))

theorem refreshing_released : Refreshing Released where
  refl := fun _ item hitem => ⟨item, hitem, rfl, Or.inl rfl⟩
  trans := by
    intro a b c h h' item hitem
    obtain ⟨middle, hmiddle, hplan, hsame | ⟨hblocked, hreleased⟩⟩ := h' item hitem
    · rw [hsame]
      exact h middle hmiddle
    · obtain ⟨old, hold, hplan', hsame | ⟨-, hpending | hskipped⟩⟩ := h middle hmiddle
      · exact ⟨old, hold, hplan.trans hplan', Or.inr ⟨by rw [← hsame]; exact hblocked, hreleased⟩⟩
      · cases hpending.symm.trans hblocked
      · cases hskipped.1.symm.trans hblocked
  freeze := by
    intro objective items key selected ranking oos db db' hstep item hitem
    rw [hstep.items] at hitem
    obtain ⟨row, hrow, rfl⟩ := List.mem_map.mp hitem
    refine ⟨row, hrow, releaseItem_plan _ _ row, ?_⟩
    unfold releaseItem
    split
    · exact Or.inl rfl
    · split_ifs with hblocked
      · exact Or.inl rfl
      · exact Or.inr ⟨not_not.mp hblocked, Or.inl rfl⟩
      · exact Or.inr ⟨not_not.mp hblocked, Or.inr ⟨rfl, rfl⟩⟩
  storeStatus := fun _ _ item hitem => ⟨item, hitem, rfl, Or.inl rfl⟩
  walkForwardRun := fun _ _ item hitem => ⟨item, hitem, rfl, Or.inl rfl⟩

theorem Released.stays {before after : ExperimentDb} (h : Released before after)
    (hevolves : Evolves before after) (hids : Unique BatchItem.id before.items)
    {item : BatchItem} (hitem : item ∈ before.items) (hopen : item.status ≠ .blockedSelection) :
    item ∈ after.items := by
  obtain ⟨later, hlater, hplan⟩ := mem_of_planOf hevolves.items.symm hitem
  obtain ⟨old, hold, hplan', hcases⟩ := h later hlater
  have hsame : old = item := hids.eq hold hitem ((plan_id hplan').symm.trans (plan_id hplan))
  rcases hcases with hlaterOld | ⟨hblocked, -⟩
  · rw [← hsame, ← hlaterOld]
    exact hlater
  · rw [hsame] at hblocked
    exact absurd hblocked hopen

theorem advanceSelection_false {batch : Batch} {items : List BatchItem}
    (h : (advanceSelection batch items db).value = .ok false) :
    (advanceSelection batch items db).state = db := by
  have hkey : ∀ (key : WindowKey) (t : ExperimentDb),
      (TxM.tx (freezeWindow batch.objective items key) t).value = .ok false →
        (TxM.tx (freezeWindow batch.objective items key) t).state = t := by
    intro key t hvalue
    unfold TxM.tx at hvalue ⊢
    cases hrun : freezeWindow batch.objective items key t with
    | error e => rfl
    | ok result =>
      obtain ⟨answer, t'⟩ := result
      rw [hrun] at hvalue
      rcases freezeWindow_cases hrun with ⟨-, hsame⟩ | ⟨htrue, -⟩
      · exact hsame
      · cases htrue.symm.trans (Except.ok.inj hvalue)
  unfold advanceSelection at h ⊢
  split_ifs at h ⊢
  · rfl
  · obtain ⟨changed, hchanged, hanswer⟩ := bind_value_ok h
    rw [bind_ok hchanged]
    exact forEach_unchanged hkey _ _ changed hchanged (Except.ok.inj hanswer)

/-- What `refresh` writes after the selection, and when it returns. -/
structure Published (db t u : ExperimentDb) (result : Except BatchError Unit) : Prop where
  items : u.items = t.items
  status : u.batch.status = refreshStatus db.batch.cancelRequested t.items
  returns : (refreshStatus db.batch.cancelRequested t.items = "success" →
    db.batch.mode = "walk_forward" →
      ∃ certificate, issueCertificate (storeStatus "success" t) = .ok certificate) →
    result = .ok ()

theorem published_refresh {changed : Bool}
    (h : (advanceSelection db.batch db.items db).value = .ok changed) :
    Published db (advanceSelection db.batch db.items db).state (refresh db).state
      (refresh db).value := by
  generalize ht : (advanceSelection db.batch db.items db).state = t
  have hcurrent : wp (fun _ => True) (currentItems changed db.items)
      (fun r u => r = .ok t.items ∧ u = t) t := by
    unfold currentItems
    split_ifs with hchanged
    · exact wp_read ⟨rfl, rfl⟩
    · have hsame : t = db := by
        rw [← ht]
        exact advanceSelection_false (by rw [h, Bool.eq_false_iff.mpr hchanged])
      exact wp_pure ⟨by rw [hsame], rfl⟩
  have hpublish : wp (fun _ => True)
      (publishStatus db.batch (refreshStatus db.batch.cancelRequested t.items))
      (fun r u => Published db t u r) t := by
    generalize hstatus : refreshStatus db.batch.cancelRequested t.items = status
    refine wp_bind (wp_write trivial ?_)
    show wp _ (if _ then _ else _) _ _
    split_ifs with hsuccess
    · obtain ⟨rfl, hmode⟩ := hsuccess
      refine wp_bind (wp_tx (fun certificate u hrun => ⟨trivial, ?_⟩) (fun e hrun => ?_))
      · obtain ⟨run, rfl⟩ := issueCertificate_rows hrun
        exact wp_pure ⟨rfl, hstatus.symm, fun _ => rfl⟩
      · refine ⟨rfl, hstatus.symm, fun hissued => ?_⟩
        obtain ⟨certificate, hcertificate⟩ := hissued hstatus hmode
        rw [hcertificate] at hrun
        cases hrun
    · exact wp_pure ⟨rfl, hstatus.symm, fun _ => rfl⟩
  have hwp : wp (fun _ => True) refresh (fun r u => Published db t u r) db := by
    refine wp_bind (wp_read (wp_bind ⟨fun _ _ => trivial, ?_⟩))
    simp only [h, ht]
    refine wp_bind (wp_mono hcurrent (fun _ h => h) ?_)
    rintro r u ⟨rfl, rfl⟩
    exact hpublish
  exact hwp.2

/-! ## A finished batch -/

/-- When no item waits after `refresh`, it set a final status, and it raised neither
before that nor in the certificate of a successful batch. -/
def RefreshSound (db : ExperimentDb) : Prop :=
  (∀ item ∈ (refresh db).state.items, item.status ∉ waiting) →
    (refresh db).value = .ok () ∧ (refresh db).state.batch.status ∉ ["queued", "running"]

/-- The validation items of the window can be ranked. -/
def Ready (db : ExperimentDb) (key : WindowKey) : Prop :=
  viewsOf db.items key ≠ [] ∧ AllSucceeded (viewsOf db.items key) ∧
    AllValued db.batch.objective (rowsOf (viewsOf db.items key))

/-- What a refresh of a finished batch needs: the metrics of its windows can be
read, and the blocked items, if there are any and no item failed, are not all of
windows that cannot be ranked. -/
structure RefreshReady (db : ExperimentDb) : Prop where
  counted : ∀ key ∈ groupKeys db.items, AllSucceeded (viewsOf db.items key) →
    Counted db.batch.objective (viewsOf db.items key)
  ready : (∃ item ∈ db.items, item.status = .failed) ∨
    (∀ item ∈ db.items, item.status ≠ .blockedSelection) ∨
      ∃ item ∈ db.items, item.status = .blockedSelection ∧
        ∃ key ∈ item.window, Ready db key

section Finished

variable {start db : ExperimentDb}

theorem certifiable_of_success (hplanned : Planned start) (hevolves : Evolves start db)
    (h : Evidence db)
    (hsuccess : ∀ item ∈ db.items, item.status = .success ∨ SelectionSkipped item) :
    db.windows ≠ [] ∧ ∀ window ∈ db.windows, Certifiable db window.key := by
  have hkeys : db.windows.map Window.key = groupKeys start.items :=
    hevolves.windows.trans hplanned.windows
  refine ⟨?_, fun window hwindow => ?_⟩
  · rintro hnil
    rw [hnil] at hkeys
    exact hplanned.items hkeys.symm
  · generalize hkey : window.key = key
    have hmem : key ∈ groupKeys start.items := by
      rw [← hkeys, ← hkey]
      exact List.mem_map_of_mem hwindow
    obtain ⟨item, hitem, hitemKey⟩ := mem_groupKeys.mp hmem
    obtain ⟨planned, hplannedItem, hplannedKey, hplannedPhase⟩ :=
      hplanned.oosItems item hitem key hitemKey
    obtain ⟨oos, hoos, hplan⟩ := mem_of_planOf hevolves.items.symm hplannedItem
    have hoosPhase : oos.phase = "oos" := (plan_phase hplan).trans hplannedPhase
    have hoosKey : oos.window = some key := (plan_window hplan).trans hplannedKey
    have hevent : ∃ event, db.event key = some event := by
      rcases hsuccess oos hoos with hstatus | hskipped
      · have hlicensed := h.quarantine.items oos hoos (by rw [hstatus]; decide)
        obtain ⟨event, hevent, -⟩ := hlicensed oos hoos rfl hoosPhase key hoosKey
        exact ⟨event, hevent⟩
      · obtain ⟨key', event, hkey', hevent, -⟩ := h.skipped oos hoos hskipped
        rw [hoosKey] at hkey'
        exact ⟨event, by rw [Option.some.inj hkey']; exact hevent⟩
    obtain ⟨event, hevent⟩ := hevent
    obtain ⟨evaluation, hevaluation, chosen, hchosen, hid, hphase, hchosenKey, hcandidate⟩ :=
      h.evaluated key event hevent
    refine ⟨?_, ⟨event, hevent⟩, evaluation, hevaluation, ?_⟩
    · have hcheck : (key, "ALLOW") ∈ db.leakageChecks := by
        rw [hevolves.leakageChecks, hplanned.leakageChecks]
        exact List.mem_map_of_mem hmem
      cases hfind : db.leakageChecks.find? (fun check => check.1 == key) with
      | none =>
        have hother := List.find?_eq_none.mp hfind _ hcheck
        simp at hother
      | some check =>
        refine ⟨check, rfl, ?_⟩
        have hfound := List.mem_of_find?_eq_some hfind
        rw [hevolves.leakageChecks, hplanned.leakageChecks] at hfound
        obtain ⟨_, -, rfl⟩ := List.mem_map.mp hfound
        rfl
    · rcases hsuccess chosen hchosen with hstatus | hskipped
      · exact h.settled evaluation (mem_of_find hevaluation) chosen hchosen hid hstatus
      · -- a selection does not skip the item that it chose
        obtain ⟨key', event', hkey', hevent', hother⟩ := h.skipped chosen hchosen hskipped
        rw [hchosenKey] at hkey'
        rw [← Option.some.inj hkey', hevent] at hevent'
        rw [← Option.some.inj hevent'] at hother
        exact absurd hcandidate hother

theorem eventAfter_of_ready {key : WindowKey} (hready : Ready db key)
    (hcounted : AllSucceeded (viewsOf db.items key) →
      Counted db.batch.objective (viewsOf db.items key)) :
    ∃ event, eventAfter db.batch.objective db.items db key = some event := by
  obtain ⟨hnonempty, hsucceeded, hvalued⟩ := hready
  unfold eventAfter
  cases db.event key with
  | some event => exact ⟨event, rfl⟩
  | none =>
    have hranking : frozenRanking db.batch.objective (viewsOf db.items key) =
        some (sortRanking db.batch.objective (rowsOf (viewsOf db.items key))) := by
      unfold frozenRanking
      rw [if_neg]
      rintro (hnil | hopen | hopen)
      · exact hnonempty hnil
      · exact hopen hsucceeded
      · exact hopen hvalued
    unfold frozenEvent
    rw [hranking]
    cases hsorted : sortRanking db.batch.objective (rowsOf (viewsOf db.items key)) with
    | cons selected rest => exact ⟨_, rfl⟩
    | nil =>
      exfalso
      obtain ⟨view, rest, hviews⟩ := List.exists_cons_of_ne_nil hnonempty
      have hview : view ∈ viewsOf db.items key := by
        rw [hviews]
        exact List.mem_cons_self
      obtain ⟨row, hrow⟩ :=
        Option.isSome_iff_exists.mp ((hcounted hsucceeded).violations view hview)
      have hmem : row ∈ rowsOf (viewsOf db.items key) := List.mem_filterMap.mpr ⟨view, hview, hrow⟩
      have hsortedMem : row ∈ sortRanking db.batch.objective (rowsOf (viewsOf db.items key)) :=
        (List.mergeSort_perm _ _).symm.subset hmem
      rw [hsorted] at hsortedMem
      cases hsortedMem

theorem RefreshReady.counted_all (h : RefreshReady db) (key : WindowKey) :
    AllSucceeded (viewsOf db.items key) → Counted db.batch.objective (viewsOf db.items key) := by
  refine forall_viewsOf (P := fun views => AllSucceeded views → Counted db.batch.objective views)
    (fun _ => ⟨?_, fun _ => ?_⟩) h.counted key
  · exact fun view hview => absurd hview List.not_mem_nil
  · exact fun row hrow => absurd hrow List.not_mem_nil

theorem advance_of_ready (hplanned : Planned start) (hevolves : Evolves start db)
    (hopen : db.batch.cancelRequested = false) (hready : RefreshReady db) :
    (∃ changed, (advanceSelection db.batch db.items db).value = .ok changed) ∧
      ∀ key, (advanceSelection db.batch db.items db).state.event key =
        eventAfter db.batch.objective db.items db key := by
  have hmode : db.batch.mode = "walk_forward" := hevolves.mode.trans hplanned.mode
  refine advanceSelection_total ?_ (hplanned.plannedWindows db hevolves)
    (fun key => clears_of_counted (hready.counted_all key))
  simp [hmode, hopen]

theorem finished_of_ready (hplanned : Planned start) (hevolves : Evolves start db)
    (h : Evidence db) (hopen : db.batch.cancelRequested = false) (hready : RefreshReady db)
    (hwaiting : ∀ item ∈ (advanceSelection db.batch db.items db).state.items,
      item.status ∉ waiting) :
    (∃ item ∈ (advanceSelection db.batch db.items db).state.items, item.status = .failed) ∨
      ∀ item ∈ (advanceSelection db.batch db.items db).state.items,
        item.status ≠ .blockedSelection := by
  have htotal := advance_of_ready hplanned hevolves hopen hready
  have hafter := (h.advance db.batch rfl).2
  have hreleased := (refreshing_released.advanceSelection refreshing_released.within db.batch
    db.items db).2
  have hlater := (transactional_evolves.advanceSelection transactional_evolves.within db.batch
    db.items db).2
  generalize (advanceSelection db.batch db.items db).state = t at *
  rcases hready.ready with ⟨item, hitem, hfailed⟩ | hnone | ⟨item, hitem, hblocked, key, hkey, hrank⟩
  · refine Or.inl ⟨item, hreleased.stays hlater h.quarantine.ids hitem ?_, hfailed⟩
    rw [hfailed]
    exact ItemStatus.noConfusion
  · refine Or.inr (fun item hitem hblocked => ?_)
    obtain ⟨old, hold, -, rfl | ⟨hwasBlocked, -⟩⟩ := hreleased item hitem
    · exact hnone item hold hblocked
    · exact hnone old hold hwasBlocked
  · -- the item that is chosen in this window waits now
    exfalso
    obtain ⟨-, -, -, key', hkey', hunfrozen⟩ := h.blocked item hitem hblocked
    rw [hkey] at hkey'
    obtain rfl := Option.some.inj hkey'
    obtain ⟨event, hevent⟩ := eventAfter_of_ready hrank (hready.counted_all key)
    rw [← htotal.2] at hevent
    obtain ⟨evaluation, -, chosen, hchosen, -, hphase, hchosenKey, hcandidate⟩ :=
      hafter.evaluated key event hevent
    obtain ⟨old, hold, hplan, hcases⟩ := hreleased chosen hchosen
    have hwasBlocked : old.status = .blockedSelection :=
      h.gated ⟨item, hitem, hblocked⟩ old hold ((plan_phase hplan).symm.trans hphase) key
        ((plan_window hplan).symm.trans hchosenKey) hunfrozen
    rcases hcases with rfl | ⟨-, hpending | hskipped⟩
    · obtain ⟨-, -, -, key', hkey', hnone⟩ := hafter.blocked chosen hchosen hwasBlocked
      rw [hchosenKey] at hkey'
      rw [← Option.some.inj hkey', hevent] at hnone
      cases hnone
    · exact hwaiting chosen hchosen (by rw [hpending]; decide)
    · obtain ⟨key', event', hkey', hevent', hother⟩ := hafter.skipped chosen hchosen hskipped
      rw [hchosenKey] at hkey'
      rw [← Option.some.inj hkey', hevent] at hevent'
      rw [← Option.some.inj hevent'] at hother
      exact hother hcandidate

theorem refreshSound_of_ready (hplanned : Planned start) (hevolves : Evolves start db)
    (h : Evidence db)
    (hready : (∀ item ∈ db.items, item.status ∉ waiting) → db.batch.cancelRequested = false →
      RefreshReady db) : RefreshSound db := by
  intro hwaiting
  have hmode : db.batch.mode = "walk_forward" := hevolves.mode.trans hplanned.mode
  have hafter := (h.advance db.batch rfl).2
  have hlater := (transactional_evolves.advanceSelection transactional_evolves.within db.batch
    db.items db).2
  have hids := h.quarantine.ids
  have hfinished : (∃ changed, (advanceSelection db.batch db.items db).value = .ok changed) ∧
      ((∃ item ∈ (advanceSelection db.batch db.items db).state.items, item.status = .failed) ∨
        ∀ item ∈ (advanceSelection db.batch db.items db).state.items,
          item.status ≠ .blockedSelection) := by
    cases hflag : db.batch.cancelRequested with
    | true =>
      have hadvance : advanceSelection db.batch db.items = pure false := by
        unfold advanceSelection
        rw [if_pos (Or.inr hflag)]
      rw [hadvance]
      refine ⟨⟨false, rfl⟩, Or.inr (fun item hitem hblocked => ?_)⟩
      obtain ⟨-, hcancel, -⟩ := h.blocked item hitem hblocked
      cases hflag.symm.trans hcancel
    | false =>
      -- an item that waits still waits after the refresh
      have hquiet : ∀ item ∈ db.items, item.status ∉ waiting := by
        intro item hitem hstatus
        refine hwaiting item ?_ hstatus
        refine (refreshing_released.refresh refreshing_released.within db).2.stays
          (transactional_evolves.refresh transactional_evolves.within db).2 hids hitem ?_
        intro hblocked
        rw [hblocked] at hstatus
        exact absurd hstatus (by decide)
      obtain ⟨changed, hchanged⟩ :=
        (advance_of_ready hplanned hevolves hflag (hready hquiet hflag)).1
      refine ⟨⟨changed, hchanged⟩,
        finished_of_ready hplanned hevolves h hflag (hready hquiet hflag) ?_⟩
      rw [← (published_refresh hchanged).items]
      exact hwaiting
  obtain ⟨⟨changed, hchanged⟩, hdone⟩ := hfinished
  have hpublished := published_refresh hchanged
  generalize (advanceSelection db.batch db.items db).state = t at *
  rw [hpublished.items] at hwaiting
  refine ⟨hpublished.returns (fun hsuccess _ => ?_), ?_⟩
  · obtain ⟨hwindows, hcertifiable⟩ := certifiable_of_success hplanned (hevolves.trans hlater)
      hafter (refreshStatus_success hsuccess)
    obtain ⟨run, hrun, hlineage⟩ := hafter.lineage (hlater.mode.trans hmode)
    have hstored : (storeStatus "success" t).walkForwardRun =
        some { run with status := "COMPLETED" } := by
      show Option.map _ t.walkForwardRun = _
      rw [hrun]
      rfl
    refine issueCertificate_ok hstored rfl hlineage hwindows (fun window hwindow => ?_)
    exact ⟨(hcertifiable window hwindow).leakage, (hcertifiable window hwindow).event,
      (hcertifiable window hwindow).evaluation⟩
  · rw [hpublished.status]
    exact refreshStatus_finished hwaiting hdone

end Finished

/-! ## Batches that are not `walk_forward` -/

def Unblocks (before after : ExperimentDb) : Prop :=
  (∀ item ∈ before.items, item.status ≠ .blockedSelection) →
    ∀ item ∈ after.items, item.status ≠ .blockedSelection

theorem unblocks_map {db' : ExperimentDb} {f : BatchItem → BatchItem}
    (hitems : db'.items = db.items.map f)
    (hf : ∀ item, item.status ≠ .blockedSelection → (f item).status ≠ .blockedSelection) :
    Unblocks db db' := by
  intro hopen item hitem
  rw [hitems] at hitem
  obtain ⟨row, hrow, rfl⟩ := List.mem_map.mp hitem
  exact hf row (hopen row hrow)

theorem transactional_unblocks : Transactional Unblocks where
  refl := fun _ => id
  trans := fun _ _ _ h h' hopen => h' (h hopen)
  freeze := by
    intro objective items key selected ranking oos db db' hstep hopen item hitem hblocked
    obtain ⟨old, hold, -, hsame | ⟨hwasBlocked, -⟩⟩ := refreshing_released.freeze hstep item hitem
    · rw [hsame] at hblocked
      exact hopen old hold hblocked
    · exact hopen old hold hwasBlocked
  updateItem := by
    intro itemId f _ hstatus db
    refine unblocks_map rfl (fun item hopen => ?_)
    split_ifs
    · exact hstatus item
    · exact hopen
  attempts := fun _ _ => id
  runs := fun _ _ => id
  storeStatus := fun _ _ => id
  walkForwardRun := fun _ _ => id
  persistOosEvaluation := by
    intro itemId run db hopen
    unfold persistOosEvaluation
    split <;> exact hopen
  cancelItems := by
    intro db
    refine unblocks_map rfl (fun item hopen => ?_)
    split_ifs
    · exact ItemStatus.noConfusion
    · exact hopen
  requeueItems := by
    intro statuses db
    refine unblocks_map rfl (fun item hopen => ?_)
    split_ifs
    · exact ItemStatus.noConfusion
    · exact hopen

theorem refreshSound_plain (hmode : db.batch.mode ≠ "walk_forward")
    (hopen : ∀ item ∈ db.items, item.status ≠ .blockedSelection) : RefreshSound db := by
  intro hwaiting
  have hadvance : advanceSelection db.batch db.items = pure false := by
    unfold advanceSelection
    rw [if_pos (Or.inl hmode)]
  have hvalue : (advanceSelection db.batch db.items db).value = .ok false := by
    rw [hadvance]
    rfl
  have hpublished := published_refresh hvalue
  rw [advanceSelection_false hvalue] at hpublished
  rw [hpublished.items] at hwaiting
  refine ⟨hpublished.returns (fun _ hother => absurd hother hmode), ?_⟩
  rw [hpublished.status]
  exact refreshStatus_finished hwaiting (Or.inr hopen)

/-! ## Every run -/

/-- What the steps of a run may do in a walk-forward batch. -/
def KeepsTerminal (db : ExperimentDb) (step : BatchStep) : Prop :=
  db.batch.mode = "walk_forward" →
    match step with
    | .refresh => (∀ item ∈ db.items, item.status ∉ waiting) →
        db.batch.cancelRequested = false → RefreshReady db
    | step => KeepsEvidence db step

theorem KeepsTerminal.keepsEvidence {step : BatchStep} (h : KeepsTerminal db step)
    (hmode : db.batch.mode = "walk_forward") : KeepsEvidence db step := by
  have hstep := h hmode
  cases step with
  | refresh => trivial
  | dispatchItem env batch item => trivial
  | deliver runId status error statistics => exact hstep
  | deliverFirst runId status error statistics => exact hstep
  | finishItem itemId statistics error => trivial
  | cancelItems => trivial
  | cancelBacktest runId => trivial
  | requeueFailed => trivial
  | requeueCancelled => exact hstep

instance (db : ExperimentDb) (key : WindowKey) : Decidable (Ready db key) :=
  inferInstanceAs (Decidable (_ ∧ _ ∧ _))

instance (db : ExperimentDb) : Decidable (RefreshReady db) :=
  decidable_of_iff
    ((∀ key ∈ groupKeys db.items, AllSucceeded (viewsOf db.items key) →
        Counted db.batch.objective (viewsOf db.items key)) ∧
      ((∃ item ∈ db.items, item.status = .failed) ∨
        (∀ item ∈ db.items, item.status ≠ .blockedSelection) ∨
          ∃ item ∈ db.items, item.status = .blockedSelection ∧
            ∃ key ∈ item.window, Ready db key))
    ⟨fun h => ⟨h.1, h.2⟩, fun h => ⟨h.counted, h.ready⟩⟩

instance (db : ExperimentDb) (step : BatchStep) : Decidable (KeepsEvidence db step) := by
  cases step <;> unfold KeepsEvidence <;> infer_instance

instance (db : ExperimentDb) (step : BatchStep) : Decidable (KeepsTerminal db step) := by
  cases step <;> unfold KeepsTerminal <;> infer_instance

instance (db : ExperimentDb) (step : BatchStep) : Decidable (stepMachine.allowed db step) := by
  cases step <;> infer_instance

instance (db : ExperimentDb) : Decidable (RefreshSound db) :=
  inferInstanceAs (Decidable (_ → _ ∧ _))

/-- The train and validation items of the batch of two candidates are dispatched
and report, the last one with a status and results of its own. -/
def reportedSteps (status : String) (last : Statistics) : List BatchStep :=
  (twoCandidateBatch.items.take 4).map (.dispatchItem acceptingEnv twoCandidateBatch.batch) ++
    [.deliver "run-0" "success" none [("Sharpe Ratio", .text "1.5")],
      .deliver "run-1" "success" none [("Sharpe Ratio", .text "0.5")],
      .deliver "run-2" "success" none [("Sharpe Ratio", .text "1.2")],
      .deliver "run-3" status none last]

theorem created_twoCandidates : Created twoCandidateBatch :=
  .walkForward (by decide) (by decide) created_twoCandidateBatch

end LocalPlatform.Experiments
