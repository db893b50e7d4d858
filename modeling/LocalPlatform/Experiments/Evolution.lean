import LocalPlatform.Experiments.Calls

/-!
# What every call keeps

A call changes the status of items, but never which items, windows and
candidates the batch has, and a selection event is written once.

* `Evolves` relates two states of one batch.
* `FreezeStep` says what the transaction of a window does when it freezes it.
* `Refreshing` and `Updating` say that a preorder holds of every transaction.
  Every program of `Calls` is then composed of transactions within it, and
  `Evolves` is one such preorder.
-/

namespace LocalPlatform.Experiments

open Paper Transaction Transaction.TxM Machines Tables

/-! ## The plan of a batch -/

/-- The columns of an item that no call writes. -/
structure ItemPlan where
  id : Nat
  projectId : String
  symbol : String
  fold : Option Int
  phase : String
  candidateKey : Option String
  overrides : Overrides
  deriving DecidableEq

def BatchItem.plan (item : BatchItem) : ItemPlan where
  id := item.id
  projectId := item.projectId
  symbol := item.symbol
  fold := item.fold
  phase := item.phase
  candidateKey := item.candidateKey
  overrides := item.overrides

/-- The items of a list, without what happened to them. -/
def planOf (items : List BatchItem) : List ItemPlan := items.map BatchItem.plan

theorem plan_id {a b : BatchItem} (h : a.plan = b.plan) : a.id = b.id := congrArg ItemPlan.id h

theorem plan_phase {a b : BatchItem} (h : a.plan = b.plan) : a.phase = b.phase :=
  congrArg ItemPlan.phase h

theorem plan_window {a b : BatchItem} (h : a.plan = b.plan) : a.window = b.window := by
  unfold BatchItem.window
  rw [show a.fold = b.fold from congrArg ItemPlan.fold h, plan_phase h,
    show a.projectId = b.projectId from congrArg ItemPlan.projectId h,
    show a.symbol = b.symbol from congrArg ItemPlan.symbol h]

theorem plan_candidate {a b : BatchItem} (h : a.plan = b.plan) : a.candidate = b.candidate := by
  unfold BatchItem.candidate
  rw [show a.candidateKey = b.candidateKey from congrArg ItemPlan.candidateKey h]

theorem planOf_map {f : BatchItem → BatchItem} (hf : ∀ item, (f item).plan = item.plan)
    (items : List BatchItem) : planOf (items.map f) = planOf items := by
  unfold planOf
  rw [List.map_map]
  exact List.map_congr_left (fun item _ => hf item)

theorem mem_of_planOf {a b : List BatchItem} (h : planOf a = planOf b) {item : BatchItem}
    (hmem : item ∈ a) : ∃ item' ∈ b, item'.plan = item.plan := by
  have hplan : item.plan ∈ planOf b := by
    rw [← h]
    exact List.mem_map_of_mem hmem
  exact List.mem_map.mp hplan

/-- The columns that the name of a candidate is made of. -/
def Candidate.name (candidate : Candidate) : WindowKey × String :=
  (candidate.window, candidate.candidateKey)

/-- Two states of one batch, the second one later. -/
structure Evolves (before after : ExperimentDb) : Prop where
  items : planOf after.items = planOf before.items
  events : before.events <+: after.events
  windows : after.windows.map Window.key = before.windows.map Window.key
  candidates : after.candidates.map Candidate.name = before.candidates.map Candidate.name
  leakageChecks : after.leakageChecks = before.leakageChecks
  kind : after.batch.kind = before.batch.kind
  mode : after.batch.mode = before.batch.mode
  objective : after.batch.objective = before.batch.objective

theorem Evolves.refl (db : ExperimentDb) : Evolves db db :=
  ⟨rfl, List.prefix_rfl, rfl, rfl, rfl, rfl, rfl, rfl⟩

theorem Evolves.trans {a b c : ExperimentDb} (h : Evolves a b) (h' : Evolves b c) : Evolves a c :=
  ⟨h'.items.trans h.items, h.events.trans h'.events, h'.windows.trans h.windows,
    h'.candidates.trans h.candidates, h'.leakageChecks.trans h.leakageChecks,
    h'.kind.trans h.kind, h'.mode.trans h.mode, h'.objective.trans h.objective⟩

variable {key : WindowKey}

theorem Evolves.event {a b : ExperimentDb} (h : Evolves a b) {event : SelectionEvent}
    (hevent : a.event key = some event) : b.event key = some event := by
  obtain ⟨later, hlater⟩ := h.events
  unfold ExperimentDb.event Tables.find at hevent ⊢
  rw [← hlater, List.find?_append, hevent]
  rfl

/-! ## The transaction of a window -/

theorem releaseItem_plan (selectedKey : String) (oosItems : List BatchItem) (row : BatchItem) :
    (releaseItem selectedKey oosItems row).plan = row.plan := by
  unfold releaseItem
  split
  · rfl
  · split_ifs <;> rfl

theorem storeCandidate_names {candidates candidates' : List Candidate} {ranked : RankingRow × Nat}
    (h : storeCandidate key candidates ranked = .ok candidates') :
    candidates'.map Candidate.name = candidates.map Candidate.name := by
  unfold storeCandidate at h
  simp only at h
  split at h
  · cases h
  · split at h
    · cases h
    · rw [← Except.ok.inj h, List.map_map]
      refine List.map_congr_left (fun candidate _ => ?_)
      show Candidate.name (if _ then _ else _) = _
      split_ifs <;> rfl

theorem foldlM_storeCandidate_names : ∀ (ranking : List (RankingRow × Nat))
    {candidates candidates' : List Candidate},
    ranking.foldlM (storeCandidate key) candidates = .ok candidates' →
      candidates'.map Candidate.name = candidates.map Candidate.name := by
  intro ranking
  induction ranking with
  | nil =>
    intro candidates candidates' h
    rw [← Except.ok.inj h]
  | cons ranked rest ih =>
    intro candidates candidates' h
    rw [List.foldlM_cons] at h
    cases hstore : storeCandidate key candidates ranked with
    | error e =>
      rw [hstore] at h
      cases h
    | ok stored =>
      rw [hstore] at h
      exact (ih h).trans (storeCandidate_names hstore)

/-- What a window is frozen from, and what is written. -/
structure FreezeStep (objective : Objective) (items : List BatchItem) (key : WindowKey)
    (selected : RankingRow) (ranking : List RankingRow) (oos : BatchItem)
    (db db' : ExperimentDb) : Prop where
  ranked : rankValidation objective (phaseItems items key "validation") = .ok (some ranking)
  head : ranking.head? = some selected
  unfrozen : db.event key = none
  oosItem : oos ∈ phaseItems items key "oos" ∧ oos.candidate = selected.candidateKey
  items : db'.items = db.items.map
    (releaseItem selected.candidateKey (phaseItems items key "oos"))
  events : db'.events = db.events ++ [selectionEvent objective key selected ranking]
  evaluations : ∃ oosInput, db'.evaluations = db.evaluations ++
    [{ window := key
       selectedCandidate := selected.candidateKey
       oosItemId := oos.id
       oosInput := oosInput }]
  windows : db'.windows.map Window.key = db.windows.map Window.key
  candidates : db'.candidates.map Candidate.name = db.candidates.map Candidate.name
  batch : db'.batch = db.batch
  attempts : db'.attempts = db.attempts
  runs : db'.runs = db.runs
  leakageChecks : db'.leakageChecks = db.leakageChecks
  walkForwardRun : db'.walkForwardRun =
    db.walkForwardRun.map (fun run => { run with status := "OOS_PENDING" })

variable {db db' : ExperimentDb}

theorem freezeWindow_cases {objective : Objective} {items : List BatchItem} {changed : Bool}
    (h : freezeWindow objective items key db = .ok (changed, db')) :
    (changed = false ∧ db' = db) ∨
      (changed = true ∧ ∃ selected ranking oos,
        FreezeStep objective items key selected ranking oos db db') := by
  unfold freezeWindow at h
  split at h
  · cases h
  · obtain ⟨rfl, rfl⟩ := ok_inj h
    exact Or.inl ⟨rfl, rfl⟩
  · rename_i ranking hranked
    cases ranking with
    | nil =>
      obtain ⟨rfl, rfl⟩ := ok_inj h
      exact Or.inl ⟨rfl, rfl⟩
    | cons selected rest =>
      simp only at h
      split_ifs at h with hwindow hevent
      · obtain ⟨rfl, rfl⟩ := ok_inj h
        exact Or.inl ⟨rfl, rfl⟩
      · split at h
        · cases h
        · rename_i candidates hcandidates
          split at h
          · cases h
          · rename_i stored hstored
            obtain ⟨rfl, rfl⟩ := ok_inj h
            unfold storeSelection at hstored
            split at hstored
            · cases hstored
            · rename_i oos hoos
              have hmem := List.mem_filter.mp (List.mem_of_getLast? hoos)
              have hdb := Except.ok.inj hstored
              refine Or.inr ⟨rfl, selected, selected :: rest, oos, ?_⟩
              rw [← hdb]
              refine ⟨hranked, rfl, by simpa using hevent, ⟨hmem.1, by simpa using hmem.2⟩,
                rfl, rfl, ⟨_, rfl⟩, ?_, foldlM_storeCandidate_names _ hcandidates,
                rfl, rfl, rfl, rfl, rfl⟩
              rw [List.map_map]
              refine List.map_congr_left (fun window _ => ?_)
              show Window.key (if window.key = key then _ else window) = _
              split_ifs <;> rfl
      · obtain ⟨rfl, rfl⟩ := ok_inj h
        exact Or.inl ⟨rfl, rfl⟩

theorem FreezeStep.evolves {objective : Objective} {items : List BatchItem} {selected : RankingRow}
    {ranking : List RankingRow} {oos : BatchItem}
    (h : FreezeStep objective items key selected ranking oos db db') : Evolves db db' := by
  refine ⟨?_, ?_, h.windows, h.candidates, h.leakageChecks, ?_, ?_, ?_⟩
  · rw [h.items]
    exact planOf_map (releaseItem_plan _ _) _
  · rw [h.events]
    exact List.prefix_append _ _
  all_goals rw [h.batch]

/-! ## The other transactions -/

theorem evolves_updateItem (itemId : Nat) {f : BatchItem → BatchItem}
    (hf : ∀ item, (f item).plan = item.plan) (db : ExperimentDb) :
    Evolves db (updateItem itemId f db) := by
  refine ⟨planOf_map (fun item => ?_) db.items, List.prefix_rfl, rfl, rfl, rfl, rfl, rfl, rfl⟩
  split_ifs
  · exact hf item
  · rfl

theorem evolves_attempts (db : ExperimentDb) (attempts : List ItemAttempt) :
    Evolves db { db with attempts := attempts } :=
  ⟨rfl, List.prefix_rfl, rfl, rfl, rfl, rfl, rfl, rfl⟩

theorem evolves_runs (db : ExperimentDb) (runs : List BacktestRun) :
    Evolves db { db with runs := runs } :=
  ⟨rfl, List.prefix_rfl, rfl, rfl, rfl, rfl, rfl, rfl⟩

theorem evolves_storeStatus (status : String) (db : ExperimentDb) :
    Evolves db (storeStatus status db) := ⟨rfl, List.prefix_rfl, rfl, rfl, rfl, rfl, rfl, rfl⟩

theorem issueCertificate_rows {certificate : List CertifiedWindow}
    (h : issueCertificate db = .ok (certificate, db')) :
    ∃ run, db' = { db with walkForwardRun := run } := by
  unfold issueCertificate at h
  split at h
  · cases h
  · split at h
    · obtain ⟨-, rfl⟩ := ok_inj h
      exact ⟨_, rfl⟩
    · split_ifs at h
      split at h
      · cases h
      · obtain ⟨-, rfl⟩ := ok_inj h
        exact ⟨_, rfl⟩

theorem evolves_walkForwardRun (db : ExperimentDb) (run : Option WalkForwardRun) :
    Evolves db { db with walkForwardRun := run } :=
  ⟨rfl, List.prefix_rfl, rfl, rfl, rfl, rfl, rfl, rfl⟩

theorem evolves_persistOosEvaluation (itemId : Nat) (run : BacktestRun) (db : ExperimentDb) :
    Evolves db (persistOosEvaluation itemId run db) := by
  unfold persistOosEvaluation
  split
  · exact .refl db
  · refine ⟨rfl, List.prefix_rfl, ?_, rfl, rfl, rfl, rfl, rfl⟩
    rw [List.map_map]
    refine List.map_congr_left (fun window _ => ?_)
    show Window.key (if window.key = _ then _ else window) = _
    split_ifs <;> rfl

theorem evolves_updateRun (runId : String) (f : BacktestRun → BacktestRun) (db : ExperimentDb) :
    Evolves db (updateRun runId f db) := evolves_runs db _

theorem evolves_addRun (run : BacktestRun) (db : ExperimentDb) : Evolves db (addRun run db) :=
  evolves_runs db _

theorem evolves_cancelItems (db : ExperimentDb) : Evolves db (cancelItems db) := by
  refine ⟨planOf_map (fun item => ?_) db.items, List.prefix_rfl, rfl, rfl, rfl, rfl, rfl, rfl⟩
  split_ifs <;> rfl

theorem evolves_requeueItems (statuses : List ItemStatus) (db : ExperimentDb) :
    Evolves db (requeueItems statuses db) := by
  refine ⟨planOf_map (fun item => ?_) db.items, List.prefix_rfl, rfl, rfl, rfl, rfl, rfl, rfl⟩
  split_ifs <;> rfl

/-! ## Preorders of transactions -/

/-- A preorder that the transactions of `publishStatus` stay within. -/
structure Publishing (R : ExperimentDb → ExperimentDb → Prop) : Prop where
  refl : ∀ db, R db db
  trans : ∀ a b c, R a b → R b c → R a c
  storeStatus : ∀ status db, R db (storeStatus status db)
  walkForwardRun : ∀ db run, R db { db with walkForwardRun := run }

/-- A preorder that every transaction of `refresh` stays within. -/
structure Refreshing (R : ExperimentDb → ExperimentDb → Prop) : Prop extends Publishing R where
  freeze : ∀ {objective items key selected ranking oos db db'},
    FreezeStep objective items key selected ranking oos db db' → R db db'

/-- A preorder that the other transactions of the calls stay within.  No call
updates an item to wait for a selection. -/
structure Updating (R : ExperimentDb → ExperimentDb → Prop) : Prop where
  refl : ∀ db, R db db
  trans : ∀ a b c, R a b → R b c → R a c
  updateItem : ∀ itemId {f : BatchItem → BatchItem}, (∀ item, (f item).plan = item.plan) →
    (∀ item, (f item).status ≠ .blockedSelection) → ∀ db, R db (updateItem itemId f db)
  attempts : ∀ db attempts, R db { db with attempts := attempts }
  runs : ∀ db runs, R db { db with runs := runs }
  persistOosEvaluation : ∀ itemId run db, R db (persistOosEvaluation itemId run db)
  cancelItems : ∀ db, R db (cancelItems db)
  requeueItems : ∀ statuses db, R db (requeueItems statuses db)

/-- A preorder that every transaction of the calls stays within. -/
structure Transactional (R : ExperimentDb → ExperimentDb → Prop) : Prop
    extends Refreshing R, Updating R

theorem evolves_refl : ∀ db, Evolves db db := .refl

theorem evolves_trans : ∀ a b c, Evolves a b → Evolves b c → Evolves a c :=
  fun _ _ _ => .trans

theorem transactional_evolves : Transactional Evolves where
  refl := evolves_refl
  trans := evolves_trans
  freeze := FreezeStep.evolves
  updateItem := fun itemId _ hplan _ => evolves_updateItem itemId hplan
  attempts := evolves_attempts
  runs := evolves_runs
  storeStatus := evolves_storeStatus
  walkForwardRun := evolves_walkForwardRun
  persistOosEvaluation := evolves_persistOosEvaluation
  cancelItems := evolves_cancelItems
  requeueItems := evolves_requeueItems

theorem itemStatusOf_ne_blocked (status : String) : itemStatusOf status ≠ .blockedSelection := by
  unfold itemStatusOf
  split_ifs <;> decide

section Programs

variable {R : ExperimentDb → ExperimentDb → Prop}
  {W : ∀ {α : Type}, TxM ExperimentDb BatchError α → Prop}

theorem Publishing.within (h : Publishing R) : Composes R
    (fun {α} (m : TxM ExperimentDb BatchError α) => Within R m) :=
  composes_within h.refl h.trans

theorem composes_write (hW : Composes R W) {f : ExperimentDb → ExperimentDb}
    (hf : ∀ db, R db (f db)) : W (TxM.tx (fun db => (.ok ((), f db) : Except BatchError _))) := by
  refine hW.tx (fun db _ db' hrun => ?_)
  obtain ⟨-, rfl⟩ := ok_inj hrun
  exact hf db

theorem Publishing.issueCertificate (h : Publishing R) {db db' : ExperimentDb}
    {certificate : List CertifiedWindow}
    (hrun : issueCertificate db = .ok (certificate, db')) : R db db' := by
  obtain ⟨run, rfl⟩ := issueCertificate_rows hrun
  exact h.walkForwardRun db run

theorem Refreshing.advanceSelection (h : Refreshing R) (hW : Composes R W) (batch : Batch)
    (items : List BatchItem) : W (advanceSelection batch items) := by
  unfold Experiments.advanceSelection
  split_ifs
  · exact hW.pure false
  · refine hW.bind ?_ (fun _ => hW.pure _)
    refine hW.forEach _ (fun key _ => ?_)
    refine hW.tx (fun db changed db' hrun => ?_)
    rcases freezeWindow_cases hrun with ⟨-, rfl⟩ | ⟨-, selected, ranking, oos, hstep⟩
    · exact h.refl db'
    · exact h.freeze hstep

theorem Publishing.publishStatus (h : Publishing R) (hW : Composes R W) (batch : Batch)
    (status : String) : W (publishStatus batch status) := by
  refine hW.bind (composes_write hW (h.storeStatus status)) (fun _ => ?_)
  split_ifs
  · refine hW.bind ?_ (fun _ => hW.pure _)
    exact hW.tx (fun _ _ _ hrun => h.issueCertificate hrun)
  · exact hW.pure _

theorem Refreshing.refresh (h : Refreshing R) (hW : Composes R W) : W refresh := by
  refine hW.bind (hW.read _) (fun snapshot => ?_)
  refine hW.bind (h.advanceSelection hW _ _) (fun changed => ?_)
  refine hW.bind ?_ (fun current => h.publishStatus hW _ _)
  unfold currentItems
  split_ifs
  · exact hW.read _
  · exact hW.pure _

theorem composes_detail (hW : Composes R W) (hrefresh : W refresh) : W detail :=
  hW.bind hrefresh (fun _ => hW.read _)

theorem Updating.reconcileItem (h : Updating R) {run : BacktestRun} {itemId : Nat}
    {db db' : ExperimentDb} {u : Unit}
    (hrun : Experiments.reconcileItem run itemId db = .ok (u, db')) : R db db' := by
  unfold Experiments.reconcileItem at hrun
  split at hrun
  · cases hrun
  · obtain ⟨-, rfl⟩ := ok_inj hrun
    refine h.trans _ _ _ (h.updateItem itemId ?_ ?_ db) (h.attempts _ _)
    · exact fun _ => rfl
    · exact fun _ => itemStatusOf_ne_blocked run.status

theorem Updating.claimItem (h : Updating R) {itemId : Nat} {db db' : ExperimentDb} {claimed : Bool}
    (hrun : Experiments.claimItem itemId db = .ok (claimed, db')) : R db db' := by
  unfold Experiments.claimItem at hrun
  split at hrun
  · obtain ⟨-, rfl⟩ := ok_inj hrun
    exact h.refl db
  · split_ifs at hrun
    · obtain ⟨-, rfl⟩ := ok_inj hrun
      exact h.refl db
    · obtain ⟨-, rfl⟩ := ok_inj hrun
      refine h.updateItem itemId ?_ ?_ db
      · exact fun _ => rfl
      · exact fun _ => ItemStatus.noConfusion

theorem Updating.recordAttempt (h : Updating R) (item : BatchItem)
    (relatedId taskId : Option String) {status : ItemStatus}
    (hstatus : status ≠ .blockedSelection) (error : Option String) (db : ExperimentDb) :
    R db (recordAttempt item relatedId taskId status error db) := by
  refine h.trans _ _ _ (h.updateItem item.id ?_ ?_ db) (h.attempts _ _)
  · exact fun _ => rfl
  · exact fun _ => hstatus

/-! ## Programs -/

theorem Updating.reconcileBacktest (h : Updating R) (hW : Composes R W) (runId : String) :
    W (reconcileBacktest runId) := by
  refine hW.bind (hW.read _) (fun run => ?_)
  cases run with
  | none => exact hW.pure _
  | some run =>
    dsimp only
    cases run.batchItemId with
    | none => exact hW.pure _
    | some itemId =>
      exact hW.bind (hW.tx (fun _ _ _ hrun => h.reconcileItem hrun))
        (fun _ => composes_write hW (h.persistOosEvaluation itemId run))

theorem Updating.deliver (h : Updating R) (hW : Composes R W) (runId status : String)
    (error : Option String) (statistics : Statistics) : W (deliver runId status error statistics) :=
  hW.bind (composes_write hW (fun db => h.runs db _)) (fun _ => h.reconcileBacktest hW runId)

theorem Updating.dispatchItem (h : Updating R) (hW : Composes R W) (env : DispatchEnv)
    (batch : Batch) (item : BatchItem) : W (dispatchItem env batch item) := by
  have hfailed : ItemStatus.failed ≠ .blockedSelection := by decide
  have hqueued : ItemStatus.queued ≠ .blockedSelection := by decide
  refine hW.bind (hW.tx (fun _ _ _ hrun => h.claimItem hrun)) (fun claimed => ?_)
  split_ifs
  · unfold dispatchResearch
    cases env.publish item.id with
    | error message => exact composes_write hW (h.recordAttempt item _ _ hfailed _)
    | ok taskId => exact composes_write hW (h.recordAttempt item _ _ hqueued _)
  · unfold dispatchBacktest
    cases env.createRun item.id with
    | error message =>
      exact hW.bind (composes_write hW (fun db => h.runs db _))
        (fun _ => composes_write hW (h.recordAttempt item _ _ hfailed _))
    | ok run =>
      refine hW.bind (composes_write hW (fun db => h.runs db _)) (fun _ => ?_)
      refine hW.bind (composes_write hW (fun db => ?_)) (fun _ => ?_)
      · exact h.trans _ _ _ (h.runs db _) (h.recordAttempt item _ _ hqueued _ _)
      · cases env.publish item.id with
        | error message =>
          exact hW.bind (composes_write hW (fun db => h.runs db _))
            (fun _ => h.reconcileBacktest hW run.1)
        | ok _ => exact composes_write hW (fun db => h.runs db _)
  · exact hW.pure _

theorem Updating.dispatchWindow (h : Updating R) (hW : Composes R W) (hrefresh : W refresh)
    (env : DispatchEnv) : W (dispatchWindow env) := by
  refine hW.bind (composes_detail hW hrefresh) (fun snapshot => ?_)
  show W (if _ then _ else _)
  split_ifs
  · exact hW.pure _
  · refine hW.bind ?_ (fun _ => hrefresh)
    exact hW.forEach _ (fun item _ => h.dispatchItem hW env snapshot.1 item)

theorem Updating.cancelBacktest (h : Updating R) (hW : Composes R W) (runId : String) :
    W (cancelBacktest runId) := by
  refine hW.bind (hW.read _) (fun run => ?_)
  split_ifs
  · exact hW.pure _
  · refine hW.bind (composes_write hW (fun db => h.runs db _)) (fun _ => ?_)
    refine hW.bind ?_ (fun _ => hW.pure _)
    exact hW.attempt (h.reconcileBacktest hW runId)

theorem Updating.finishItem (h : Updating R) (hW : Composes R W) (itemId : Nat)
    (statistics : Statistics) (error : Option String) : W (finishItem itemId statistics error) := by
  refine hW.tx (fun db _ db' hrun => ?_)
  have hupdated : R db (Experiments.updateItem itemId (fun item =>
      { item with
        status := if error.any (· ≠ "") then .failed else .success
        statistics := statistics
        error := error }) db) := by
    refine h.updateItem itemId ?_ (fun item => ?_) db
    · exact fun _ => rfl
    · show (if error.any (· ≠ "") then ItemStatus.failed else .success) ≠ .blockedSelection
      split_ifs <;> decide
  simp only at hrun
  split at hrun
  · obtain ⟨-, rfl⟩ := ok_inj hrun
    exact hupdated
  · obtain ⟨-, rfl⟩ := ok_inj hrun
    exact h.trans _ _ _ hupdated (h.attempts _ _)

theorem Updating.program (h : Updating R) (hW : Composes R W) (hrefresh : W refresh)
    (action : BatchAction) : W action.program := by
  have hdispatch := h.dispatchWindow hW hrefresh
  cases action with
  | refresh => exact hrefresh
  | dispatchWindow env => exact hdispatch env
  | deliver runId status error statistics => exact h.deliver hW runId status error statistics
  | finishResearchItem itemId statistics error =>
    exact hW.bind (h.finishItem hW itemId statistics error) (fun _ => hrefresh)
  | cancel =>
    refine hW.bind (composes_detail hW hrefresh) (fun snapshot => ?_)
    refine hW.bind (composes_write hW h.cancelItems) (fun _ => ?_)
    refine hW.bind ?_ (fun _ => hrefresh)
    exact hW.forEach _ (fun runId _ => h.cancelBacktest hW runId)
  | retryFailed env =>
    refine hW.bind (composes_detail hW hrefresh) (fun snapshot => ?_)
    show W (if _ then _ else if _ then _ else _)
    split_ifs
    · exact hW.bind (composes_write hW (h.requeueItems _)) (fun _ => hdispatch env)
    · exact hW.fail _
    · exact hW.fail _
  | restartCancelled env =>
    refine hW.bind (composes_detail hW hrefresh) (fun snapshot => ?_)
    show W (if _ then _ else if _ then _ else _)
    split_ifs
    · exact hW.fail _
    · exact hW.bind (composes_write hW (h.requeueItems _)) (fun _ => hdispatch env)
    · exact hW.fail _

theorem Transactional.program (h : Transactional R) (action : BatchAction) :
    Within R action.program :=
  h.toUpdating.program h.within (h.refresh h.within) action

end Programs

/-! ## Every call -/

theorem evolves_issueCertificate {certificate : List CertifiedWindow}
    (h : issueCertificate db = .ok (certificate, db')) : Evolves db db' :=
  transactional_evolves.issueCertificate h

theorem evolves_reconcileItem {run : BacktestRun} {itemId : Nat} {u : Unit}
    (h : reconcileItem run itemId db = .ok (u, db')) : Evolves db db' :=
  transactional_evolves.reconcileItem h

theorem evolves_claimItem {itemId : Nat} {claimed : Bool}
    (h : claimItem itemId db = .ok (claimed, db')) : Evolves db db' :=
  transactional_evolves.claimItem h

theorem evolves_recordAttempt (item : BatchItem) (relatedId taskId : Option String)
    (status : ItemStatus) (error : Option String) (db : ExperimentDb) :
    Evolves db (recordAttempt item relatedId taskId status error db) := by
  refine (evolves_updateItem item.id ?_ db).trans (evolves_attempts _ _)
  exact fun _ => rfl

theorem within_program (action : BatchAction) : Within Evolves action.program :=
  transactional_evolves.program action

end LocalPlatform.Experiments
