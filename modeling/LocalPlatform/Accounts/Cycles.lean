import LocalPlatform.Accounts.Projection
import LocalPlatform.Lib.Exclusion

/-!
# Execution cycles of a Paper account

A broker delivers a cycle to a worker at least once.  The worker claims the
cycle (`claim_cycle_for_worker`), and `begin_cycle` looks for another cycle of
the account that is running or finalizing and backs off when there is one.

* `transitionCycle` and `claimCycleForWorker` are transactions on the table of
  cycles.  In one transaction the version that was read is the version that is
  updated, so the branch of a lost race is absent.
* A `Worker` is one delivery and the transaction it commits next.
  `CycleSystem` interleaves any number of them with the dispatchers.
* A running or finalizing cycle is a raised flag, and the busy check looks at
  the flags of the account.  `CycleStep.refines` reads every transaction as a
  step of the announce-then-check protocol or as no step at all.
-/

namespace LocalPlatform.Accounts

open Paper Transaction Exclusion

/-! ## Tables -/

/-- `CYCLE_STATES` -/
inductive CycleStatus where
  | scheduled
  | waitingData
  | queued
  | running
  | finalizing
  | succeeded
  | skipped
  | failed
  deriving DecidableEq

/-- `status in ('running','finalizing')` -/
def CycleStatus.isActive (status : CycleStatus) : Bool :=
  status == .running || status == .finalizing

/-- `CLAIMABLE_CYCLE_STATES` -/
def claimableCycleStates : List CycleStatus := [.queued, .scheduled, .waitingData]

/-- `CYCLE_STATES - TERMINAL_CYCLE_STATES` -/
def openCycleStates : List CycleStatus :=
  [.scheduled, .waitingData, .queued, .running, .finalizing]

/-- The payload of `input_fingerprint`. -/
structure CycleInput where
  paperAccountId : String := ""
  accountGeneration : Nat := 1
  deploymentId : String := ""
  tradingDate : String := ""
  strategyFingerprint : String := ""
  datasetFingerprint : String := ""
  accountOpeningCheckpointDigest : Option (Digest CheckpointState) := none
  diagnostic : Bool := false
  deriving DecidableEq

/-- The payload of the digest of a daily report. -/
structure AccountReport where
  accountId : String
  deploymentId : String
  cycleId : String
  tradingDate : String
  status : String := "succeeded"
  executionTiming : String := "next_open"
  benchmarkSymbol : String
  projection : AccountProjection
  deriving DecidableEq

/-- The payload of the `result_digest` of a finalized cycle.  A signal is named
by its row. -/
structure CycleOutcome where
  cycleId : String
  inputFingerprint : Digest CycleInput
  paperRunId : RunId
  signalIds : List Nat
  intentIds : List IntentId
  fillFingerprints : List (Digest FillFingerprint)
  projectionDigest : Digest CheckpointState
  reportDigest : Digest AccountReport
  deriving DecidableEq

/-- The columns that a finalized cycle gains.  A report is named by its row. -/
structure CycleResult where
  resultDigest : Digest CycleOutcome
  signalCount : Nat
  intentCount : Nat
  orderCount : Nat
  fillCount : Nat
  rejectedCount : Nat
  dailyReportId : Nat
  deriving DecidableEq

/-- `paper_execution_cycles`, as far as a delivery and a finalization read and
write it. -/
structure ExecutionCycle where
  id : String
  paperAccountId : String
  accountGeneration : Nat := 1
  deploymentId : String
  tradingDate : String
  status : CycleStatus
  attempt : Nat := 0
  version : Nat := 1
  inputFingerprint : Digest CycleInput := { payload := {} }
  skipReason : Option String := none
  failureCode : Option String := none
  failureDetail : Option String := none
  paperRunId : Option RunId := none
  leanRunId : Option String := none
  result : Option CycleResult := none
  deriving DecidableEq

/-- The `fields` of a transition; a missing one is left alone.  The columns of
a result come with empty failure columns. -/
structure CycleFields where
  attempt : Option Nat := none
  skipReason : Option String := none
  failureCode : Option String := none
  failureDetail : Option String := none
  result : Option CycleResult := none
  deriving DecidableEq

/-- The payload of a cycle event. -/
inductive CyclePayload where
  | empty
  | diagnostic (diagnostic : Bool)
  | fields (fields : CycleFields)
  | atLeastOnceDelivery
  | staleSeconds (seconds : Nat)
  | publishError (error : String)
  deriving DecidableEq

/-- `paper_execution_cycle_events` -/
structure CycleEvent where
  cycleId : String
  sequence : Nat
  fromStatus : Option CycleStatus
  toStatus : CycleStatus
  eventType : String
  payload : CyclePayload
  deriving DecidableEq

/-- The tables of the execution cycles. -/
structure CycleDb where
  cycles : List ExecutionCycle
  events : List CycleEvent
  deriving DecidableEq

/-- `select * from paper_execution_cycles where id=?` -/
def CycleDb.find (db : CycleDb) (id : String) : Option ExecutionCycle :=
  db.cycles.find? (fun cycle => cycle.id == id)

/-- `update paper_execution_cycles ... where id=?` -/
def CycleDb.put (db : CycleDb) (row : ExecutionCycle) : CycleDb :=
  { db with cycles := db.cycles.map (fun cycle => if cycle.id = row.id then row else cycle) }

/-- `_append_cycle_event` -/
def CycleDb.appendEvent (db : CycleDb) (cycleId : String) (fromStatus : Option CycleStatus)
    (toStatus : CycleStatus) (eventType : String) (payload : CyclePayload) : CycleDb :=
  let sequences := (db.events.filter (fun event => event.cycleId == cycleId)).map
    CycleEvent.sequence
  { db with
    events := db.events ++
      [{ cycleId := cycleId
         sequence := sequences.foldl max 0 + 1
         fromStatus := fromStatus
         toStatus := toStatus
         eventType := eventType
         payload := payload }] }

/-! ## Transactions -/

/-- The row that a transition writes. -/
def ExecutionCycle.moved (cycle : ExecutionCycle) (toStatus : CycleStatus)
    (fields : CycleFields) : ExecutionCycle :=
  { cycle with
    status := toStatus
    version := cycle.version + 1
    attempt := fields.attempt.getD cycle.attempt
    skipReason := fields.skipReason <|> cycle.skipReason
    failureCode :=
      if fields.result.isSome then none else fields.failureCode <|> cycle.failureCode
    failureDetail :=
      if fields.result.isSome then none else fields.failureDetail <|> cycle.failureDetail
    result := fields.result <|> cycle.result }

def cycleNotFound : AccountError := .paper (.keyError "Paper execution cycle not found.")

/-- `transition_cycle` -/
def transitionCycle (cycleId : String) (toStatus : CycleStatus) (eventType : String)
    (expected : List CycleStatus) (fields : CycleFields) (db : CycleDb) :
    Except AccountError (ExecutionCycle × CycleDb) :=
  match db.find cycleId with
  | none => .error cycleNotFound
  | some current =>
    if current.status ∉ expected then .ok (current, db)
    else if current.status = toStatus then .ok (current, db)
    else
      let updated := current.moved toStatus fields
      .ok (updated, (db.put updated).appendEvent cycleId (some current.status) toStatus eventType
        (.fields fields))

/-- `claim_cycle_for_worker` -/
def claimCycleForWorker (cycleId : String) (db : CycleDb) :
    Except AccountError ((Bool × ExecutionCycle) × CycleDb) :=
  match db.find cycleId with
  | none => .error cycleNotFound
  | some current =>
    if current.status ∉ claimableCycleStates then .ok ((false, current), db)
    else
      let claimed := current.moved .running { attempt := some (current.attempt + 1) }
      .ok ((true, claimed), (db.put claimed).appendEvent cycleId (some current.status) .running
        "worker_dispatch_claimed" .atLeastOnceDelivery)

/-- The busy check: another running or finalizing cycle of the account. -/
def conflictingCycle (db : CycleDb) (paperAccountId cycleId : String) : Option String :=
  (db.cycles.find? (fun cycle => cycle.paperAccountId == paperAccountId && cycle.id != cycleId &&
    cycle.status.isActive)).map ExecutionCycle.id

/-- `fail_cycle`, the part that moves the cycle. -/
def failCycle (cycleId failureCode detail : String) (db : CycleDb) :
    Except AccountError (ExecutionCycle × CycleDb) :=
  transitionCycle cycleId .failed "cycle_failed" openCycleStates
    { failureCode := some failureCode, failureDetail := some detail } db

/-- The transition that opens `finalize_cycle`. -/
def beginFinalization (cycleId : String) (db : CycleDb) :
    Except AccountError (ExecutionCycle × CycleDb) :=
  transitionCycle cycleId .finalizing "legacy_pipeline_finalized" [.running, .queued] {} db

/-- The transition that closes `finalize_cycle`. -/
def succeedCycle (cycleId : String) (result : CycleResult) (db : CycleDb) :
    Except AccountError (ExecutionCycle × CycleDb) :=
  transitionCycle cycleId .succeeded "cycle_reconciled" [.finalizing] { result := some result } db

/-- The update that names the runs of a begun cycle. -/
def attachRun (cycleId : String) (paperRunId : RunId) (leanRunId : Option String) (db : CycleDb) :
    Except AccountError (ExecutionCycle × CycleDb) :=
  match db.find cycleId with
  | none => .error cycleNotFound
  | some current =>
    let updated := { current with
      paperRunId := some paperRunId, leanRunId := leanRunId, version := current.version + 1 }
    .ok (updated, db.put updated)

/-! ## Workers -/

/-- What `guarded_begin_cycle` returns: the cycle with the status it shows. -/
inductive BeginResult where
  | duplicateDelivery (cycle : ExecutionCycle) (status : CycleStatus)
  | workerClaimed (cycle : ExecutionCycle)
  | raised (error : AccountError)
  deriving DecidableEq

/-- `_duplicate_delivery_result` -/
def duplicateDeliveryResult (cycle : ExecutionCycle) : BeginResult :=
  .duplicateDelivery cycle (if cycle.status.isActive then .skipped else cycle.status)

/-- A delivery of a cycle, by the transaction it commits next. -/
inductive Worker where
  | delivered (cycleId : String)
  | claimed (cycleId : String)
  | started (cycle : ExecutionCycle)
  | busy (cycleId conflict : String)
  | admitted (cycleId : String)
  | prepared (cycleId : String) (paperRunId : RunId) (leanRunId : Option String)
  | working (cycleId : String)
  | finalizing (cycleId : String)
  | returned (result : Option BeginResult)
  deriving DecidableEq

/-- How the session of a deployment and `create_walkforward_run` turn out. -/
inductive Preparation where
  | sessionMissing
  | raised (message : String)
  | ready (paperRunId : RunId) (leanRunId : Option String)

/-- Whether the message of an exception speaks of missing data. -/
def dataNotReady (message : String) : Bool :=
  ["data", "qa", "benchmark", "certif", "source", "reference"].any (mentions (lower message))

/-- The worker that ends with a transaction, and the database it leaves. -/
def finish (db : CycleDb) : Except AccountError (ExecutionCycle × CycleDb) → Worker × CycleDb
  | .ok (cycle, db') => (.returned (some (.workerClaimed cycle)), db')
  | .error e => (.returned (some (.raised e)), db)

/-- The next transaction of `guarded_begin_cycle`. -/
def Worker.advance (preparation : Preparation) (worker : Worker) (db : CycleDb) :
    Worker × CycleDb :=
  match worker with
  | .delivered cycleId =>
    match claimCycleForWorker cycleId db with
    | .ok ((true, _), db') => (.claimed cycleId, db')
    | .ok ((false, cycle), db') => (.returned (some (duplicateDeliveryResult cycle)), db')
    | .error e => (.returned (some (.raised e)), db)
  | .claimed cycleId =>
    match transitionCycle cycleId .running "worker_started" claimableCycleStates
        { attempt := some 1 } db with
    | .ok (cycle, db') => (.started cycle, db')
    | .error e => (.returned (some (.raised e)), db)
  | .started cycle =>
    match conflictingCycle db cycle.paperAccountId cycle.id with
    | some conflict => (.busy cycle.id conflict, db)
    | none => (.admitted cycle.id, db)
  | .busy cycleId conflict =>
    finish db (transitionCycle cycleId .waitingData "account_execution_busy" [.running]
      { failureCode := some "account_busy"
        failureDetail :=
          some s!"Account cycle {conflict} is still mutating account state." } db)
  | .admitted cycleId =>
    match preparation with
    | .sessionMissing =>
      finish db (failCycle cycleId "deployment_session_missing"
        "Frozen deployment session is unavailable." db)
    | .raised message =>
      if dataNotReady message then
        finish db (transitionCycle cycleId .waitingData "readiness_gate_blocked" [.running]
          { failureCode := some "data_not_ready", failureDetail := some message } db)
      else finish db (failCycle cycleId "lean_prepare_failed" message db)
    | .ready paperRunId leanRunId => (.prepared cycleId paperRunId leanRunId, db)
  | .prepared cycleId paperRunId leanRunId =>
    match attachRun cycleId paperRunId leanRunId db with
    | .ok (_, db') => (.working cycleId, db')
    | .error e => (.returned (some (.raised e)), db)
  | worker => (worker, db)

/-- How the workflow of a begun cycle goes on. -/
inductive Workflow where
  | succeeds
  | fails (detail : String)

/-- The next transaction of the workflow after `begin_cycle`. -/
def Worker.proceed (workflow : Workflow) (worker : Worker) (db : CycleDb) : Worker × CycleDb :=
  match worker, workflow with
  | .working cycleId, .succeeds =>
    match transitionCycle cycleId .finalizing "legacy_pipeline_finalized" [.running, .queued]
        {} db with
    | .ok (_, db') => (.finalizing cycleId, db')
    | .error e => (.returned (some (.raised e)), db)
  | .finalizing cycleId, .succeeds =>
    finish db (transitionCycle cycleId .succeeded "cycle_reconciled" [.finalizing] {} db)
  | .working cycleId, .fails detail => finish db (failCycle cycleId "worker_failed" detail db)
  | .finalizing cycleId, .fails detail => finish db (failCycle cycleId "worker_failed" detail db)
  | worker, _ => (worker, db)

/-! ## Interleavings -/

/-- The transitions of `run_now` and `schedule_due_deployments`. -/
inductive Dispatch where
  | runNow
  | nonTradingDay
  | beat
  | calendarClosed

/-- The transition of a dispatcher. -/
def Dispatch.run (dispatch : Dispatch) (cycleId : String) (db : CycleDb) :
    Except AccountError (ExecutionCycle × CycleDb) :=
  match dispatch with
  | .runNow => transitionCycle cycleId .queued "run_now_queued"
      [.scheduled, .waitingData, .failed] {} db
  | .nonTradingDay => transitionCycle cycleId .skipped "non_trading_day"
      [.scheduled, .waitingData] { skipReason := some "non_trading_day" } db
  | .beat => transitionCycle cycleId .queued "beat_dispatched" [.scheduled] {} db
  | .calendarClosed => transitionCycle cycleId .skipped "calendar_closed" [.scheduled]
      { skipReason := some "non_trading_day" } db

/-- The cycles and the deliveries, which are numbered. -/
structure CycleSystem where
  db : CycleDb
  workers : Nat → Worker

/-- Worker `n` committed its next transaction. -/
def CycleSystem.commit (system : CycleSystem) (n : Nat) (next : Worker × CycleDb) : CycleSystem where
  db := next.2
  workers := Function.update system.workers n next.1

/-- One committed transaction, or one delivery. -/
inductive CycleStep : CycleSystem → CycleSystem → Prop where
  | deliver (system : CycleSystem) (n : Nat) (cycleId : String) (result : Option BeginResult)
      (idle : system.workers n = .returned result) :
      CycleStep system (system.commit n (.delivered cycleId, system.db))
  | advance (system : CycleSystem) (n : Nat) (preparation : Preparation) :
      CycleStep system (system.commit n ((system.workers n).advance preparation system.db))
  | proceed (system : CycleSystem) (n : Nat) (workflow : Workflow) :
      CycleStep system (system.commit n ((system.workers n).proceed workflow system.db))
  | dispatch (system : CycleSystem) (dispatch : Dispatch) (cycleId : String) :
      CycleStep system { system with db := settle (dispatch.run cycleId) system.db }

/-! ## Statuses and accounts -/

def CycleDb.status (db : CycleDb) (id : String) : Option CycleStatus :=
  (db.find id).map ExecutionCycle.status

def CycleDb.account (db : CycleDb) (id : String) : Option String :=
  (db.find id).map ExecutionCycle.paperAccountId

variable {db : CycleDb} {cycle : ExecutionCycle}

theorem CycleDb.find_id {id : String} (h : db.find id = some cycle) : cycle.id = id := by
  simpa using List.find?_some h

theorem CycleDb.find_put {row : ExecutionCycle} (id : String) (h : (db.find row.id).isSome) :
    (db.put row).find id = if id = row.id then some row else db.find id := by
  have hids : (fun cycle : ExecutionCycle => cycle.id == id) ∘
      (fun cycle => if cycle.id = row.id then row else cycle) = fun cycle => cycle.id == id := by
    funext cycle
    by_cases hrow : cycle.id = row.id
    · simp [hrow]
    · simp [hrow]
  rw [CycleDb.find, CycleDb.put, List.find?_map, hids]
  show (db.find id).map _ = _
  by_cases hid : id = row.id
  · subst hid
    obtain ⟨cycle, hcycle⟩ := Option.isSome_iff_exists.mp h
    rw [if_pos rfl, hcycle, Option.map_some, if_pos (CycleDb.find_id hcycle)]
  · rw [if_neg hid]
    cases hcycle : db.find id with
    | none => rfl
    | some cycle =>
      rw [Option.map_some, if_neg]
      rw [CycleDb.find_id hcycle]
      exact hid

theorem CycleDb.put_columns {current : ExecutionCycle} (row : ExecutionCycle)
    (hfind : db.find row.id = some current) (haccount : row.paperAccountId = current.paperAccountId) :
    (db.put row).status = Function.update db.status row.id (some row.status) ∧
      (db.put row).account = db.account := by
  have hsome : (db.find row.id).isSome := by
    rw [hfind]
    rfl
  constructor
  · funext id
    rw [CycleDb.status, CycleDb.find_put id hsome]
    by_cases hid : id = row.id
    · rw [if_pos hid, hid, Function.update_self, Option.map_some]
    · rw [if_neg hid, Function.update_of_ne hid, CycleDb.status]
  · funext id
    rw [CycleDb.account, CycleDb.find_put id hsome]
    by_cases hid : id = row.id
    · rw [if_pos hid, hid, CycleDb.account, hfind, Option.map_some, Option.map_some, haccount]
    · rw [if_neg hid, CycleDb.account]

variable {cycleId : String}

theorem transitionCycle_cases {toStatus : CycleStatus} {eventType : String}
    {expected : List CycleStatus} {fields : CycleFields} {db' : CycleDb}
    (h : transitionCycle cycleId toStatus eventType expected fields db = .ok (cycle, db')) :
    ∃ status, db.status cycleId = some status ∧ cycle.id = cycleId ∧
      db.account cycleId = some cycle.paperAccountId ∧ db'.account = db.account ∧
      ((db'.status = db.status ∧ (status ∉ expected ∨ status = toStatus)) ∨
        (db'.status = Function.update db.status cycleId (some toStatus) ∧ status ∈ expected)) := by
  unfold transitionCycle at h
  split at h
  · cases h
  · rename_i current hfind
    have hid := CycleDb.find_id hfind
    have hstatus : db.status cycleId = some current.status := by
      rw [CycleDb.status, hfind, Option.map_some]
    have haccount : db.account cycleId = some current.paperAccountId := by
      rw [CycleDb.account, hfind, Option.map_some]
    have hrow : db.find (current.moved toStatus fields).id = some current := by
      rw [← hfind, ← hid]
      rfl
    split_ifs at h with hexpected hsame
    · obtain ⟨rfl, rfl⟩ := ok_inj h
      exact ⟨_, hstatus, hid, haccount, rfl, Or.inl ⟨rfl, Or.inr hsame⟩⟩
    · obtain ⟨rfl, rfl⟩ := ok_inj h
      have hput := CycleDb.put_columns _ hrow rfl
      refine ⟨_, hstatus, hid, haccount, hput.2, Or.inr ⟨?_, hexpected⟩⟩
      rw [← hid]
      exact hput.1
    · obtain ⟨rfl, rfl⟩ := ok_inj h
      exact ⟨_, hstatus, hid, haccount, rfl, Or.inl ⟨rfl, Or.inl hexpected⟩⟩

theorem claimCycleForWorker_cases {db' : CycleDb} {claimed : Bool}
    (h : claimCycleForWorker cycleId db = .ok ((claimed, cycle), db')) :
    (claimed = false ∧ db' = db) ∨
      (claimed = true ∧ db'.account = db.account ∧
        db'.status = Function.update db.status cycleId (some .running) ∧
        ∃ status ∈ claimableCycleStates, db.status cycleId = some status) := by
  unfold claimCycleForWorker at h
  split at h
  · cases h
  · rename_i current hfind
    have hid := CycleDb.find_id hfind
    have hrow : db.find (current.moved .running
        { attempt := some (current.attempt + 1) }).id = some current := by
      rw [← hfind, ← hid]
      rfl
    split_ifs at h with hclaimable
    · obtain ⟨hclaimed, rfl⟩ := ok_inj h
      have hput := CycleDb.put_columns _ hrow rfl
      refine Or.inr ⟨(Prod.mk.inj hclaimed).1.symm, hput.2, ?_, current.status, hclaimable, ?_⟩
      · rw [← hid]
        exact hput.1
      · rw [CycleDb.status, hfind, Option.map_some]
    · obtain ⟨hclaimed, rfl⟩ := ok_inj h
      exact Or.inl ⟨(Prod.mk.inj hclaimed).1.symm, rfl⟩

theorem attachRun_cases {paperRunId : RunId} {leanRunId : Option String} {db' : CycleDb}
    (h : attachRun cycleId paperRunId leanRunId db = .ok (cycle, db')) :
    db'.status = db.status ∧ db'.account = db.account := by
  unfold attachRun at h
  split at h
  · cases h
  · rename_i current hfind
    have hid := CycleDb.find_id hfind
    obtain ⟨-, rfl⟩ := ok_inj h
    have hrow : db.find current.id = some current := by rw [hid, hfind]
    have hput := CycleDb.put_columns
      { current with
        paperRunId := some paperRunId, leanRunId := leanRunId, version := current.version + 1 }
      hrow rfl
    refine ⟨?_, hput.2⟩
    rw [hput.1]
    apply Function.update_eq_self_iff.mpr
    show some current.status = db.status current.id
    rw [hid, CycleDb.status, hfind, Option.map_some]

theorem transitionCycle_error {toStatus : CycleStatus} {eventType : String}
    {expected : List CycleStatus} {fields : CycleFields} {e : AccountError}
    (h : transitionCycle cycleId toStatus eventType expected fields db = .error e) :
    db.status cycleId = none := by
  unfold transitionCycle at h
  split at h
  · rename_i hfind
    rw [CycleDb.status, hfind, Option.map_none]
  · split_ifs at h

theorem conflictingCycle_none {paperAccountId id : String}
    (h : conflictingCycle db paperAccountId cycleId = none) (hne : id ≠ cycleId)
    (haccount : db.account id = some paperAccountId) :
    (db.status id).any CycleStatus.isActive = false := by
  rw [conflictingCycle, Option.map_eq_none_iff, List.find?_eq_none] at h
  cases hfind : db.find id with
  | none =>
    rw [CycleDb.account, hfind] at haccount
    cases haccount
  | some cycle =>
    rw [CycleDb.account, hfind, Option.map_some, Option.some.injEq] at haccount
    have hrow := h cycle (List.mem_of_find?_eq_some hfind)
    rw [CycleDb.status, hfind, Option.map_some, Option.any_some]
    simpa [haccount, CycleDb.find_id hfind, hne] using hrow

/-! ## The announce-then-check protocol -/

/-- The phase of a worker. -/
def Worker.phase : Worker → Phase String
  | .delivered _ => .idle
  | .claimed cycleId => .announced cycleId
  | .started cycle => .announced cycle.id
  | .busy cycleId _ => .announced cycleId
  | .admitted cycleId => .entered cycleId
  | .prepared cycleId _ _ => .entered cycleId
  | .working cycleId => .entered cycleId
  | .finalizing cycleId => .entered cycleId
  | .returned _ => .idle

/-- The status that a worker expects of the cycle it holds. -/
def Worker.expects : Worker → CycleStatus
  | .finalizing _ => .finalizing
  | _ => .running

def CycleSystem.protocol (system : CycleSystem) : State Nat String where
  flag := fun id => (system.db.status id).any CycleStatus.isActive
  phase := fun n => (system.workers n).phase

def rivals (accounts : String → Option String) (a b : String) : Prop :=
  a ≠ b ∧ ∃ account, accounts a = some account ∧ accounts b = some account

theorem rivals_symm (accounts : String → Option String) (a b : String)
    (h : rivals accounts a b) : rivals accounts b a := by
  obtain ⟨hne, account, ha, hb⟩ := h
  exact ⟨hne.symm, account, hb, ha⟩

/-- Every held cycle has the status that its worker expects, and the protocol
is guarded. -/
structure Steady (accounts : String → Option String) (system : CycleSystem) : Prop where
  owners : system.db.account = accounts
  expected : ∀ n id, (system.workers n).phase.holding = some id →
    system.db.status id = some (system.workers n).expects
  reads : ∀ n cycle, system.workers n = .started cycle →
    accounts cycle.id = some cycle.paperAccountId
  guarded : Guarded (rivals accounts) system.protocol

/-- The next system is steady, and the transaction was a step of the protocol or
none. -/
def Follows (accounts : String → Option String) (system next : CycleSystem) : Prop :=
  Steady accounts next ∧ (next.protocol = system.protocol ∨
    Exclusion.Step (rivals accounts) system.protocol next.protocol)

section Follow

variable {accounts : String → Option String} {system : CycleSystem} {n : Nat}
  {next : Worker × CycleDb}

@[simp] theorem commit_workers_self (system : CycleSystem) (n : Nat) (next : Worker × CycleDb) :
    (system.commit n next).workers n = next.1 := Function.update_self ..

theorem commit_workers_ne (system : CycleSystem) {n m : Nat} (h : m ≠ n)
    (next : Worker × CycleDb) : (system.commit n next).workers m = system.workers m :=
  Function.update_of_ne h ..

theorem protocol_commit (system : CycleSystem) (n : Nat) (next : Worker × CycleDb) :
    (system.commit n next).protocol =
      { flag := fun id => (next.2.status id).any CycleStatus.isActive
        phase := Function.update system.protocol.phase n next.1.phase } := by
  rw [CycleSystem.protocol, State.mk.injEq]
  refine ⟨rfl, ?_⟩
  funext m
  by_cases hm : m = n
  · subst hm
    rw [Function.update_self, commit_workers_self]
  · rw [Function.update_of_ne hm, commit_workers_ne system hm]
    rfl

theorem Steady.follow (h : Steady accounts system) (haccount : next.2.account = accounts)
    (hothers : ∀ m id, m ≠ n → (system.workers m).phase.holding = some id →
      next.2.status id = system.db.status id)
    (hself : ∀ id, next.1.phase.holding = some id → next.2.status id = some next.1.expects)
    (hreads : ∀ cycle, next.1 = .started cycle → accounts cycle.id = some cycle.paperAccountId)
    (hrefines : (system.commit n next).protocol = system.protocol ∨
      Exclusion.Step (rivals accounts) system.protocol (system.commit n next).protocol) :
    Follows accounts system (system.commit n next) := by
  refine ⟨⟨haccount, ?_, ?_, ?_⟩, hrefines⟩
  · intro m id hholding
    by_cases hm : m = n
    · subst hm
      rw [commit_workers_self] at hholding ⊢
      exact hself id hholding
    · rw [commit_workers_ne system hm] at hholding ⊢
      show next.2.status id = _
      rw [hothers m id hm hholding]
      exact h.expected m id hholding
  · intro m cycle hworker
    by_cases hm : m = n
    · subst hm
      rw [commit_workers_self] at hworker
      exact hreads cycle hworker
    · rw [commit_workers_ne system hm] at hworker
      exact h.reads m cycle hworker
  · rcases hrefines with hsame | hstep
    · rw [hsame]
      exact h.guarded
    · exact h.guarded.step (rivals_symm accounts) hstep

theorem Steady.stay (h : Steady accounts system) (hstatus : next.2.status = system.db.status)
    (haccount : next.2.account = system.db.account)
    (hphase : next.1.phase = (system.workers n).phase)
    (hexpects : next.1.phase ≠ .idle → next.1.expects = (system.workers n).expects)
    (hreads : ∀ cycle, next.1 = .started cycle → accounts cycle.id = some cycle.paperAccountId) :
    Follows accounts system (system.commit n next) := by
  refine h.follow (haccount.trans h.owners) ?_ ?_ hreads (Or.inl ?_)
  · intro m id _ _
    rw [hstatus]
  · intro id hholding
    have hbusy : next.1.phase ≠ .idle := by
      intro hidle
      rw [hidle] at hholding
      cases hholding
    rw [hstatus, hexpects hbusy]
    rw [hphase] at hholding
    exact h.expected n id hholding
  · rw [protocol_commit, hstatus, hphase]
    show State.mk _ (Function.update system.protocol.phase n (system.protocol.phase n)) = _
    rw [Function.update_eq_self]
    rfl

theorem Steady.claim (h : Steady accounts system) {cycleId : String}
    (hidle : (system.workers n).phase = .idle) (hphase : next.1.phase = .announced cycleId)
    (hexpects : next.1.expects = .running) (haccount : next.2.account = system.db.account)
    (hstatus : next.2.status = Function.update system.db.status cycleId (some .running))
    (hreads : ∀ cycle, next.1 ≠ .started cycle)
    (hdown : (system.db.status cycleId).any CycleStatus.isActive = false) :
    Follows accounts system (system.commit n next) := by
  refine h.follow (haccount.trans h.owners) ?_ ?_ (fun cycle hc => absurd hc (hreads cycle))
    (Or.inr ?_)
  · intro m id _ hholding
    have hup := h.guarded.flagged m id hholding
    have hne : id ≠ cycleId := by
      intro hid
      rw [hid] at hup
      rw [show system.protocol.flag cycleId = _ from hdown] at hup
      cases hup
    rw [hstatus, Function.update_of_ne hne]
  · intro id hholding
    rw [hphase] at hholding
    rw [hstatus, ← Option.some.inj hholding, Function.update_self, hexpects]
  · have hstep : Exclusion.Step (rivals accounts) system.protocol _ :=
      .announce n cycleId hidle hdown
    rw [protocol_commit, hphase, hstatus]
    convert hstep using 2
    funext id
    by_cases hid : id = cycleId
    · rw [hid, Function.update_self, Function.update_self]
      rfl
    · rw [Function.update_of_ne hid, Function.update_of_ne hid]
      rfl

theorem Steady.leave (h : Steady accounts system) {cycleId : String} {toStatus : CycleStatus}
    (hholding : (system.workers n).phase.holding = some cycleId)
    (hphase : next.1.phase = .idle) (haccount : next.2.account = system.db.account)
    (hstatus : next.2.status = Function.update system.db.status cycleId (some toStatus))
    (hinactive : toStatus.isActive = false) : Follows accounts system (system.commit n next) := by
  refine h.follow (haccount.trans h.owners) ?_ ?_ ?_ (Or.inr ?_)
  · intro m id hm hother
    have hne : id ≠ cycleId := by
      intro hid
      rw [hid] at hother
      exact hm (h.guarded.single m n cycleId hother hholding)
    rw [hstatus, Function.update_of_ne hne]
  · intro id hself
    rw [hphase] at hself
    cases hself
  · intro cycle hstarted
    rw [hstarted] at hphase
    cases hphase
  · have hstep : Exclusion.Step (rivals accounts) system.protocol _ := .leave n cycleId hholding
    rw [protocol_commit, hphase, hstatus]
    convert hstep using 2
    funext id
    by_cases hid : id = cycleId
    · rw [hid, Function.update_self, Function.update_self, Option.any_some, hinactive]
    · rw [Function.update_of_ne hid, Function.update_of_ne hid]
      rfl

theorem Steady.finish (h : Steady accounts system) {cycleId : String} {toStatus : CycleStatus}
    (hholding : (system.workers n).phase.holding = some cycleId) (eventType : String)
    (expected : List CycleStatus) (fields : CycleFields)
    (hexpected : (system.workers n).expects ∈ expected) (hinactive : toStatus.isActive = false) :
    Follows accounts system (system.commit n (finish system.db
      (transitionCycle cycleId toStatus eventType expected fields system.db))) := by
  have hstatus := h.expected n cycleId hholding
  cases hrun : transitionCycle cycleId toStatus eventType expected fields system.db with
  | error e =>
    rw [transitionCycle_error hrun] at hstatus
    cases hstatus
  | ok r =>
    obtain ⟨status, hstatus', -, -, haccount, hcase⟩ := transitionCycle_cases hrun
    rw [hstatus, Option.some.injEq] at hstatus'
    subst hstatus'
    rcases hcase with ⟨-, hout | hsame⟩ | ⟨hmoved, -⟩
    · exact absurd hexpected hout
    · -- A held cycle is active, and the target is not.
      have hup := h.guarded.flagged n cycleId hholding
      rw [CycleSystem.protocol] at hup
      simp only at hup
      rw [hstatus, Option.any_some, hsame, hinactive] at hup
      cases hup
    · exact h.leave hholding rfl haccount hmoved hinactive

end Follow

/-! ## Every transaction follows the protocol -/

section Transactions

variable {accounts : String → Option String} {system : CycleSystem} {n : Nat}

theorem Steady.returned (h : Steady accounts system) (hidle : (system.workers n).phase = .idle)
    (result : Option BeginResult) :
    Follows accounts system (system.commit n (.returned result, system.db)) := by
  refine h.stay rfl rfl hidle.symm (fun hbusy => absurd rfl hbusy) ?_
  intro cycle hstarted
  cases hstarted

variable {cycleId : String}

theorem Steady.advance_delivered (h : Steady accounts system) (preparation : Preparation)
    (hworker : system.workers n = .delivered cycleId) :
    Follows accounts system
      (system.commit n ((system.workers n).advance preparation system.db)) := by
  have hidle : (system.workers n).phase = .idle := by
    rw [hworker]
    rfl
  rw [hworker, Worker.advance]
  cases hclaim : claimCycleForWorker cycleId system.db with
  | error e => exact h.returned hidle _
  | ok r =>
    obtain ⟨⟨claimed, cycle⟩, db⟩ := r
    rcases claimCycleForWorker_cases hclaim with
      ⟨rfl, rfl⟩ | ⟨rfl, haccount, hmoved, status, hclaimable, hstatus⟩
    · exact h.returned hidle _
    · refine h.claim hidle rfl rfl haccount hmoved (fun cycle hstarted => by cases hstarted) ?_
      rw [hstatus, Option.any_some]
      simp only [claimableCycleStates, List.mem_cons, List.not_mem_nil, or_false] at hclaimable
      rcases hclaimable with rfl | rfl | rfl <;> rfl

theorem Steady.advance_claimed (h : Steady accounts system) (preparation : Preparation)
    (hworker : system.workers n = .claimed cycleId) :
    Follows accounts system
      (system.commit n ((system.workers n).advance preparation system.db)) := by
  have hstatus : system.db.status cycleId = some .running := by
    have hexpected := h.expected n cycleId (by rw [hworker]; rfl)
    rw [hworker] at hexpected
    exact hexpected
  rw [hworker, Worker.advance]
  cases hrun : transitionCycle cycleId .running "worker_started" claimableCycleStates
      { attempt := some 1 } system.db with
  | error e =>
    rw [transitionCycle_error hrun] at hstatus
    cases hstatus
  | ok r =>
    obtain ⟨status, hstatus', hid, hread, haccount, hcase⟩ := transitionCycle_cases hrun
    rw [hstatus, Option.some.injEq] at hstatus'
    subst hstatus'
    rcases hcase with ⟨hsame, -⟩ | ⟨-, hclaimable⟩
    · refine h.stay hsame haccount ?_ (fun _ => by rw [hworker]; rfl) ?_
      · rw [hworker, ← hid]
        rfl
      · intro cycle hstarted
        obtain rfl := Worker.started.inj hstarted
        rw [← h.owners, hid, hread]
    · simp [claimableCycleStates] at hclaimable

theorem Steady.advance_started (h : Steady accounts system) (preparation : Preparation)
    {cycle : ExecutionCycle} (hworker : system.workers n = .started cycle) :
    Follows accounts system
      (system.commit n ((system.workers n).advance preparation system.db)) := by
  rw [hworker, Worker.advance]
  cases hcheck : conflictingCycle system.db cycle.paperAccountId cycle.id with
  | some conflict =>
    refine h.stay rfl rfl ?_ (fun _ => ?_) (fun _ hstarted => by cases hstarted)
    · rw [hworker]
      rfl
    · rw [hworker]
      rfl
  | none =>
    have hexpected := h.expected n cycle.id (by rw [hworker]; rfl)
    rw [hworker] at hexpected
    refine h.follow h.owners (fun _ _ _ _ => rfl) ?_ (fun _ hstarted => by cases hstarted)
      (Or.inr ?_)
    · intro id hholding
      rw [← Option.some.inj hholding]
      exact hexpected
    · rw [protocol_commit]
      refine .enter n cycle.id ?_ ?_
      · show (system.workers n).phase = _
        rw [hworker]
        rfl
      · -- A rival is another cycle of the account that the check read.
        intro id hrival
        obtain ⟨hne, account, hmine, hother⟩ := hrival
        rw [h.reads n cycle hworker, Option.some.injEq] at hmine
        subst hmine
        rw [← h.owners] at hother
        exact conflictingCycle_none hcheck hne.symm hother

theorem Steady.advance_admitted (h : Steady accounts system) (preparation : Preparation)
    (hworker : system.workers n = .admitted cycleId) :
    Follows accounts system
      (system.commit n ((system.workers n).advance preparation system.db)) := by
  have hholding : (system.workers n).phase.holding = some cycleId := by
    rw [hworker]
    rfl
  have hexpects : (system.workers n).expects = .running := by
    rw [hworker]
    rfl
  have hopen : (system.workers n).expects ∈ openCycleStates := by
    rw [hexpects]
    decide
  have hrunning : (system.workers n).expects ∈ ([.running] : List CycleStatus) := by
    rw [hexpects]
    decide
  rw [show (system.workers n).advance preparation system.db =
    (Worker.admitted cycleId).advance preparation system.db by rw [hworker]]
  cases preparation with
  | sessionMissing => exact h.finish hholding _ _ _ hopen rfl
  | raised message =>
    simp only [Worker.advance]
    split_ifs
    · exact h.finish hholding _ _ _ hrunning rfl
    · exact h.finish hholding _ _ _ hopen rfl
  | ready paperRunId leanRunId =>
    refine h.stay rfl rfl ?_ (fun _ => hexpects.symm) (fun _ hstarted => by cases hstarted)
    rw [hworker]
    rfl

theorem Steady.advance_prepared (h : Steady accounts system) (preparation : Preparation)
    {paperRunId : RunId} {leanRunId : Option String}
    (hworker : system.workers n = .prepared cycleId paperRunId leanRunId) :
    Follows accounts system
      (system.commit n ((system.workers n).advance preparation system.db)) := by
  have hexpected := h.expected n cycleId (by rw [hworker]; rfl)
  rw [hworker, Worker.advance]
  cases hrun : attachRun cycleId paperRunId leanRunId system.db with
  | error e =>
    -- A held cycle exists.
    unfold attachRun at hrun
    split at hrun
    · rename_i hfind
      rw [CycleDb.status, hfind] at hexpected
      cases hexpected
    · cases hrun
  | ok r =>
    obtain ⟨hstatus, haccount⟩ := attachRun_cases hrun
    refine h.stay hstatus haccount ?_ (fun _ => ?_) (fun _ hstarted => by cases hstarted)
    · rw [hworker]
      rfl
    · rw [hworker]
      rfl

theorem Steady.advance (h : Steady accounts system) (n : Nat) (preparation : Preparation) :
    Follows accounts system
      (system.commit n ((system.workers n).advance preparation system.db)) := by
  have hsame : ∀ worker, system.workers n = worker →
      worker.advance preparation system.db = (worker, system.db) →
        Follows accounts system
          (system.commit n ((system.workers n).advance preparation system.db)) := by
    intro worker hworker hrun
    rw [hworker, hrun]
    refine h.stay rfl rfl (by rw [hworker]) (fun _ => by rw [hworker]) ?_
    intro cycle hstarted
    exact h.reads n cycle (hworker.trans hstarted)
  cases hworker : system.workers n with
  | delivered cycleId =>
    rw [← hworker]
    exact h.advance_delivered preparation hworker
  | claimed cycleId =>
    rw [← hworker]
    exact h.advance_claimed preparation hworker
  | started cycle =>
    rw [← hworker]
    exact h.advance_started preparation hworker
  | busy cycleId conflict =>
    refine h.finish ?_ _ _ _ ?_ rfl
    · rw [hworker]
      rfl
    · rw [hworker]
      exact List.mem_singleton_self _
  | admitted cycleId =>
    rw [← hworker]
    exact h.advance_admitted preparation hworker
  | prepared cycleId paperRunId leanRunId =>
    rw [← hworker]
    exact h.advance_prepared preparation hworker
  | working cycleId =>
    rw [← hworker]
    exact hsame _ hworker rfl
  | finalizing cycleId =>
    rw [← hworker]
    exact hsame _ hworker rfl
  | returned result =>
    rw [← hworker]
    exact hsame _ hworker rfl

theorem Steady.proceed_working (h : Steady accounts system)
    (hworker : system.workers n = .working cycleId) :
    Follows accounts system
      (system.commit n ((system.workers n).proceed .succeeds system.db)) := by
  have hholding : (system.workers n).phase.holding = some cycleId := by
    rw [hworker]
    rfl
  have hstatus : system.db.status cycleId = some .running := by
    have hexpected := h.expected n cycleId hholding
    rw [hworker] at hexpected
    exact hexpected
  rw [hworker, Worker.proceed]
  cases hrun : transitionCycle cycleId .finalizing "legacy_pipeline_finalized"
      [.running, .queued] {} system.db with
  | error e =>
    rw [transitionCycle_error hrun] at hstatus
    cases hstatus
  | ok r =>
    obtain ⟨status, hstatus', -, -, haccount, hcase⟩ := transitionCycle_cases hrun
    rw [hstatus, Option.some.injEq] at hstatus'
    subst hstatus'
    rcases hcase with ⟨-, hout | hsame⟩ | ⟨hmoved, -⟩
    · simp at hout
    · cases hsame
    · refine h.follow (haccount.trans h.owners) ?_ ?_ (fun _ hstarted => by cases hstarted)
        (Or.inl ?_)
      · intro m id hm hother
        have hne : id ≠ cycleId := by
          intro hid
          rw [hid] at hother
          exact hm (h.guarded.single m n cycleId hother hholding)
        show r.2.status id = _
        rw [hmoved, Function.update_of_ne hne]
      · intro id hself
        rw [← Option.some.inj hself]
        show r.2.status cycleId = _
        rw [hmoved, Function.update_self]
        rfl
      · rw [protocol_commit, CycleSystem.protocol, State.mk.injEq]
        constructor
        · funext id
          show (r.2.status id).any _ = _
          by_cases hid : id = cycleId
          · rw [hid, hmoved, Function.update_self, hstatus]
            rfl
          · rw [hmoved, Function.update_of_ne hid]
        · funext m
          by_cases hm : m = n
          · rw [hm, Function.update_self, hworker]
            rfl
          · rw [Function.update_of_ne hm]

theorem Steady.proceed (h : Steady accounts system) (n : Nat) (workflow : Workflow) :
    Follows accounts system
      (system.commit n ((system.workers n).proceed workflow system.db)) := by
  have hsame : (system.workers n).proceed workflow system.db = (system.workers n, system.db) →
      Follows accounts system
        (system.commit n ((system.workers n).proceed workflow system.db)) := by
    intro hrun
    rw [hrun]
    exact h.stay rfl rfl rfl (fun _ => rfl) (h.reads n)
  cases hworker : system.workers n with
  | working cycleId =>
    have hholding : (system.workers n).phase.holding = some cycleId := by
      rw [hworker]
      rfl
    cases workflow with
    | succeeds =>
      rw [← hworker]
      exact h.proceed_working hworker
    | fails detail =>
      refine h.finish hholding _ _ _ ?_ rfl
      rw [hworker]
      show CycleStatus.running ∈ openCycleStates
      decide
  | finalizing cycleId =>
    have hholding : (system.workers n).phase.holding = some cycleId := by
      rw [hworker]
      rfl
    cases workflow with
    | succeeds =>
      refine h.finish hholding _ _ _ ?_ rfl
      rw [hworker]
      exact List.mem_singleton_self _
    | fails detail =>
      refine h.finish hholding _ _ _ ?_ rfl
      rw [hworker]
      show CycleStatus.finalizing ∈ openCycleStates
      decide
  | _ =>
    rw [← hworker]
    apply hsame
    rw [hworker, Worker.proceed] <;> simp

theorem Steady.inactive (h : Steady accounts system) {toStatus : CycleStatus} {eventType : String}
    {expected : List CycleStatus} {fields : CycleFields} (hto : toStatus.isActive = false)
    (hexpected : ∀ status ∈ expected, status.isActive = false) :
    Follows accounts system { system with
      db := settle (transitionCycle cycleId toStatus eventType expected fields) system.db } := by
  cases hrun : transitionCycle cycleId toStatus eventType expected fields system.db with
  | error e =>
    rw [settle_error hrun]
    exact ⟨h, Or.inl rfl⟩
  | ok r =>
    rw [settle_ok hrun]
    obtain ⟨status, hstatus, -, -, haccount, hcase⟩ := transitionCycle_cases hrun
    have hkept : ∀ id, r.2.status id = system.db.status id ∨
        ((system.db.status id).any CycleStatus.isActive = false ∧
          (r.2.status id).any CycleStatus.isActive = false) := by
      intro id
      rcases hcase with ⟨hsame, -⟩ | ⟨hmoved, hmem⟩
      · exact Or.inl (by rw [hsame])
      · by_cases hid : id = cycleId
        · refine Or.inr ⟨?_, ?_⟩
          · rw [hid, hstatus, Option.any_some, hexpected status hmem]
          · rw [hid, hmoved, Function.update_self, Option.any_some, hto]
        · exact Or.inl (by rw [hmoved, Function.update_of_ne hid])
    have hprotocol : CycleSystem.protocol { system with db := r.2 } = system.protocol := by
      rw [CycleSystem.protocol, CycleSystem.protocol, State.mk.injEq]
      refine ⟨?_, rfl⟩
      funext id
      show (r.2.status id).any _ = _
      rcases hkept id with hsame | ⟨hbefore, hafter⟩
      · rw [hsame]
      · rw [hbefore, hafter]
    refine ⟨⟨haccount.trans h.owners, ?_, h.reads, ?_⟩, Or.inl hprotocol⟩
    · intro n id hholding
      have hup := h.guarded.flagged n id hholding
      show r.2.status id = _
      rcases hkept id with hsame | ⟨hbefore, -⟩
      · rw [hsame]
        exact h.expected n id hholding
      · rw [show system.protocol.flag id = _ from hbefore] at hup
        cases hup
    · rw [hprotocol]
      exact h.guarded

theorem Steady.dispatch (h : Steady accounts system) (dispatch : Dispatch) (cycleId : String) :
    Follows accounts system { system with db := settle (dispatch.run cycleId) system.db } := by
  cases dispatch with
  | runNow => exact h.inactive rfl (by decide)
  | nonTradingDay => exact h.inactive rfl (by decide)
  | beat => exact h.inactive rfl (by decide)
  | calendarClosed => exact h.inactive rfl (by decide)

theorem CycleStep.refines {next : CycleSystem} (h : Steady accounts system)
    (hstep : CycleStep system next) : Follows accounts system next := by
  cases hstep with
  | deliver n cycleId result idle =>
    refine h.stay rfl rfl ?_ (fun hbusy => absurd rfl hbusy) (fun _ hstarted => by cases hstarted)
    rw [idle]
    rfl
  | advance n preparation => exact h.advance n preparation
  | proceed n workflow => exact h.proceed n workflow
  | dispatch dispatch cycleId => exact h.dispatch dispatch cycleId

end Transactions

/-! ## Exclusion -/

def Quiet (system : CycleSystem) : Prop := ∀ n, ∃ result, system.workers n = .returned result

/-- A worker is past the busy check of `begin_cycle` for a cycle. -/
def CycleSystem.PastCheck (system : CycleSystem) (cycleId : String) : Prop :=
  ∃ n, (system.workers n).phase = .entered cycleId

/-- No two distinct cycles of one account are both past the busy check and still
running or finalizing. -/
def AccountExclusive (system : CycleSystem) : Prop :=
  ∀ a b : ExecutionCycle, system.db.find a.id = some a → system.db.find b.id = some b →
    system.PastCheck a.id → a.status.isActive → system.PastCheck b.id → b.status.isActive →
      a.paperAccountId = b.paperAccountId → a.id = b.id

theorem steady_of_quiet {system : CycleSystem} (h : Quiet system) :
    Steady system.db.account system := by
  have hidle : ∀ n, (system.workers n).phase = .idle := by
    intro n
    obtain ⟨result, hworker⟩ := h n
    rw [hworker]
    rfl
  refine ⟨rfl, ?_, ?_, guarded_of_idle hidle⟩
  · intro n id hholding
    rw [hidle n] at hholding
    cases hholding
  · intro n cycle hworker
    have hphase := hidle n
    rw [hworker] at hphase
    cases hphase

theorem steady_of_run {start system : CycleSystem} (hstart : Quiet start)
    (hrun : Relation.ReflTransGen CycleStep start system) : Steady start.db.account system := by
  induction hrun with
  | refl => exact steady_of_quiet hstart
  | tail _ hstep ih => exact (hstep.refines ih).1

/-- Whatever the deliveries and the order of their transactions, no two cycles
of an account are past the busy check at once. -/
theorem account_exclusion (start system : CycleSystem) (hstart : Quiet start)
    (hrun : Relation.ReflTransGen CycleStep start system) : AccountExclusive system := by
  intro a b ha hb hpastA _ hpastB _ haccount
  have h := steady_of_run hstart hrun
  obtain ⟨n, hn⟩ := hpastA
  obtain ⟨m, hm⟩ := hpastB
  by_contra hne
  refine h.guarded.exclusive n m a.id b.id hn hm ⟨hne, a.paperAccountId, ?_, ?_⟩
  · rw [← h.owners, CycleDb.account, ha, Option.map_some]
  · rw [← h.owners, CycleDb.account, hb, Option.map_some, haccount]

/-! ## A race -/

/-- The next transactions of the workers of a list, in its order. -/
def CycleSystem.advanceAll (system : CycleSystem) (ns : List Nat) : CycleSystem :=
  ns.foldl (fun system n =>
    system.commit n ((system.workers n).advance .sessionMissing system.db)) system

theorem advanceAll_run (ns : List Nat) : ∀ system : CycleSystem,
    Relation.ReflTransGen CycleStep system (system.advanceAll ns) := by
  induction ns with
  | nil =>
    intro system
    exact .refl
  | cons n ns ih =>
    intro system
    exact .head (.advance system n .sessionMissing) (ih _)

/-- Two queued cycles of one account. -/
def twoCycles : CycleSystem where
  db :=
    { cycles := ["a", "b"].map (fun id =>
        { id := id, paperAccountId := "account", deploymentId := id, tradingDate := "2024-01-03",
          status := .queued })
      events := [] }
  workers := fun _ => .returned none

/-- Both cycles are delivered, and both are claimed before either is checked.
The first finds the second and backs off, and the second enters. -/
def raced : CycleSystem :=
  ((twoCycles.commit 0 (.delivered "a", twoCycles.db)).commit 1
    (.delivered "b", twoCycles.db)).advanceAll [0, 1, 0, 1, 0, 0, 1]

theorem account_exclusion_raced : raced.PastCheck "b" ∧ AccountExclusive raced := by
  refine ⟨⟨1, by decide +kernel⟩, ?_⟩
  refine account_exclusion twoCycles raced (fun _ => ⟨none, rfl⟩) ?_
  have hfirst : CycleStep twoCycles (twoCycles.commit 0 (.delivered "a", twoCycles.db)) :=
    .deliver twoCycles 0 "a" none rfl
  exact .head hfirst (.head (.deliver _ 1 "b" none rfl) (advanceAll_run _ _))

end LocalPlatform.Accounts
