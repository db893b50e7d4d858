import LocalPlatform.Accounts.Cycles
import LocalPlatform.Lib.Machine

/-!
# The audit log of the execution cycles

Every change of the status of a cycle is followed, in the same transaction, by
a row of `paper_execution_cycle_events` that names the status before it and the
status after it.  `recover_stale_queued_dispatches` also writes rows for what
it did with a queued cycle.

* A call of the recovery claims a candidate, publishes it, and records the
  outcome in a third transaction, where both statuses are the text `queued`.
* `auditMachine` interleaves the transactions of all writers.  A published
  cycle can be claimed by a worker in any later step.
* `AuditPath` reads the rows of a cycle as one numbered path that ends at the
  status of the row.  `RecordsQueued` is the condition under which a run keeps
  it: a recorded outcome finds its cycle still queued.
-/

namespace LocalPlatform.Accounts

open Paper Transaction Machines Paths

/-! ## `ensure_cycle` -/

/-- The row of a new cycle. -/
def newCycle (cycleId : String) (input : CycleInput) : ExecutionCycle where
  id := cycleId
  paperAccountId := input.paperAccountId
  accountGeneration := input.accountGeneration
  deploymentId := input.deploymentId
  tradingDate := input.tradingDate
  status := .scheduled
  inputFingerprint := { payload := input }

/-- `ensure_cycle`, once it has read the deployment and the account.  A new
cycle is named `cycleId`. -/
def ensureCycle (cycleId : String) (input : CycleInput) (db : CycleDb) : ExecutionCycle × CycleDb :=
  match db.cycles.find? (fun cycle => cycle.deploymentId == input.deploymentId &&
      cycle.tradingDate == input.tradingDate) with
  | some existing => (existing, db)
  | none =>
    let cycle := newCycle cycleId input
    (cycle, ({ db with cycles := db.cycles ++ [cycle] } : CycleDb).appendEvent cycleId none
      .scheduled "cycle_created" (.diagnostic input.diagnostic))

/-! ## `recover_stale_queued_dispatches` -/

/-- What a call does next: claim its next candidate, publish a claimed one, or
record the outcome of a publication, which raised an error or not. -/
inductive RecoveryStage where
  | claim
  | publish (cycleId : String)
  | record (cycleId : String) (error : Option String)
  deriving DecidableEq

/-- A call of `recover_stale_queued_dispatches`. -/
structure Recovery where
  staleSeconds : Nat := 0
  candidates : List ExecutionCycle := []
  stage : RecoveryStage := .claim
  published : List String := []
  failed : List String := []
  deriving DecidableEq

/-- The claim of a candidate, if it is queued at the version that was read. -/
def claimDispatch (candidate : ExecutionCycle) (staleSeconds : Nat) (db : CycleDb) :
    Option CycleDb :=
  match db.find candidate.id with
  | none => none
  | some current =>
    if current.status ≠ .queued ∨ current.version ≠ candidate.version then none
    else
      some ((db.put { current with version := current.version + 1 }).appendEvent candidate.id
        (some .queued) .queued "dispatch_recovery_claimed" (.staleSeconds staleSeconds))

/-- The row that records the outcome of a publication. -/
def recordDispatch (cycleId : String) (error : Option String) (db : CycleDb) : CycleDb :=
  match error with
  | some error => db.appendEvent cycleId (some .queued) .queued
      "dispatch_recovery_publish_failed" (.publishError (error.take 1000).toString)
  | none => db.appendEvent cycleId (some .queued) .queued "dispatch_recovery_published" .empty

/-- The next step of a call.  `error` is what `publish` raises. -/
def Recovery.advance (error : Option String) (call : Recovery) (db : CycleDb) :
    Recovery × CycleDb :=
  match call.stage with
  | .claim =>
    match call.candidates with
    | [] => (call, db)
    | candidate :: candidates =>
      match claimDispatch candidate call.staleSeconds db with
      | none => ({ call with candidates := candidates }, db)
      | some db' =>
        ({ call with candidates := candidates, stage := .publish candidate.id }, db')
  | .publish cycleId => ({ call with stage := .record cycleId error }, db)
  | .record cycleId (some error) =>
    ({ call with stage := .claim, failed := call.failed ++ [cycleId] },
      recordDispatch cycleId (some error) db)
  | .record cycleId none =>
    ({ call with stage := .claim, published := call.published ++ [cycleId] },
      recordDispatch cycleId none db)

/-! ## Interleavings -/

/-- The cycles and the calls of the recovery, which are numbered. -/
structure AuditSystem where
  db : CycleDb
  calls : Nat → Recovery

def AuditSystem.empty : AuditSystem where
  db := { cycles := [], events := [] }
  calls := fun _ => {}

/-- One committed transaction, or a step of a call.  `transition` stands for the
transitions of `run_now`, `begin_cycle` and the schedulers too. -/
inductive AuditAction where
  | ensure (cycleId : String) (input : CycleInput)
  | claim (cycleId : String)
  | transition (cycleId : String) (toStatus : CycleStatus) (eventType : String)
      (expected : List CycleStatus) (fields : CycleFields)
  | fail (cycleId failureCode detail : String)
  | beginFinalization (cycleId : String)
  | succeed (cycleId : String) (result : CycleResult)
  | attach (cycleId : String) (paperRunId : RunId) (leanRunId : Option String)
  | recover (n staleSeconds : Nat) (candidates : List ExecutionCycle)
  | advance (n : Nat) (error : Option String)

/-- A new cycle has a fresh identifier, and a call starts on cycles that it read
queued: all that are stale, up to the limit, in the order of their updates. -/
def AuditSystem.Allows (system : AuditSystem) : AuditAction → Prop
  | .ensure cycleId _ => system.db.find cycleId = none
  | .recover n _ candidates =>
    (system.calls n).stage = .claim ∧ (system.calls n).candidates = [] ∧
      ∀ candidate ∈ candidates, candidate ∈ system.db.cycles ∧ candidate.status = .queued
  | _ => True

/-- The system after an action. -/
def AuditSystem.next (system : AuditSystem) : AuditAction → AuditSystem
  | .ensure cycleId input => { system with db := (ensureCycle cycleId input system.db).2 }
  | .claim cycleId => { system with db := settle (claimCycleForWorker cycleId) system.db }
  | .transition cycleId toStatus eventType expected fields =>
    { system with
      db := settle (transitionCycle cycleId toStatus eventType expected fields) system.db }
  | .fail cycleId failureCode detail =>
    { system with db := settle (failCycle cycleId failureCode detail) system.db }
  | .beginFinalization cycleId =>
    { system with db := settle (beginFinalization cycleId) system.db }
  | .succeed cycleId result => { system with db := settle (succeedCycle cycleId result) system.db }
  | .attach cycleId paperRunId leanRunId =>
    { system with db := settle (attachRun cycleId paperRunId leanRunId) system.db }
  | .recover n staleSeconds candidates =>
    { system with
      calls := Function.update system.calls n
        { staleSeconds := staleSeconds, candidates := candidates } }
  | .advance n error =>
    let next := (system.calls n).advance error system.db
    { db := next.2, calls := Function.update system.calls n next.1 }

/-- All interleavings of the writers of the audit log. -/
abbrev auditMachine : Machine AuditSystem AuditAction where
  allowed := AuditSystem.Allows
  next := AuditSystem.next

/-! ## The path of a cycle -/

/-- `select * from paper_execution_cycle_events where cycle_id=?` -/
def CycleDb.eventsOf (db : CycleDb) (cycleId : String) : List CycleEvent :=
  db.events.filter (fun event => event.cycleId == cycleId)

/-- The events of a cycle, `order by sequence`. -/
def CycleDb.auditLog (db : CycleDb) (cycleId : String) : List CycleEvent :=
  (db.eventsOf cycleId).insertionSort (fun a b => a.sequence ≤ b.sequence)

def CycleEvent.step (event : CycleEvent) : Step CycleStatus where
  sequence := event.sequence
  source := event.fromStatus
  target := event.toStatus

/-- The events are one path, and they end at the status of their cycle. -/
structure TracksStatus (events : List CycleEvent) (status : Option CycleStatus) : Prop where
  path : Path (fun _ _ => True) (events.map CycleEvent.step)
  final : events.getLast?.map CycleEvent.toStatus = status

/-- The audit log of a cycle: every event starts at the status where the event
before it ended, and the last one ends at the status of the row. -/
def AuditPath (db : CycleDb) (cycleId : String) : Prop :=
  TracksStatus (db.auditLog cycleId) (db.status cycleId)

/-- The outcome of a publication is recorded while the cycle is still queued. -/
def RecordsQueued (system : AuditSystem) : AuditAction → Prop
  | .advance n _ =>
    match (system.calls n).stage with
    | .record cycleId _ => system.db.status cycleId = some .queued
    | _ => True
  | _ => True

instance (system : AuditSystem) :
    (action : AuditAction) → Decidable (system.Allows action)
  | .ensure cycleId _ => inferInstanceAs (Decidable (system.db.find cycleId = none))
  | .recover n _ candidates => inferInstanceAs (Decidable
      ((system.calls n).stage = .claim ∧ (system.calls n).candidates = [] ∧
        ∀ candidate ∈ candidates, candidate ∈ system.db.cycles ∧ candidate.status = .queued))
  | .claim _ | .transition .. | .fail .. | .beginFinalization _ | .succeed .. | .attach ..
  | .advance .. => .isTrue trivial

instance (system : AuditSystem) :
    (action : AuditAction) → Decidable (RecordsQueued system action)
  | .advance n _ =>
    match h : (system.calls n).stage with
    | .record cycleId _ =>
      decidable_of_iff (system.db.status cycleId = some .queued) (by simp only [RecordsQueued, h])
    | .claim | .publish _ => .isTrue (by simp only [RecordsQueued, h])
  | .ensure .. | .recover .. | .claim _ | .transition .. | .fail .. | .beginFinalization _
  | .succeed .. | .attach .. => .isTrue trivial

/-- Every cycle has its path, in the order in which the rows were written. -/
def Audited (db : CycleDb) : Prop :=
  ∀ cycleId, TracksStatus (db.eventsOf cycleId) (db.status cycleId)

variable {db : CycleDb}

theorem Audited.auditPath (h : Audited db) (cycleId : String) : AuditPath db cycleId := by
  have hpath := (h cycleId).path
  have hsorted : (db.eventsOf cycleId).Pairwise (fun a b => a.sequence ≤ b.sequence) := by
    have hincreasing := hpath.pairwise_sequence
    rw [List.pairwise_map] at hincreasing
    exact hincreasing.imp (fun hlt => Nat.le_of_lt hlt)
  have hlog : db.auditLog cycleId = db.eventsOf cycleId := by
    rw [CycleDb.auditLog, List.Pairwise.insertionSort_eq hsorted]
  unfold AuditPath
  rw [hlog]
  exact h cycleId

theorem eventsOf_appendEvent (db : CycleDb) (cycleId id : String)
    (fromStatus : Option CycleStatus) (toStatus : CycleStatus) (eventType : String)
    (payload : CyclePayload) :
    (db.appendEvent cycleId fromStatus toStatus eventType payload).eventsOf id =
      db.eventsOf id ++
        (if cycleId = id then
          [{ cycleId := cycleId
             sequence := ((db.eventsOf cycleId).map CycleEvent.sequence).foldl max 0 + 1
             fromStatus := fromStatus
             toStatus := toStatus
             eventType := eventType
             payload := payload }]
        else []) := by
  unfold CycleDb.appendEvent CycleDb.eventsOf
  rw [List.filter_append]
  by_cases hid : cycleId = id
  · simp [hid]
  · simp [hid]

theorem Audited.move {db' : CycleDb} {cycleId : String} {toStatus : CycleStatus} (h : Audited db)
    (eventType : String) (payload : CyclePayload) (hevents : db'.events =
      (db.appendEvent cycleId (db.status cycleId) toStatus eventType payload).events)
    (hstatus : db'.status = Function.update db.status cycleId (some toStatus)) : Audited db' := by
  intro id
  have hof : db'.eventsOf id =
      (db.appendEvent cycleId (db.status cycleId) toStatus eventType payload).eventsOf id := by
    unfold CycleDb.eventsOf
    rw [hevents]
  rw [hof, eventsOf_appendEvent, hstatus]
  by_cases hid : cycleId = id
  · subst hid
    rw [if_pos rfl, Function.update_self]
    have hpath := (h cycleId).path
    constructor
    · rw [List.map_append]
      refine Path.snoc hpath ?_ ?_ trivial
      · have hcount := hpath.foldl_max_sequence
        rw [List.map_map] at hcount
        show ((db.eventsOf cycleId).map CycleEvent.sequence).foldl max 0 + 1 = _
        rw [← hcount]
        rfl
      · show db.status cycleId = _
        rw [← (h cycleId).final, List.getLast?_map, Option.map_map]
        rfl
    · rw [List.getLast?_concat]
      rfl
  · rw [if_neg hid, List.append_nil, Function.update_of_ne (Ne.symm hid)]
    exact h id

theorem Audited.stay {db' : CycleDb} {cycleId : String} {status : CycleStatus} (h : Audited db)
    (hcycle : db.status cycleId = some status) (eventType : String) (payload : CyclePayload)
    (hevents : db'.events =
      (db.appendEvent cycleId (some status) status eventType payload).events)
    (hstatus : db'.status = db.status) : Audited db' := by
  have hsame : db'.status = Function.update db.status cycleId (some status) := by
    rw [hstatus, ← hcycle, Function.update_eq_self]
  refine h.move eventType payload ?_ hsame
  rw [hevents, hcycle]

/-! ## One transaction -/

theorem Audited.ensureCycle (h : Audited db) (cycleId : String) (input : CycleInput)
    (hfresh : db.find cycleId = none) : Audited (ensureCycle cycleId input db).2 := by
  unfold Accounts.ensureCycle
  split
  · exact h
  · have hnone : db.status cycleId = none := by
      rw [CycleDb.status, hfresh, Option.map_none]
    have hstatus : ({ db with cycles := db.cycles ++ [newCycle cycleId input] } :
        CycleDb).status = Function.update db.status cycleId (some .scheduled) := by
      funext id
      show ((db.cycles ++ [newCycle cycleId input]).find? _).map _ = _
      rw [List.find?_append]
      by_cases hid : id = cycleId
      · subst hid
        rw [Function.update_self, show db.cycles.find? _ = none from hfresh]
        simp [newCycle]
      · have hrow : ([newCycle cycleId input].find? fun cycle => cycle.id == id) = none := by
          simp [newCycle, Ne.symm hid]
        rw [Function.update_of_ne hid, hrow, Option.or_none]
        rfl
    refine h.move "cycle_created" (.diagnostic input.diagnostic) ?_ hstatus
    rw [hnone]
    rfl

theorem Audited.moved {current : ExecutionCycle} {cycleId : String} (h : Audited db)
    (hfind : db.find cycleId = some current) (toStatus : CycleStatus) (fields : CycleFields)
    (eventType : String) (payload : CyclePayload) :
    Audited ((db.put (current.moved toStatus fields)).appendEvent cycleId (some current.status)
      toStatus eventType payload) := by
  have hid := CycleDb.find_id hfind
  have hstatus : db.status cycleId = some current.status := by
    rw [CycleDb.status, hfind, Option.map_some]
  have hrow : db.find (current.moved toStatus fields).id = some current := by
    rw [← hfind, ← hid]
    rfl
  have hmoved := (CycleDb.put_columns _ hrow rfl).1
  rw [show (current.moved toStatus fields).id = cycleId from hid] at hmoved
  refine h.move eventType payload ?_ hmoved
  rw [hstatus]
  rfl

theorem Audited.transitionCycle (h : Audited db) (cycleId : String) (toStatus : CycleStatus)
    (eventType : String) (expected : List CycleStatus) (fields : CycleFields) :
    Audited (settle (transitionCycle cycleId toStatus eventType expected fields) db) := by
  unfold settle Accounts.transitionCycle
  cases hfind : db.find cycleId with
  | none => exact h
  | some current =>
    simp only
    split_ifs
    · exact h
    · exact h.moved hfind toStatus fields eventType _
    · exact h

theorem Audited.claimCycleForWorker (h : Audited db) (cycleId : String) :
    Audited (settle (claimCycleForWorker cycleId) db) := by
  unfold settle Accounts.claimCycleForWorker
  cases hfind : db.find cycleId with
  | none => exact h
  | some current =>
    simp only
    split_ifs
    · exact h.moved hfind .running _ _ _
    · exact h

theorem Audited.attachRun (h : Audited db) (cycleId : String) (paperRunId : RunId)
    (leanRunId : Option String) : Audited (settle (attachRun cycleId paperRunId leanRunId) db) := by
  cases hrun : Accounts.attachRun cycleId paperRunId leanRunId db with
  | error e =>
    rw [settle_error hrun]
    exact h
  | ok r =>
    rw [settle_ok hrun]
    have hevents : r.2.events = db.events := by
      unfold Accounts.attachRun at hrun
      split at hrun
      · cases hrun
      · rw [← Except.ok.inj hrun]
        rfl
    intro id
    rw [(attachRun_cases hrun).1, CycleDb.eventsOf, hevents]
    exact h id

theorem Audited.claimDispatch {db' : CycleDb} (h : Audited db) {candidate : ExecutionCycle}
    {staleSeconds : Nat} (hclaim : claimDispatch candidate staleSeconds db = some db') :
    Audited db' := by
  unfold Accounts.claimDispatch at hclaim
  split at hclaim
  · cases hclaim
  · rename_i current hfind
    split_ifs at hclaim with hstale
    have hqueued : current.status = .queued := by
      by_contra hne
      exact hstale (Or.inl hne)
    have hid := CycleDb.find_id hfind
    have hstatus : db.status candidate.id = some .queued := by
      rw [CycleDb.status, hfind, Option.map_some, hqueued]
    have hrow : db.find current.id = some current := by rw [hid, hfind]
    have hput := (CycleDb.put_columns { current with version := current.version + 1 } hrow rfl).1
    have hsame : Function.update db.status current.id (some current.status) = db.status := by
      rw [hid, hqueued, ← hstatus, Function.update_eq_self]
    rw [← Option.some.inj hclaim]
    exact h.stay hstatus "dispatch_recovery_claimed" (.staleSeconds staleSeconds) rfl
      (hput.trans hsame)

theorem Audited.recordDispatch (h : Audited db) {cycleId : String}
    (hqueued : db.status cycleId = some .queued) (error : Option String) :
    Audited (recordDispatch cycleId error db) := by
  cases error with
  | none => exact h.stay hqueued "dispatch_recovery_published" .empty rfl rfl
  | some error =>
    exact h.stay hqueued "dispatch_recovery_publish_failed"
      (.publishError (error.take 1000).toString) rfl rfl

theorem Audited.advance (h : Audited db) (call : Recovery) (hqueued : match call.stage with
      | .record cycleId _ => db.status cycleId = some .queued
      | _ => True) (error : Option String) :
    Audited (call.advance error db).2 := by
  unfold Recovery.advance
  cases hstage : call.stage with
  | claim =>
    simp only
    cases hcandidates : call.candidates with
    | nil => exact h
    | cons candidate candidates =>
      simp only
      cases hclaim : Accounts.claimDispatch candidate call.staleSeconds db with
      | none => exact h
      | some db' => exact h.claimDispatch hclaim
  | publish cycleId => exact h
  | record cycleId outcome =>
    rw [hstage] at hqueued
    cases outcome with
    | none => exact h.recordDispatch hqueued none
    | some outcome => exact h.recordDispatch hqueued (some outcome)

/-! ## Runs -/

theorem audited_next {system : AuditSystem} (h : Audited system.db) {action : AuditAction}
    (hallowed : system.Allows action) (hqueued : RecordsQueued system action) :
    Audited (system.next action).db := by
  cases action with
  | ensure cycleId input => exact h.ensureCycle cycleId input hallowed
  | claim cycleId => exact h.claimCycleForWorker cycleId
  | transition cycleId toStatus eventType expected fields =>
    exact h.transitionCycle cycleId toStatus eventType expected fields
  | fail cycleId failureCode detail =>
    exact h.transitionCycle cycleId .failed "cycle_failed" openCycleStates _
  | beginFinalization cycleId =>
    exact h.transitionCycle cycleId .finalizing "legacy_pipeline_finalized" [.running, .queued] {}
  | succeed cycleId result =>
    exact h.transitionCycle cycleId .succeeded "cycle_reconciled" [.finalizing] _
  | attach cycleId paperRunId leanRunId => exact h.attachRun cycleId paperRunId leanRunId
  | recover n staleSeconds candidates => exact h
  | advance n error => exact h.advance _ hqueued error

/-- In every interleaving whose recorded publications find their cycle queued,
the audit log of every cycle is a path that ends at the status of the row. -/
theorem auditPath_of_recordsQueued (actions : List AuditAction) (cycleId : String)
    (haccepts : (auditMachine.restrict RecordsQueued).Accepts AuditSystem.empty actions) :
    AuditPath (auditMachine.after AuditSystem.empty actions).db cycleId := by
  have hempty : Audited AuditSystem.empty.db := fun _ => ⟨.nil, rfl⟩
  have hstep : ∀ system action, Audited system.db →
      (auditMachine.restrict RecordsQueued).allowed system action →
        Audited ((auditMachine.restrict RecordsQueued).next system action).db :=
    fun _ _ h hallowed => audited_next h hallowed.1 hallowed.2
  have haudited := Machine.invariant hstep actions _ hempty haccepts
  exact haudited.auditPath cycleId

/-! ## A claim between a publication and its record -/

/-- A scheduled cycle is queued, and the recovery claims and publishes it. -/
def recoveredDispatch : List AuditAction :=
  [.ensure "cycle" {}, .transition "cycle" .queued "beat_dispatched" [.scheduled] {},
    .recover 0 120 [{ newCycle "cycle" {} with status := .queued, version := 2 }],
    .advance 0 none, .advance 0 none]

/-- A worker claims the cycle before the recovery records the publication, and
the log of the running cycle ends at `queued`. -/
theorem recorded_after_claim :
    ∃ actions, auditMachine.Accepts AuditSystem.empty actions ∧
      ¬ AuditPath (auditMachine.after AuditSystem.empty actions).db "cycle" := by
  refine ⟨recoveredDispatch ++ [.claim "cycle", .advance 0 none], ?_, ?_⟩
  · decide +kernel
  · intro h
    have hfinal := h.final
    revert hfinal
    decide +kernel

theorem auditPath_recovered :
    AuditPath (auditMachine.after AuditSystem.empty
      (recoveredDispatch ++ [.advance 0 none, .claim "cycle"])).db "cycle" := by
  refine auditPath_of_recordsQueued _ "cycle" ?_
  decide +kernel

end LocalPlatform.Accounts
