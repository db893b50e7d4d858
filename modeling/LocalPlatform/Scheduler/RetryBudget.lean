import LocalPlatform.Lib.Machine
import LocalPlatform.Scheduler.Jobs

/-!
# The retry budget of the daily scheduler

`schedule_paper_walkforward_task` looks at every running session once a tick.
It creates the job of the next trade date, moves it to `READY` if its state and
its attempts allow, creates a walk-forward run, moves the job to `RUNNING` and
publishes the workflow.

* `scheduleTick` is the task.  What the backtest service and the broker answer
  is a parameter.
* `budgetMachine` runs ticks, finalizations, failures, operator resumes and
  recoveries in any order.
* `Budget` says that a job has as many workflows as attempts, and no more than
  it may have.  `FollowsStates` is the condition under which every run keeps it.
-/

namespace LocalPlatform.Scheduler

open Paper Transaction Transaction.TxM Tables Machines

/-! ## Sessions, runs and workflows -/

/-- `paper_sessions`, as far as the scheduler reads and writes it. -/
structure PaperSession where
  id : String
  mode : String
  venue : String
  status : String
  autoAdvance : Bool
  startDate : String
  lastProcessedDate : Option String := none
  legacyReadOnly : Bool := false
  failure : Option String := none
  deriving DecidableEq

/-- `paper_walkforward_runs`, as far as the scheduler reads and writes it. -/
structure PaperRun where
  id : String
  sessionId : String
  tradeDate : String
  backtestRunId : String
  taskId : String
  status : String
  failure : Option String := none
  deriving DecidableEq

/-- A workflow that the broker accepted. -/
structure Workflow where
  sessionId : String
  tradeDate : String
  paperRunId : String
  deriving DecidableEq

/-- The database of the scheduler, and the workflows it published. -/
structure SchedulerDb where
  sessions : List PaperSession
  runs : List PaperRun
  jobs : JobDb
  workflows : List Workflow
  deriving DecidableEq

/-- `_is_lean_mode` -/
def isLeanMode (mode : String) : Bool :=
  mode == "lean_walkforward" || mode == "lean_walkforward_v2"

/-- `get_session` -/
def SchedulerDb.session (db : SchedulerDb) (sessionId : String) : Option PaperSession :=
  Tables.find PaperSession.id db.sessions sessionId

/-- `get_walkforward_run` -/
def SchedulerDb.run (db : SchedulerDb) (paperRunId : String) : Option PaperRun :=
  Tables.find PaperRun.id db.runs paperRunId

def onJobs {α : Type} (f : JobDb → Except PaperError (α × JobDb)) : TxM SchedulerDb PaperError α :=
  TxM.zoom SchedulerDb.jobs (fun jobs db => { db with jobs := jobs }) (TxM.tx f)

/-! ## `create_walkforward_run` -/

/-- What a tick is told from outside: the clock, the calendar, whether the
backtest service creates the child of a run, whether the broker accepts a
workflow, and the names of new rows. -/
structure TickEnv where
  now : Nat
  today : String
  nextTradeDate : String → String → String
  createBacktest : String → String → Except String (String × String)
  publish : String → Option String
  jobId : String → String → String
  runId : String → String → String

/-- The date that a session has to process next. -/
def nextDate (env : TickEnv) (session : PaperSession) : String :=
  match session.lastProcessedDate with
  | some date => env.nextTradeDate session.venue date
  | none => session.startDate

/-- The checks of `create_walkforward_run` on its session. -/
def checkSession (env : TickEnv) (session : PaperSession) (tradeDate : String) :
    Except PaperError Unit :=
  if !isLeanMode session.mode || session.legacyReadOnly then
    .error (.valueError "This session is not an active LEAN Paper session.")
  else if session.status = "stopped" then
    .error (.valueError "Stopped LEAN Paper sessions cannot run.")
  else if tradeDate < session.startDate then
    .error (.valueError "tradeDate is before the Paper start date.")
  else if tradeDate ≠ nextDate env session then
    .error (.valueError s!"The next eligible Paper trade date is {nextDate env session}.")
  else .ok ()

def findRun (db : SchedulerDb) (sessionId tradeDate : String) : Option PaperRun :=
  db.runs.find? (fun run => run.sessionId == sessionId && run.tradeDate == tradeDate)

/-- The last transaction of `create_walkforward_run`: a run that failed is
reused. -/
def storeRun (env : TickEnv) (sessionId tradeDate : String) (existing : Option PaperRun)
    (child : String × String) (db : SchedulerDb) : PaperRun × SchedulerDb :=
  let run : PaperRun :=
    { id := (existing.map PaperRun.id).getD (env.runId sessionId tradeDate)
      sessionId := sessionId
      tradeDate := tradeDate
      backtestRunId := child.1
      taskId := child.2
      status := "queued" }
  (run,
    { db with
      runs := if existing.isSome then put PaperRun.id db.runs run else db.runs ++ [run]
      sessions := db.sessions.map (fun session =>
        if session.id = sessionId then { session with status := "running", failure := none }
        else session) })

/-- `create_walkforward_run` -/
def createWalkforwardRun (env : TickEnv) (sessionId tradeDate : String) :
    TxM SchedulerDb PaperError PaperRun :=
  TxM.tx (fun db =>
    match db.session sessionId with
    | none => .error (.keyError "Paper session not found.")
    | some session =>
      match checkSession env session tradeDate with
      | .error e => .error e
      | .ok () =>
        match findRun db sessionId tradeDate with
        | none =>
          match env.createBacktest sessionId tradeDate with
          | .error message => .error (.valueError message)
          | .ok child => .ok (storeRun env sessionId tradeDate none child db)
        | some run =>
          if run.status = "success" then .ok (run, db)
          else if run.status = "queued" ∨ run.status = "running" then
            .error (.valueError "This Paper trade date is already queued or running.")
          else
            match env.createBacktest sessionId tradeDate with
            | .error message => .error (.valueError message)
            | .ok child => .ok (storeRun env sessionId tradeDate (some run) child db))

/-! ## `schedule_paper_walkforward_task` -/

def errorText : PaperError → String
  | .keyError message => "'" ++ message ++ "'"
  | .valueError message => message
  | .integrityError constraint => constraint

/-- `blocked_state` -/
def blockedState (message : String) : JobState :=
  if mentions (lower message) "qa" then .blockedQa
  else if ["data", "benchmark", "certif", "source", "reference"].any
      (mentions (lower message)) then .blockedData
  else .failed

def retriedStates : List JobState := [.failed, .blockedData, .blockedQa, .retrying]

/-- The part of a tick between its job and its workflow.  It answers whether the
tick goes on. -/
def admitJob (now : Nat) (job : Job) : TxM SchedulerDb PaperError Bool :=
  if job.state = .completed then pure false
  else if job.state = .running ∨ job.state = .ready then pure false
  else if job.state ∈ retriedStates then
    if job.maxAttempts ≤ job.attempt then do
      let _ ← onJobs (transitionJob job.id .escalated "retry_budget_exhausted"
        { error := job.lastError } retriedStates none none now)
      pure false
    else do
      let _ ← if job.state ≠ .retrying then
          onJobs (transitionJob job.id .retrying "automatic_retry" {}
            [.failed, .blockedData, .blockedQa] none none now)
        else pure job
      let _ ← onJobs (transitionJob job.id .ready "retry_ready" {} [.retrying] none none now)
      pure true
  else if job.state = .scheduled then do
    let _ ← onJobs (transitionJob job.id .ready "readiness_passed" {} [.scheduled] none none now)
    pure true
  else pure true

/-- `workflow.apply_async` -/
def publishWorkflow (env : TickEnv) (run : PaperRun) : TxM SchedulerDb PaperError Unit :=
  TxM.tx (fun db =>
    match env.publish run.id with
    | some message => .error (.valueError message)
    | none =>
      .ok ((), { db with
        workflows := db.workflows ++
          [{ sessionId := run.sessionId, tradeDate := run.tradeDate, paperRunId := run.id }] }))

/-- The `try` block of a tick. -/
def dispatchJob (env : TickEnv) (job : Job) (sessionId tradeDate : String) :
    TxM SchedulerDb PaperError Unit := do
  let run ← createWalkforwardRun env sessionId tradeDate
  let _ ← onJobs (transitionJob job.id .running "workflow_queued" { paperRunId := some run.id }
    [.ready, .retrying] (some run.id) (some run.taskId) env.now)
  publishWorkflow env run

/-- `record_session_warning` -/
def recordWarning (sessionId message : String) (db : SchedulerDb) : SchedulerDb :=
  { db with
    sessions := db.sessions.map (fun session =>
      if session.id = sessionId then { session with failure := some message } else session) }

/-- The `except` block of a tick. -/
def blockJob (env : TickEnv) (job : Job) (sessionId : String) (error : PaperError) :
    TxM SchedulerDb PaperError Unit := do
  let message := errorText error
  let _ ← TxM.attempt (onJobs (transitionJob job.id (blockedState message) "schedule_failed"
    { error := some message } [.ready, .running] none none env.now))
  TxM.tx (fun db => .ok ((), recordWarning sessionId message db))

/-- Whether a tick looks at the next date of a session. -/
def isDue (env : TickEnv) (session : PaperSession) : Bool :=
  isLeanMode session.mode && session.status == "running" && session.autoAdvance &&
    nextDate env session != "" && !(env.today < nextDate env session)

/-- A run of a session and a date that is under way or done. -/
def hasRun (sessionId tradeDate : String) (db : SchedulerDb) : Bool :=
  db.runs.any (fun run => run.sessionId == sessionId && run.tradeDate == tradeDate &&
    ["queued", "running", "success"].contains run.status)

/-- `ensure_job` of a tick. -/
def ensureDailyJob (env : TickEnv) (sessionId tradeDate : String) (db : SchedulerDb) :
    Except PaperError (Job × SchedulerDb) :=
  match ensureJob (db.session sessionId).isSome sessionId tradeDate
      (env.jobId sessionId tradeDate) env.now 3 .scheduled db.jobs with
  | .ok (job, jobs) => .ok (job, { db with jobs := jobs })
  | .error e => .error e

/-- The part of a tick after its job was admitted. -/
def runJob (env : TickEnv) (job : Job) (sessionId tradeDate : String) :
    TxM SchedulerDb PaperError (Option PaperError) := do
  let outcome ← TxM.attempt (dispatchJob env job sessionId tradeDate)
  match outcome with
  | .ok () => pure none
  | .error e => do
    let _ ← blockJob env job sessionId e
    pure (some e)

/-- A tick of one session.  It answers the error that it met. -/
def tickSession (env : TickEnv) (session : PaperSession) :
    TxM SchedulerDb PaperError (Option PaperError) :=
  if !isDue env session then pure none
  else do
    let busy ← TxM.read (fun db => .ok (hasRun session.id (nextDate env session) db))
    if busy then pure none
    else do
      let job ← TxM.tx (ensureDailyJob env session.id (nextDate env session))
      let admitted ← admitJob env.now job
      if admitted then runJob env job session.id (nextDate env session) else pure none

/-- `recover_orphaned_jobs` -/
def recoverOrphanedJobs (timeout : Int) (now : Nat) : TxM SchedulerDb PaperError (List Job) := do
  let selected ← TxM.read (fun db => .ok (orphanedJobs (fun id => (db.session id).isSome)
    timeout now db.jobs))
  TxM.forEach (fun jobId => onJobs (recoverJob jobId now)) selected

/-- `schedule_paper_walkforward_task`: the errors of its sessions.  A tick with
errors is retried later, as a tick of its own. -/
def scheduleTick (env : TickEnv) : TxM SchedulerDb PaperError (List (Option PaperError)) := do
  let _ ← recoverOrphanedJobs 3600 env.now
  let sessions ← TxM.read (fun db => .ok db.sessions)
  TxM.forEach (tickSession env) sessions

/-! ## Finalizations and the operator -/

/-- How the finalization of a run turns out. -/
inductive FinalizeOutcome where
  | succeeded
  | failed (message : String)
  | raised (message : String)
  deriving DecidableEq

/-- `fail_walkforward_run` -/
def failWalkforwardRun (paperRunId message : String) (db : SchedulerDb) :
    Except PaperError (PaperRun × SchedulerDb) :=
  match db.run paperRunId with
  | none => .error (.keyError "Paper run not found.")
  | some run =>
    let failed := { run with status := "failed", failure := some message }
    .ok (failed,
      { db with
        runs := put PaperRun.id db.runs failed
        sessions := db.sessions.map (fun session =>
          if session.id = run.sessionId then
            { session with status := "paused", failure := some message }
          else session) })

/-- `finalize_walkforward_run`: a run that succeeded is returned. -/
def finalizeWalkforwardRun (paperRunId : String) (outcome : FinalizeOutcome)
    (db : SchedulerDb) : Except PaperError (PaperRun × SchedulerDb) :=
  match db.run paperRunId with
  | none => .error (.keyError "Paper run not found.")
  | some run =>
    if run.status = "success" then .ok (run, db)
    else
      match outcome with
      | .raised message => .error (.valueError message)
      | .failed message => failWalkforwardRun paperRunId message db
      | .succeeded =>
        let done := { run with status := "success" }
        .ok (done,
          { db with
            runs := put PaperRun.id db.runs done
            sessions := db.sessions.map (fun session =>
              if session.id = run.sessionId then
                { session with lastProcessedDate := some run.tradeDate }
              else session) })

/-- The transition of a job whose run succeeded. -/
def completeJob (job : Job) (run : PaperRun) (now : Nat) (db : JobDb) :
    Except PaperError (Job × JobDb) :=
  transitionJob job.id .completed "paper_run_completed" { paperRunId := some run.id }
    [.running, .retrying] (some run.id)
    (if run.taskId = "" then none else some run.taskId) now db

/-- The transition of a job whose run failed. -/
def failJob (job : Job) (paperRunId : String) (run : PaperRun) (now : Nat) (db : JobDb) :
    Except PaperError (Job × JobDb) :=
  transitionJob job.id .failed "paper_run_failed"
    { paperRunId := some paperRunId, error := some (run.failure.getD "finalize_failed") }
    [.running, .retrying] none none now db

/-- `finalize_paper_walkforward_task` -/
def finalizeTask (paperRunId : String) (outcome : FinalizeOutcome) (now : Nat) :
    TxM SchedulerDb PaperError PaperRun := do
  let run ← TxM.tx (finalizeWalkforwardRun paperRunId outcome)
  let job ← TxM.read (fun db => .ok (db.jobs.forDate run.sessionId run.tradeDate))
  match job with
  | none => pure run
  | some job =>
    if run.status = "success" then do
      let _ ← onJobs (completeJob job run now)
      pure run
    else do
      let _ ← onJobs (failJob job paperRunId run now)
      pure run

/-- `fail_paper_walkforward_task` -/
def failTask (paperRunId message : String) (now : Nat) : TxM SchedulerDb PaperError PaperRun := do
  let run ← TxM.tx (failWalkforwardRun paperRunId message)
  let job ← TxM.read (fun db => .ok (db.jobs.forDate run.sessionId run.tradeDate))
  match job with
  | none => pure run
  | some job =>
    if job.state = .running ∨ job.state = .retrying then do
      let _ ← onJobs (transitionJob job.id .failed "worker_error"
        { paperRunId := some paperRunId, error := some message } [.running, .retrying]
        none none now)
      pure run
    else pure run

/-- `mark_walkforward_running` -/
def markRunning (paperRunId : String) (db : SchedulerDb) : SchedulerDb :=
  { db with
    runs := db.runs.map (fun run =>
      if run.id = paperRunId then { run with status := "running" } else run) }

/-- `update_session_status` -/
def updateSessionStatus (sessionId status : String) (db : SchedulerDb) :
    Except PaperError (Unit × SchedulerDb) :=
  if status ∉ ["created", "running", "paused", "stopped"] then
    .error (.valueError
      "Paper session status must be created, running, paused, or stopped.")
  else
    match db.session sessionId with
    | none => .error (.keyError "Paper session not found.")
    | some session =>
      if session.legacyReadOnly then
        .error (.valueError "Read-only internal Paper sessions cannot be mutated.")
      else if session.status = "stopped" ∧ status ≠ "stopped" then
        .error (.valueError "Stopped LEAN Paper sessions are immutable.")
      else
        let updated := { session with status := status }
        .ok ((), { db with sessions := put PaperSession.id db.sessions updated })

/-! ## Every sequence of calls -/

/-- A call of the scheduler, of a worker or of the operator. -/
inductive SchedulerAction where
  | tick (env : TickEnv)
  | markRunning (paperRunId : String)
  | finalize (paperRunId : String) (outcome : FinalizeOutcome) (now : Nat)
  | fail (paperRunId message : String) (now : Nat)
  | resume (sessionId : String)
  | recover (timeout : Int) (now : Nat)

/-- The database after a call. -/
def SchedulerAction.next (db : SchedulerDb) : SchedulerAction → SchedulerDb
  | .tick env => (scheduleTick env db).state
  | .markRunning paperRunId => Scheduler.markRunning paperRunId db
  | .finalize paperRunId outcome now => (finalizeTask paperRunId outcome now db).state
  | .fail paperRunId message now => (failTask paperRunId message now db).state
  | .resume sessionId => settle (updateSessionStatus sessionId "running") db
  | .recover timeout now => (recoverOrphanedJobs timeout now db).state

/-- The name that a tick would give to the job of a session. -/
def TickEnv.jobName (env : TickEnv) (session : PaperSession) : String :=
  env.jobId session.id (nextDate env session)

/-- The names of new jobs are fresh. -/
structure TickEnv.Fresh (env : TickEnv) (db : SchedulerDb) : Prop where
  unused : ∀ session ∈ db.sessions, db.jobs.find (env.jobName session) = none
  distinct : ∀ session ∈ db.sessions, ∀ other ∈ db.sessions,
    env.jobName session = env.jobName other → session.id = other.id

instance (env : TickEnv) (db : SchedulerDb) : Decidable (env.Fresh db) :=
  decidable_of_iff
    ((∀ session ∈ db.sessions, db.jobs.find (env.jobName session) = none) ∧
      ∀ session ∈ db.sessions, ∀ other ∈ db.sessions,
        env.jobName session = env.jobName other → session.id = other.id)
    ⟨fun h => ⟨h.1, h.2⟩, fun h => ⟨h.unused, h.distinct⟩⟩

/-- Every sequence of calls. -/
abbrev budgetMachine : Machine SchedulerDb SchedulerAction where
  allowed := fun db action =>
    match action with
    | .tick env => env.Fresh db
    | _ => True
  next := SchedulerAction.next

instance (db : SchedulerDb) (action : SchedulerAction) :
    Decidable (budgetMachine.allowed db action) :=
  match action with
  | .tick env => inferInstanceAs (Decidable (env.Fresh db))
  | .markRunning _ | .finalize _ _ _ | .fail _ _ _ | .resume _ | .recover _ _ => .isTrue trivial

/-! ## The budget -/

def SchedulerDb.dispatched (db : SchedulerDb) (sessionId tradeDate : String) : Nat :=
  (db.workflows.filter (fun workflow => workflow.sessionId == sessionId &&
    workflow.tradeDate == tradeDate)).length

/-- Every job has as many workflows as attempts, and no more than it may have. -/
structure Budget (db : SchedulerDb) : Prop where
  sessions : Unique PaperSession.id db.sessions
  keyed : Keyed db.jobs
  spent : ∀ sessionId tradeDate job, db.jobs.forDate sessionId tradeDate = some job →
    db.dispatched sessionId tradeDate = job.attempt ∧ job.attempt ≤ job.maxAttempts ∧
      (job.state = .scheduled → job.attempt < job.maxAttempts)
  unspent : ∀ sessionId tradeDate, db.jobs.forDate sessionId tradeDate = none →
    db.dispatched sessionId tradeDate = 0

def unroutedStates : List JobState :=
  [.waitingForData, .blockedPreviousDay, .escalated, .skippedNonTradingDay,
    .manualInterventionRequired]

/-- The next job of a session is in a state that a branch of a tick names. -/
def Routed (env : TickEnv) (db : SchedulerDb) (session : PaperSession) : Prop :=
  ∀ job ∈ db.jobs.forDate session.id (nextDate env session), job.state ∉ unroutedStates

instance (env : TickEnv) (db : SchedulerDb) (session : PaperSession) :
    Decidable (Routed env db session) :=
  inferInstanceAs (Decidable (∀ job ∈ db.jobs.forDate session.id (nextDate env session),
    job.state ∉ unroutedStates))

/-- A tick finds the next job of every due session in a state that it names, and
the broker accepts its workflows. -/
def FollowsStates (db : SchedulerDb) : SchedulerAction → Prop
  | .tick env => (∀ session ∈ db.sessions, isDue env session = true → Routed env db session) ∧
      ∀ paperRunId, env.publish paperRunId = none
  | _ => True

/-- The database `after` differs from `before` in the jobs of one day at most,
and a new job is called `name`. -/
structure OnlyDay (day : String × String) (name : String) (before after : SchedulerDb) :
    Prop where
  budget : Budget after
  elsewhere : ∀ sessionId tradeDate, (sessionId, tradeDate) ≠ day →
    after.jobs.forDate sessionId tradeDate = before.jobs.forDate sessionId tradeDate
  unused : ∀ id, id ≠ name → before.jobs.find id = none → after.jobs.find id = none

section Budget

variable {db : SchedulerDb}

theorem OnlyDay.refl (h : Budget db) (day : String × String) (name : String) :
    OnlyDay day name db db :=
  ⟨h, fun _ _ _ => rfl, fun _ _ h => h⟩

theorem OnlyDay.trans {day : String × String} {name : String} {a b c : SchedulerDb}
    (h : OnlyDay day name a b) (h' : OnlyDay day name b c) : OnlyDay day name a c where
  budget := h'.budget
  elsewhere := fun s d hday => (h'.elsewhere s d hday).trans (h.elsewhere s d hday)
  unused := fun id hname hid => h'.unused id hname (h.unused id hname hid)

theorem Budget.congr (h : Budget db) {db' : SchedulerDb} (hjobs : db'.jobs = db.jobs)
    (hworkflows : db'.workflows = db.workflows)
    (hsessions : Unique PaperSession.id db'.sessions) : Budget db' := by
  have hdispatched : db'.dispatched = db.dispatched := by
    unfold SchedulerDb.dispatched
    rw [hworkflows]
  refine ⟨hsessions, ?_, ?_, ?_⟩
  · rw [hjobs]
    exact h.keyed
  · rw [hjobs, hdispatched]
    exact h.spent
  · rw [hjobs, hdispatched]
    exact h.unspent

theorem OnlyDay.congr (h : Budget db) (day : String × String) (name : String)
    {db' : SchedulerDb} (hjobs : db'.jobs = db.jobs) (hworkflows : db'.workflows = db.workflows)
    (hsessions : Unique PaperSession.id db'.sessions) : OnlyDay day name db db' := by
  refine ⟨h.congr hjobs hworkflows hsessions, ?_, ?_⟩
  · intro _ _ _
    rw [hjobs]
  · intro id _ hid
    rw [hjobs]
    exact hid

variable {toState : JobState}

theorem Budget.transition (h : Budget db) {jobId : String} {eventType : String}
    {payload : JobPayload} {expected : List JobState} {paperRunId taskId : Option String}
    {now : Nat} {job' : Job} {jobs : JobDb} (hrunning : toState ≠ .running)
    (hscheduled : toState ≠ .scheduled)
    (hrun : transitionJob jobId toState eventType payload expected paperRunId taskId now db.jobs =
      .ok (job', jobs)) (name : String) :
    ∃ job, db.jobs.find jobId = some job ∧ Transitioned db.jobs jobs job job' ∧
      OnlyDay job.day name db { db with jobs := jobs } ∧ job'.attempt = job.attempt ∧
        (job'.state = job.state ∨ job'.state = toState) ∧
          (job.state ∈ expected → job'.state = toState) := by
  obtain ⟨job, hfind, hmoved, hcase⟩ := transitionJob_spec h.keyed hrun
  have hmem : job ∈ db.jobs.jobs := mem_of_find hfind
  have hday : db.jobs.forDate job.sessionId job.tradeDate = some job :=
    h.keyed.days.find_of_mem hmem
  obtain ⟨hspent, hmax, hfresh⟩ := h.spent _ _ job hday
  have hattempt : job'.attempt = job.attempt := by
    rcases hcase with ⟨rfl, -⟩ | ⟨-, -, rfl⟩
    · rfl
    · show (if toState = .running then job.attempt + 1 else job.attempt) = job.attempt
      rw [if_neg hrunning]
  have hstate : job'.state = job.state ∨ job'.state = toState := by
    rcases hcase with ⟨rfl, -⟩ | ⟨-, -, rfl⟩
    · exact Or.inl rfl
    · exact Or.inr rfl
  refine ⟨job, hfind, hmoved, ⟨⟨h.sessions, hmoved.keyed, ?_, ?_⟩, ?_, ?_⟩, hattempt, hstate, ?_⟩
  · intro sessionId tradeDate row hrow
    show db.dispatched sessionId tradeDate = _ ∧ _
    rw [show ({ db with jobs := jobs } : SchedulerDb).jobs = jobs from rfl,
      hmoved.forDate] at hrow
    split_ifs at hrow with hkey
    · obtain ⟨rfl, rfl⟩ := Prod.mk.inj hkey
      rw [← Option.some.inj hrow, hattempt, hmoved.maxAttempts]
      refine ⟨hspent, hmax, fun hfirst => hfresh ?_⟩
      rcases hstate with hsame | hto
      · rw [← hsame]
        exact hfirst
      · exact absurd (hto.symm.trans hfirst) hscheduled
    · exact h.spent _ _ row hrow
  · intro sessionId tradeDate hnone
    rw [show ({ db with jobs := jobs } : SchedulerDb).jobs = jobs from rfl,
      hmoved.forDate] at hnone
    split_ifs at hnone with hkey
    exact h.unspent _ _ hnone
  · intro sessionId tradeDate hkey
    show jobs.forDate sessionId tradeDate = _
    rw [hmoved.forDate, if_neg hkey]
  · exact fun id _ hid => hmoved.unused id hid
  · intro hexpected
    rcases hcase with ⟨rfl, hout | hsame⟩ | ⟨-, -, rfl⟩
    · exact absurd hexpected hout
    · exact hsame.symm
    · rfl

theorem Budget.onJobs (h : Budget db) {jobId : String} {eventType : String} {payload : JobPayload}
    {expected : List JobState} {paperRunId taskId : Option String} {now : Nat}
    (hrunning : toState ≠ .running) (hscheduled : toState ≠ .scheduled) :
    wp (fun _ => True) (onJobs (transitionJob jobId toState eventType payload expected paperRunId
      taskId now)) (fun _ t => Budget t) db := by
  refine wp_zoom (wp_tx ?_ (fun _ _ => h))
  intro job' jobs hrun
  obtain ⟨job, -, -, honly, -⟩ := h.transition hrunning hscheduled hrun ""
  exact ⟨trivial, honly.budget⟩

variable {sessionId tradeDate : String} {job : Job}

theorem Budget.move (h : Budget db) (hcurrent : db.jobs.forDate sessionId tradeDate = some job)
    (hrunning : toState ≠ .running) (hscheduled : toState ≠ .scheduled) (eventType : String)
    (payload : JobPayload) (expected : List JobState) (now : Nat) (name : String) :
    wp (fun _ => True)
      (Scheduler.onJobs (transitionJob job.id toState eventType payload expected none none now))
      (fun r t => OnlyDay (sessionId, tradeDate) name db t ∧ ∀ job', r = .ok job' →
        t.jobs.forDate sessionId tradeDate = some job' ∧ job'.id = job.id ∧
          job'.attempt = job.attempt ∧ job'.maxAttempts = job.maxAttempts ∧
            (job.state ∈ expected → job'.state = toState)) db := by
  refine wp_zoom (wp_tx ?_ ?_)
  · intro job' jobs hrun
    obtain ⟨found, hfind, hmoved, honly, hattempt, -, hto⟩ :=
      h.transition hrunning hscheduled hrun name
    have hmem : job ∈ db.jobs.jobs := mem_of_find hcurrent
    have hself : db.jobs.find job.id = some job := h.keyed.ids.find_of_mem hmem
    rw [hself, Option.some.injEq] at hfind
    subst hfind
    have hday : job.day = (sessionId, tradeDate) := find_key hcurrent
    rw [hday] at honly
    refine ⟨trivial, honly, ?_⟩
    intro row hrow
    rw [← Except.ok.inj hrow]
    refine ⟨?_, hmoved.id, hattempt, hmoved.maxAttempts, hto⟩
    show jobs.forDate sessionId tradeDate = some job'
    rw [hmoved.forDate, hday, if_pos rfl]
  · intro e _
    exact ⟨.refl h _ name, fun row hrow => by cases hrow⟩

theorem unique_sessions_map (h : Budget db) {f : PaperSession → PaperSession}
    (hf : ∀ session, (f session).id = session.id) : Unique PaperSession.id (db.sessions.map f) :=
  h.sessions.map (fun session _ => hf session)

/-! ## A tick of one session -/

variable {env : TickEnv} {session : PaperSession} {t : SchedulerDb}

/-- The job of a day, once it is ensured. -/
theorem Budget.ensure (h : Budget db) (hrouted : Routed env db session)
    (hunused : db.jobs.find (env.jobName session) = none)
    (hrun : ensureDailyJob env session.id (nextDate env session) db = .ok (job, t)) :
    OnlyDay (session.id, nextDate env session)
        (env.jobName session) db t ∧
      t.jobs.forDate session.id (nextDate env session) = some job ∧
        job.state ∉ unroutedStates := by
  unfold ensureDailyJob ensureJob at hrun
  cases hparent : (db.session session.id).isSome with
  | false =>
    rw [hparent] at hrun
    cases hrun
  | true =>
    rw [hparent] at hrun
    simp only [Bool.not_true, Bool.false_eq_true, if_false] at hrun
    cases hexisting : db.jobs.forDate session.id (nextDate env session) with
    | some existing =>
      simp only [hexisting] at hrun
      cases hquarantined : existing.quarantined with
      | some reason =>
        simp only [hquarantined] at hrun
        cases hrun
      | none =>
        simp only [hquarantined] at hrun
        obtain ⟨rfl, rfl⟩ := ok_inj hrun
        exact ⟨.refl h _ _, hexisting, hrouted existing hexisting⟩
    | none =>
      simp only [hexisting] at hrun
      obtain ⟨rfl, rfl⟩ := ok_inj hrun
      set created := newJob (env.jobId session.id (nextDate env session)) session.id
        (nextDate env session) 3 .scheduled
      have hday : created.day = (session.id, nextDate env session) := rfl
      have hfreshDay : Tables.find Job.day db.jobs.jobs created.day = none := hexisting
      have hfreshId : Tables.find Job.id db.jobs.jobs created.id = none := hunused
      have hforDate : ∀ sessionId tradeDate,
          Tables.find Job.day (db.jobs.jobs ++ [created]) (sessionId, tradeDate) =
            if (sessionId, tradeDate) = created.day then some created
            else db.jobs.forDate sessionId tradeDate :=
        fun sessionId tradeDate => find_append_singleton hfreshDay (sessionId, tradeDate)
      have hkeyed : Unique Job.id (db.jobs.jobs ++ [created]) ∧
          Unique Job.day (db.jobs.jobs ++ [created]) :=
        ⟨h.keyed.ids.append_singleton hfreshId, h.keyed.days.append_singleton hfreshDay⟩
      refine ⟨⟨⟨h.sessions, ⟨hkeyed.1, hkeyed.2⟩, ?_, ?_⟩, ?_, ?_⟩, ?_, ?_⟩
      · intro sessionId tradeDate row hrow
        replace hrow : Tables.find Job.day (db.jobs.jobs ++ [created])
          (sessionId, tradeDate) = some row := hrow
        show db.dispatched sessionId tradeDate = _ ∧ _
        rw [hforDate] at hrow
        split_ifs at hrow with hkey
        · obtain ⟨rfl, rfl⟩ := Prod.mk.inj hkey
          rw [← Option.some.inj hrow]
          refine ⟨h.unspent _ _ hexisting, Nat.zero_le _, fun _ => ?_⟩
          show 0 < (max 1 (3 : Int)).toNat
          decide
        · exact h.spent _ _ row hrow
      · intro sessionId tradeDate hnone
        replace hnone : Tables.find Job.day (db.jobs.jobs ++ [created])
          (sessionId, tradeDate) = none := hnone
        rw [hforDate] at hnone
        split_ifs at hnone with hkey
        exact h.unspent _ _ hnone
      · intro sessionId tradeDate hkey
        show Tables.find Job.day (db.jobs.jobs ++ [created]) (sessionId, tradeDate) = _
        rw [hforDate, hday, if_neg hkey]
      · intro id hname hid
        show Tables.find Job.id (db.jobs.jobs ++ [created]) id = none
        rw [find_append_singleton hfreshId, if_neg (show id ≠ created.id from hname)]
        exact hid
      · show Tables.find Job.day (db.jobs.jobs ++ [created]) _ = _
        rw [hforDate, if_pos hday.symm]
      · show JobState.scheduled ∉ unroutedStates
        decide

/-- An admitted job is `READY` and has an attempt left. -/
theorem Budget.admitted (h : Budget db) (hcurrent : db.jobs.forDate sessionId tradeDate = some job)
    (hrouted : job.state ∉ unroutedStates) (now : Nat) (name : String) :
    wp (fun _ => True) (admitJob now job)
      (fun r t => OnlyDay (sessionId, tradeDate) name db t ∧
        (r = .ok true → ∃ row, t.jobs.forDate sessionId tradeDate = some row ∧
          row.id = job.id ∧ row.state = .ready ∧ row.attempt < row.maxAttempts)) db := by
  have hrefl : OnlyDay (sessionId, tradeDate) name db db := .refl h _ name
  unfold admitJob
  split_ifs with hcompleted hbusy hretried hspent hretrying hscheduled
  · exact wp_pure ⟨hrefl, fun hr => by cases hr⟩
  · exact wp_pure ⟨hrefl, fun hr => by cases hr⟩
  · refine wp_bind (wp_mono (h.move hcurrent (by decide) (by decide) _ _ _ now name)
      (fun _ h => h) ?_)
    rintro (e | job') t ⟨honly, -⟩
    · exact ⟨honly, fun hr => by cases hr⟩
    · exact wp_pure ⟨honly, fun hr => by cases hr⟩
  · refine wp_bind (wp_mono (h.move hcurrent (by decide) (by decide) _ _ _ now name)
      (fun _ h => h) ?_)
    rintro (e | first) t ⟨hfirst, hmoved⟩
    · exact ⟨hfirst, fun hr => by cases hr⟩
    · obtain ⟨hcurrent', hid, hattempt, hmax, hto⟩ := hmoved first rfl
      have hstate : first.state = .retrying := by
        apply hto
        revert hretried hretrying
        cases job.state <;> decide
      rw [← hid]
      refine wp_bind (wp_mono (hfirst.budget.move hcurrent' (by decide) (by decide) _ _ _ now name)
        (fun _ h => h) ?_)
      rintro (e | second) u ⟨hsecond, hmoved'⟩
      · exact ⟨hfirst.trans hsecond, fun hr => by cases hr⟩
      · obtain ⟨hcurrent'', hid', hattempt', hmax', hto'⟩ := hmoved' second rfl
        refine wp_pure ⟨hfirst.trans hsecond, fun _ => ⟨second, hcurrent'', hid', ?_, ?_⟩⟩
        · apply hto'
          rw [hstate]
          decide
        · rw [hattempt', hmax', hattempt, hmax]
          omega
  · refine wp_bind (wp_pure (wp_bind (wp_mono
      (h.move hcurrent (by decide) (by decide) _ _ _ now name) (fun _ h => h) ?_)))
    rintro (e | row) t ⟨honly, hmoved⟩
    · exact ⟨honly, fun hr => by cases hr⟩
    · obtain ⟨hcurrent', hid, hattempt, hmax, hto⟩ := hmoved row rfl
      refine wp_pure ⟨honly, fun _ => ⟨row, hcurrent', hid, ?_, ?_⟩⟩
      · apply hto
        rw [not_not.mp hretrying]
        decide
      · rw [hattempt, hmax]
        omega
  · refine wp_bind (wp_mono (h.move hcurrent (by decide) (by decide) _ _ _ now name)
      (fun _ h => h) ?_)
    rintro (e | row) t ⟨honly, hmoved⟩
    · exact ⟨honly, fun hr => by cases hr⟩
    · obtain ⟨hcurrent', hid, hattempt, hmax, hto⟩ := hmoved row rfl
      refine wp_pure ⟨honly, fun _ => ⟨row, hcurrent', hid, ?_, ?_⟩⟩
      · apply hto
        rw [hscheduled]
        decide
      · rw [hattempt, hmax]
        exact (h.spent _ _ job hcurrent).2.2 hscheduled
  · -- no branch names the state of the job
    exfalso
    revert hcompleted hbusy hretried hscheduled hrouted
    cases job.state <;> decide

theorem Budget.create (h : Budget db) (env : TickEnv) (sessionId tradeDate : String) :
    wp (fun _ => True) (createWalkforwardRun env sessionId tradeDate)
      (fun r t => (t.jobs = db.jobs ∧ t.workflows = db.workflows ∧
          Unique PaperSession.id t.sessions) ∧
        ∀ run, r = .ok run → run.sessionId = sessionId ∧ run.tradeDate = tradeDate) db := by
  have hstored : ∀ existing child, Unique PaperSession.id
      (storeRun env sessionId tradeDate existing child db).2.sessions := by
    intro existing child
    refine unique_sessions_map h (fun session => ?_)
    split_ifs <;> rfl
  refine wp_tx ?_ (fun e _ => ⟨⟨rfl, rfl, h.sessions⟩, fun run hrun => by cases hrun⟩)
  intro run t hrun
  refine ⟨trivial, ?_⟩
  split at hrun
  · cases hrun
  · split at hrun
    · cases hrun
    · split at hrun
      · split at hrun
        · cases hrun
        · rename_i child _
          obtain ⟨rfl, rfl⟩ := ok_inj hrun
          refine ⟨⟨rfl, rfl, hstored none child⟩, fun row hrow => ?_⟩
          rw [← Except.ok.inj hrow]
          exact ⟨rfl, rfl⟩
      · rename_i existing hfound
        split_ifs at hrun
        · obtain ⟨rfl, rfl⟩ := ok_inj hrun
          refine ⟨⟨rfl, rfl, h.sessions⟩, fun row hrow => ?_⟩
          rw [← Except.ok.inj hrow]
          simpa using List.find?_some hfound
        · split at hrun
          · cases hrun
          · rename_i child _
            obtain ⟨rfl, rfl⟩ := ok_inj hrun
            refine ⟨⟨rfl, rfl, hstored (some existing) child⟩, fun row hrow => ?_⟩
            rw [← Except.ok.inj hrow]
            exact ⟨rfl, rfl⟩

/-- The move to `RUNNING` and the workflow of an admitted job: one attempt and
one workflow more. -/
theorem Budget.launch (h : Budget db) (hcurrent : db.jobs.forDate sessionId tradeDate = some job)
    (hready : job.state = .ready) (hleft : job.attempt < job.maxAttempts)
    (haccepts : ∀ paperRunId, env.publish paperRunId = none) {run : PaperRun}
    (hsession : run.sessionId = sessionId) (hdate : run.tradeDate = tradeDate)
    (payload : JobPayload) (paperRunId taskId : Option String) (name : String) :
    wp (fun _ => True)
      (do
        let _ ← Scheduler.onJobs (transitionJob job.id .running "workflow_queued" payload
          [.ready, .retrying] paperRunId taskId env.now)
        publishWorkflow env run)
      (fun _ t => OnlyDay (sessionId, tradeDate) name db t ∧
        ∃ row, t.jobs.forDate sessionId tradeDate = some row ∧ row.id = job.id) db := by
  subst hsession hdate
  refine wp_bind (wp_zoom (wp_tx ?_ (fun e _ => ⟨.refl h _ name, job, hcurrent, rfl⟩)))
  intro job' jobs hrun
  refine ⟨trivial, ?_⟩
  obtain ⟨found, hfind, hmoved, hcase⟩ := transitionJob_spec h.keyed hrun
  have hmem : job ∈ db.jobs.jobs := mem_of_find hcurrent
  rw [show db.jobs.find job.id = some job from h.keyed.ids.find_of_mem hmem,
    Option.some.injEq] at hfind
  subst hfind
  have hday : job.day = (run.sessionId, run.tradeDate) := find_key hcurrent
  obtain ⟨hspent, -, -⟩ := h.spent _ _ job hcurrent
  -- a `READY` job does move, so its attempt counts
  have hrow : job' = job.moved .running payload paperRunId taskId env.now := by
    rcases hcase with ⟨-, hout | hsame⟩ | ⟨-, -, hrow⟩
    · rw [hready] at hout
      exact absurd (by decide) hout
    · rw [hready] at hsame
      cases hsame
    · exact hrow
  have hattempt : job'.attempt = job.attempt + 1 := by
    rw [hrow]
    rfl
  have hstate : job'.state = .running := by
    rw [hrow]
    rfl
  refine wp_tx ?_ (fun e hpublish => ?_)
  · intro _ t hpublish
    refine ⟨trivial, ?_⟩
    simp only [haccepts] at hpublish
    obtain ⟨-, rfl⟩ := ok_inj hpublish
    have hcount : ∀ s d, SchedulerDb.dispatched
        { db with
          jobs := jobs
          workflows := db.workflows ++ [⟨run.sessionId, run.tradeDate, run.id⟩] } s d =
          if (s, d) = job.day then db.dispatched s d + 1 else db.dispatched s d := by
      intro s d
      unfold SchedulerDb.dispatched
      simp only [List.filter_append, List.length_append]
      rw [hday]
      split_ifs with hkey
      · obtain ⟨rfl, rfl⟩ := Prod.mk.inj hkey
        simp
      · have hother : (run.sessionId == s && run.tradeDate == d) = false := by
          rw [Bool.eq_false_iff]
          intro hsame
          apply hkey
          simp only [Bool.and_eq_true, beq_iff_eq] at hsame
          rw [hsame.1, hsame.2]
        simp [hother]
    refine ⟨⟨⟨h.sessions, hmoved.keyed, ?_, ?_⟩, ?_, fun id _ hid => hmoved.unused id hid⟩,
      job', ?_, hmoved.id⟩
    · intro s d row hfound
      replace hfound : jobs.forDate s d = some row := hfound
      rw [hcount]
      rw [hmoved.forDate] at hfound
      split_ifs at hfound ⊢ with hkey
      · rw [← Option.some.inj hfound, hattempt, hmoved.maxAttempts, hstate]
        rw [hday] at hkey
        obtain ⟨rfl, rfl⟩ := Prod.mk.inj hkey
        refine ⟨by rw [hspent], hleft, fun hfirst => by cases hfirst⟩
      · exact h.spent _ _ row hfound
    · intro s d hnone
      replace hnone : jobs.forDate s d = none := hnone
      rw [hcount]
      rw [hmoved.forDate] at hnone
      split_ifs at hnone ⊢ with hkey
      exact h.unspent _ _ hnone
    · intro s d hkey
      show jobs.forDate s d = _
      rw [hmoved.forDate, hday, if_neg hkey]
    · show jobs.forDate _ _ = _
      rw [hmoved.forDate, hday, if_pos rfl]
  · simp only [haccepts] at hpublish
    cases hpublish

theorem Budget.run (h : Budget db) {row : Job}
    (hcurrent : db.jobs.forDate sessionId tradeDate = some row) (hid : row.id = job.id)
    (hready : row.state = .ready) (hleft : row.attempt < row.maxAttempts)
    (haccepts : ∀ paperRunId, env.publish paperRunId = none) (name : String) :
    wp (fun _ => True) (runJob env job sessionId tradeDate)
      (fun _ t => OnlyDay (sessionId, tradeDate) name db t) db := by
  have hdispatch : wp (fun _ => True) (dispatchJob env job sessionId tradeDate)
      (fun _ t => OnlyDay (sessionId, tradeDate) name db t ∧
        ∃ row', t.jobs.forDate sessionId tradeDate = some row' ∧ row'.id = job.id) db := by
    refine wp_bind (wp_mono (h.create env sessionId tradeDate) (fun _ _ => trivial) ?_)
    rintro (e | run) t ⟨⟨hjobs, hworkflows, hsessions⟩, hrun⟩
    · refine ⟨.congr h _ name hjobs hworkflows hsessions, row, ?_, hid⟩
      rw [hjobs]
      exact hcurrent
    · obtain ⟨hsession, hdate⟩ := hrun run rfl
      have hcreated : OnlyDay (sessionId, tradeDate) name db t :=
        .congr h _ name hjobs hworkflows hsessions
      have hcurrent' : t.jobs.forDate sessionId tradeDate = some row := by
        rw [hjobs]
        exact hcurrent
      rw [← hid]
      refine wp_mono (hcreated.budget.launch hcurrent' hready hleft haccepts hsession hdate
        _ _ _ name) (fun _ h => h) ?_
      intro r u hu
      exact ⟨hcreated.trans hu.1, hu.2⟩
  refine wp_bind (wp_attempt (wp_mono hdispatch (fun _ h => h) ?_))
  rintro (e | _) t ⟨honly, row', hrow', hid'⟩
  · refine wp_bind (wp_bind (wp_attempt ?_))
    rw [← hid']
    have hblocked : blockedState (errorText e) ≠ .running ∧
        blockedState (errorText e) ≠ .scheduled := by
      unfold blockedState
      split_ifs <;> exact ⟨by decide, by decide⟩
    refine wp_mono (honly.budget.move hrow' hblocked.1 hblocked.2 "schedule_failed" _ _ _ name)
      (fun _ h => h) ?_
    rintro r u ⟨hu, -⟩
    refine wp_tx ?_ (fun _ hnever => by cases hnever)
    intro _ v hv
    obtain ⟨-, rfl⟩ := ok_inj hv
    refine ⟨trivial, wp_pure ((honly.trans hu).trans (.congr hu.budget _ name rfl rfl ?_))⟩
    refine unique_sessions_map hu.budget (fun session => ?_)
    split_ifs <;> rfl
  · exact wp_pure honly

theorem Budget.tickSession (h : Budget db)
    (hrouted : isDue env session = true → Routed env db session)
    (hunused : db.jobs.find (env.jobName session) = none)
    (haccepts : ∀ paperRunId, env.publish paperRunId = none) :
    wp (fun _ => True) (Scheduler.tickSession env session)
      (fun _ t => OnlyDay (session.id, nextDate env session)
        (env.jobName session) db t) db := by
  have hrefl := OnlyDay.refl h (session.id, nextDate env session)
    (env.jobName session)
  unfold Scheduler.tickSession
  split_ifs with hdue
  · exact wp_pure hrefl
  · refine wp_bind (wp_read ?_)
    show wp _ (if hasRun session.id (nextDate env session) db = true then _ else _) _ db
    split_ifs
    · exact wp_pure hrefl
    · refine wp_bind (wp_tx ?_ (fun _ _ => hrefl))
      intro job t hrun
      refine ⟨trivial, ?_⟩
      obtain ⟨hensured, hcurrent, hstate⟩ := h.ensure (hrouted (by simpa using hdue)) hunused hrun
      refine wp_bind (wp_mono (hensured.budget.admitted hcurrent hstate env.now
        (env.jobName session)) (fun _ h => h) ?_)
      rintro (e | admitted) u ⟨hgate, hready⟩
      · exact hensured.trans hgate
      · show wp _ (if admitted = true then _ else _) _ u
        split_ifs with hgo
        · subst hgo
          obtain ⟨row, hrow, hid, hrowReady, hleft⟩ := hready rfl
          refine wp_mono (hgate.budget.run hrow hid hrowReady hleft haccepts
            (env.jobName session)) (fun _ h => h) ?_
          intro _ v hv
          exact (hensured.trans hgate).trans hv
        · exact wp_pure (hensured.trans hgate)

/-! ## Every call keeps the budget -/

/-- What a recovery does to the jobs: some of them wait for a retry. -/
structure Recovered (before after : SchedulerDb) : Prop where
  budget : Budget after
  sessions : after.sessions = before.sessions
  states : ∀ sessionId tradeDate row, after.jobs.forDate sessionId tradeDate = some row →
    ∃ old, before.jobs.forDate sessionId tradeDate = some old ∧
      (row.state = old.state ∨ row.state = .retrying)
  unused : ∀ id, before.jobs.find id = none → after.jobs.find id = none

theorem Budget.recover (h : Budget db) (timeout : Int) (now : Nat) :
    wp (fun _ => True) (recoverOrphanedJobs timeout now) (fun _ t => Recovered db t) db := by
  have hstart : Recovered db db :=
    ⟨h, rfl, fun _ _ row hrow => ⟨row, hrow, Or.inl rfl⟩, fun _ h => h⟩
  refine wp_bind (wp_read (wp_forEach_keep (Recovered db) ?_ _ db hstart))
  intro jobId t ht
  refine wp_zoom (wp_tx ?_ (fun _ _ => ht))
  intro job' jobs hrun
  refine ⟨trivial, ?_⟩
  obtain ⟨job, hfind, hmoved, honly, -, hstate, -⟩ :=
    ht.budget.transition (by decide) (by decide) hrun ""
  have hcurrent : t.jobs.forDate job.sessionId job.tradeDate = some job :=
    ht.budget.keyed.days.find_of_mem (mem_of_find hfind)
  refine ⟨honly.budget, ht.sessions, ?_, fun id hid => hmoved.unused id (ht.unused id hid)⟩
  intro sessionId tradeDate row hrow
  replace hrow : jobs.forDate sessionId tradeDate = some row := hrow
  rw [hmoved.forDate] at hrow
  split_ifs at hrow with hkey
  · obtain ⟨rfl, rfl⟩ := Prod.mk.inj hkey
    obtain ⟨old, hold, hwas⟩ := ht.states _ _ job hcurrent
    refine ⟨old, hold, ?_⟩
    rw [← Option.some.inj hrow]
    rcases hstate with hsame | hretry
    · rw [hsame]
      exact hwas
    · exact Or.inr hretry
  · exact ht.states _ _ row hrow

theorem Recovered.routed (h : Recovered db t) (hrouted : Routed env db session) :
    Routed env t session := by
  intro row hrow
  obtain ⟨old, hold, hsame | hretry⟩ := h.states _ _ row hrow
  · rw [hsame]
    exact hrouted old hold
  · rw [hretry]
    decide

/-- What the loop of a tick keeps: the sessions that are left are as the tick
found them. -/
structure Pending (env : TickEnv) (remaining : List PaperSession) (db : SchedulerDb) : Prop where
  budget : Budget db
  routed : ∀ session ∈ remaining, isDue env session = true → Routed env db session
  unused : ∀ session ∈ remaining,
    db.jobs.find (env.jobName session) = none
  names : ∀ session ∈ remaining, ∀ other ∈ remaining,
    env.jobName session = env.jobName other → session.id = other.id
  distinct : Unique PaperSession.id remaining

theorem Pending.next {remaining : List PaperSession} (h : Pending env (session :: remaining) db)
    (honly : OnlyDay (session.id, nextDate env session) (env.jobName session) db t) :
    Pending env remaining t := by
  have hdistinct : ∀ other ∈ remaining, other.id ≠ session.id := by
    intro other hother hid
    have hnodup := List.nodup_cons.mp h.distinct
    exact hnodup.1 (List.mem_map.mpr ⟨other, hother, hid⟩)
  refine ⟨honly.budget, ?_, ?_, fun a ha b hb => h.names a (List.mem_cons_of_mem _ ha) b
    (List.mem_cons_of_mem _ hb), (List.nodup_cons.mp h.distinct).2⟩
  · intro other hother hdue row hrow
    apply h.routed other (List.mem_cons_of_mem _ hother) hdue row
    rw [← honly.elsewhere]
    · exact hrow
    · intro hday
      exact hdistinct other hother (Prod.mk.inj hday).1
  · intro other hother
    apply honly.unused _ _ (h.unused other (List.mem_cons_of_mem _ hother))
    intro hname
    exact hdistinct other hother (h.names other (List.mem_cons_of_mem _ hother) session
      List.mem_cons_self hname)

theorem Budget.tick (h : Budget db) (hfresh : env.Fresh db)
    (hfollows : FollowsStates db (.tick env)) :
    wp (fun _ => True) (scheduleTick env) (fun _ t => Budget t) db := by
  refine wp_bind (wp_mono (h.recover 3600 env.now) (fun _ h => h) ?_)
  rintro (e | _) t hrecovered
  · exact hrecovered.budget
  · refine wp_bind (wp_read ?_)
    have hstart : Pending env t.sessions t := by
      refine ⟨hrecovered.budget, ?_, ?_, ?_, hrecovered.budget.sessions⟩
      · intro session hsession hdue
        rw [hrecovered.sessions] at hsession
        exact hrecovered.routed (hfollows.1 session hsession hdue)
      · intro session hsession
        rw [hrecovered.sessions] at hsession
        exact hrecovered.unused _ (hfresh.unused session hsession)
      · rw [hrecovered.sessions]
        exact hfresh.distinct
    have hloop := wp_forEach (I := fun _ => True) (f := Scheduler.tickSession env) (Pending env)
      (fun _ => Budget) ?_ t.sessions t hstart
    · refine wp_mono hloop (fun _ h => h) ?_
      rintro (e | _) u hu
      · exact hu
      · exact hu.budget
    · intro session remaining u hu
      have hdue := hu.routed session List.mem_cons_self
      refine wp_mono (hu.budget.tickSession hdue (hu.unused session List.mem_cons_self)
        hfollows.2) (fun _ h => h) ?_
      rintro (e | _) v hv
      · exact hv.budget
      · exact hu.next hv

theorem Budget.failRun (h : Budget db) {paperRunId message : String} {run : PaperRun}
    (hrun : failWalkforwardRun paperRunId message db = .ok (run, t)) : Budget t := by
  unfold failWalkforwardRun at hrun
  split at hrun
  · cases hrun
  · obtain ⟨-, rfl⟩ := ok_inj hrun
    refine h.congr rfl rfl (unique_sessions_map h (fun session => ?_))
    split_ifs <;> rfl

theorem Budget.finalize (h : Budget db) (paperRunId : String) (outcome : FinalizeOutcome)
    (now : Nat) :
    wp (fun _ => True) (finalizeTask paperRunId outcome now) (fun _ t => Budget t) db := by
  refine wp_bind (wp_tx ?_ (fun _ _ => h))
  intro run t hrun
  refine ⟨trivial, ?_⟩
  have ht : Budget t := by
    unfold finalizeWalkforwardRun at hrun
    split at hrun
    · cases hrun
    · split_ifs at hrun
      · obtain ⟨-, rfl⟩ := ok_inj hrun
        exact h
      · split at hrun
        · cases hrun
        · exact h.failRun hrun
        · obtain ⟨-, rfl⟩ := ok_inj hrun
          refine h.congr rfl rfl (unique_sessions_map h (fun session => ?_))
          split_ifs <;> rfl
  refine wp_bind (wp_read ?_)
  cases t.jobs.forDate run.sessionId run.tradeDate with
  | none => exact wp_pure ht
  | some job =>
    show wp _ (if run.status = "success" then _ else _) _ t
    split_ifs
    · refine wp_bind_keep (ht.onJobs (by decide) (by decide)) (fun _ u hu => ?_)
      exact wp_pure hu
    · refine wp_bind_keep (ht.onJobs (by decide) (by decide)) (fun _ u hu => ?_)
      exact wp_pure hu

theorem Budget.fail (h : Budget db) (paperRunId message : String) (now : Nat) :
    wp (fun _ => True) (failTask paperRunId message now) (fun _ t => Budget t) db := by
  refine wp_bind (wp_tx ?_ (fun _ _ => h))
  intro run t hrun
  have ht : Budget t := h.failRun hrun
  refine ⟨trivial, wp_bind (wp_read ?_)⟩
  cases t.jobs.forDate run.sessionId run.tradeDate with
  | none => exact wp_pure ht
  | some job =>
    show wp _ (if job.state = .running ∨ job.state = .retrying then _ else _) _ t
    split_ifs
    · refine wp_bind_keep (ht.onJobs (by decide) (by decide)) (fun _ u hu => ?_)
      exact wp_pure hu
    · exact wp_pure ht

theorem Budget.status (h : Budget db) (sessionId status : String) :
    Budget (settle (updateSessionStatus sessionId status) db) := by
  cases hrun : updateSessionStatus sessionId status db with
  | error e =>
    rw [settle_error hrun]
    exact h
  | ok result =>
    obtain ⟨_, t⟩ := result
    rw [settle_ok hrun]
    unfold updateSessionStatus at hrun
    split_ifs at hrun
    split at hrun
    · cases hrun
    · rename_i session hfind
      split_ifs at hrun
      obtain ⟨-, rfl⟩ := ok_inj hrun
      exact h.congr rfl rfl (h.sessions.map
        (h.sessions.put_keeps (mem_of_find hfind) rfl rfl))

theorem Budget.next (h : Budget db) {action : SchedulerAction}
    (hallowed : (budgetMachine.restrict FollowsStates).allowed db action) :
    Budget (budgetMachine.next db action) := by
  obtain ⟨hfresh, hfollows⟩ := hallowed
  cases action with
  | tick env => exact (h.tick hfresh hfollows).2
  | markRunning paperRunId => exact h.congr rfl rfl h.sessions
  | finalize paperRunId outcome now => exact (h.finalize paperRunId outcome now).2
  | fail paperRunId message now => exact (h.fail paperRunId message now).2
  | resume sessionId => exact h.status sessionId "running"
  | recover timeout now => exact (h.recover timeout now).2.budget

end Budget

/-! ## Every run -/

/-- A scheduler that has ensured no job yet. -/
def unscheduled (sessions : List PaperSession) (runs : List PaperRun) : SchedulerDb where
  sessions := sessions
  runs := runs
  jobs := { jobs := [], events := [] }
  workflows := []

theorem budget_unscheduled {sessions : List PaperSession}
    (hsessions : Unique PaperSession.id sessions) (runs : List PaperRun) :
    Budget (unscheduled sessions runs) where
  sessions := hsessions
  keyed := ⟨List.nodup_nil, List.nodup_nil⟩
  spent := fun _ _ _ hjob => by cases hjob
  unspent := fun _ _ _ => rfl

/-- The workflows of every day are as many as the attempts of its job, and no
more than it may have. -/
def WithinBudget (db : SchedulerDb) : Prop :=
  ∀ sessionId tradeDate,
    (∀ job ∈ db.jobs.forDate sessionId tradeDate,
      db.dispatched sessionId tradeDate = job.attempt ∧ job.attempt ≤ job.maxAttempts) ∧
      (db.jobs.forDate sessionId tradeDate = none → db.dispatched sessionId tradeDate = 0)

/-- Every run whose ticks follow the states stays within the budget. -/
theorem withinBudget_of_followsStates {sessions : List PaperSession}
    (hsessions : Unique PaperSession.id sessions) (runs : List PaperRun)
    {actions : List SchedulerAction}
    (haccepts : (budgetMachine.restrict FollowsStates).Accepts (unscheduled sessions runs)
      actions) :
    WithinBudget (budgetMachine.after (unscheduled sessions runs) actions) := by
  have hbudget : Budget ((budgetMachine.restrict FollowsStates).after (unscheduled sessions runs)
      actions) :=
    Machine.invariant (fun _ _ h hallowed => h.next hallowed) actions _
      (budget_unscheduled hsessions runs) haccepts
  intro sessionId tradeDate
  refine ⟨?_, hbudget.unspent sessionId tradeDate⟩
  intro job hjob
  obtain ⟨hspent, hmax, -⟩ := hbudget.spent _ _ job hjob
  exact ⟨hspent, hmax⟩

/-- A running session that starts on a trade date. -/
def dailySession : PaperSession where
  id := "s"
  mode := "lean_walkforward_v2"
  venue := "china"
  status := "running"
  autoAdvance := true
  startDate := "2024-01-02"

/-- A tick that the backtest service and the broker answer. -/
def answeredTick (now : Nat) : TickEnv where
  now := now
  today := "2024-01-02"
  nextTradeDate := fun _ date => date
  createBacktest := fun _ _ => .ok ("backtest", "task")
  publish := fun _ => none
  jobId := fun _ _ => s!"job-{now}"
  runId := fun _ _ => "run"

/-- A run that fails, and the operator resumes its session. -/
def failedDay (now : Nat) : List SchedulerAction :=
  [.tick (answeredTick now), .fail "run" "Engine crashed." (now + 1), .resume "s"]

/-- The first attempt fails, and the second one succeeds. -/
theorem withinBudget_second_attempt :
    WithinBudget (budgetMachine.after (unscheduled [dailySession] [])
      (failedDay 0 ++ [.tick (answeredTick 10), .finalize "run" .succeeded 11])) := by
  have hfresh : budgetMachine.Accepts (unscheduled [dailySession] []) (failedDay 0 ++
      [.tick (answeredTick 10), .finalize "run" .succeeded 11]) := by decide +kernel
  refine withinBudget_of_followsStates (by decide) [] ⟨⟨hfresh.1, ?_, fun _ => rfl⟩,
    ⟨trivial, trivial⟩, ⟨trivial, trivial⟩, ⟨hfresh.2.2.2.1, ?_, fun _ => rfl⟩,
    ⟨trivial, trivial⟩, trivial⟩
  · decide +kernel
  · decide +kernel

/-- The tick after the escalation of a job dispatches it a fourth time. -/
theorem escalated_job_dispatched :
    ¬ ∀ (sessions : List PaperSession) (runs : List PaperRun) (actions : List SchedulerAction),
      Unique PaperSession.id sessions → budgetMachine.Accepts (unscheduled sessions runs) actions →
        WithinBudget (budgetMachine.after (unscheduled sessions runs) actions) := by
  intro h
  have hday := (h [dailySession] []
    (failedDay 0 ++ failedDay 10 ++ failedDay 20 ++
      [.tick (answeredTick 30), .tick (answeredTick 40)])
    (by decide) (by decide +kernel) "s" "2024-01-02").1
  revert hday
  decide +kernel

end LocalPlatform.Scheduler
