import LocalPlatform.Lib.Path
import LocalPlatform.Lib.Table
import LocalPlatform.Lib.Transaction
import LocalPlatform.Paper.Values

/-!
# Daily jobs of the Paper scheduler

`paper_scheduler.py` keeps one job for each session and trade date.  Its state
moves along a table of legal transitions, and every move writes an event.

* `transitionJob` is one transaction.  It returns the job as it is when the
  state is not an expected one, and it raises on an illegal move.
* `attempt` counts the moves to `RUNNING`, and `started_at` keeps the time of
  the first one.
* Time is a number of seconds, and it is an argument.
-/

namespace LocalPlatform.Scheduler

open Paper Transaction Tables

/-! ## Tables -/

/-- `JOB_STATES` -/
inductive JobState where
  | scheduled
  | waitingForData
  | ready
  | running
  | retrying
  | completed
  | skippedNonTradingDay
  | blockedPreviousDay
  | blockedData
  | blockedQa
  | failed
  | escalated
  | manualInterventionRequired
  deriving DecidableEq

/-- The name of a state in the database. -/
def JobState.name : JobState → String
  | .scheduled => "SCHEDULED"
  | .waitingForData => "WAITING_FOR_DATA"
  | .ready => "READY"
  | .running => "RUNNING"
  | .retrying => "RETRYING"
  | .completed => "COMPLETED"
  | .skippedNonTradingDay => "SKIPPED_NON_TRADING_DAY"
  | .blockedPreviousDay => "BLOCKED_PREVIOUS_DAY"
  | .blockedData => "BLOCKED_DATA"
  | .blockedQa => "BLOCKED_QA"
  | .failed => "FAILED"
  | .escalated => "ESCALATED"
  | .manualInterventionRequired => "MANUAL_INTERVENTION_REQUIRED"

/-- `LEGAL_TRANSITIONS` of a job that exists. -/
def legalTransitions : JobState → List JobState
  | .scheduled => [.waitingForData, .ready, .blockedPreviousDay, .blockedData, .blockedQa]
  | .waitingForData => [.ready, .blockedData, .failed]
  | .ready => [.running, .blockedData, .blockedQa, .failed]
  | .running => [.completed, .retrying, .failed]
  | .retrying => [.ready, .running, .failed, .escalated]
  | .blockedPreviousDay => [.ready, .manualInterventionRequired]
  | .blockedData => [.waitingForData, .ready, .retrying, .escalated]
  | .blockedQa => [.ready, .retrying, .escalated]
  | .failed => [.retrying, .escalated, .manualInterventionRequired]
  | .escalated => [.retrying, .manualInterventionRequired]
  | .completed => []
  | .skippedNonTradingDay => []
  | .manualInterventionRequired => []

/-- `paper_daily_jobs` -/
structure Job where
  id : String
  sessionId : String
  tradeDate : String
  state : JobState
  attempt : Nat := 0
  maxAttempts : Nat := 3
  version : Nat := 1
  correlationId : String
  paperRunId : Option String := none
  taskId : Option String := none
  completionMarker : Option String := none
  lastError : Option String := none
  startedAt : Option Nat := none
  completedAt : Option Nat := none
  quarantined : Option String := none
  deriving DecidableEq

/-- The payload of a transition. -/
structure JobPayload where
  paperRunId : Option String := none
  error : Option String := none
  deriving DecidableEq

/-- `paper_daily_job_events` -/
structure JobEvent where
  jobId : String
  sequence : Nat
  fromState : Option JobState
  toState : JobState
  eventType : String
  payload : JobPayload
  correlationId : String
  createdAt : Nat
  deriving DecidableEq

/-- The tables of the daily jobs. -/
structure JobDb where
  jobs : List Job
  events : List JobEvent
  deriving DecidableEq

/-- `select * from paper_daily_jobs where id=?` -/
def JobDb.find (db : JobDb) (jobId : String) : Option Job := Tables.find Job.id db.jobs jobId

/-- The columns of `unique(session_id, trade_date)`. -/
def Job.day (job : Job) : String × String := (job.sessionId, job.tradeDate)

/-- `job_for_date` -/
def JobDb.forDate (db : JobDb) (sessionId tradeDate : String) : Option Job :=
  Tables.find Job.day db.jobs (sessionId, tradeDate)

def JobDb.eventsOf (db : JobDb) (jobId : String) : List JobEvent :=
  db.events.filter (fun event => event.jobId == jobId)

/-- `_append_event` -/
def JobDb.appendEvent (db : JobDb) (job : Job) (fromState : Option JobState)
    (toState : JobState) (eventType : String) (payload : JobPayload) (now : Nat) : JobDb :=
  { db with
    events := db.events ++
      [{ jobId := job.id
         sequence := ((db.eventsOf job.id).map JobEvent.sequence).foldl max 0 + 1
         fromState := fromState
         toState := toState
         eventType := eventType
         payload := payload
         correlationId := job.correlationId
         createdAt := now }] }

/-! ## `ensure_job` -/

/-- The row of a new job. -/
def newJob (jobId sessionId tradeDate : String) (maxAttempts : Int) (state : JobState) : Job where
  id := jobId
  sessionId := sessionId
  tradeDate := tradeDate
  state := state
  maxAttempts := (max 1 maxAttempts).toNat
  correlationId := s!"paper:{sessionId}:{tradeDate}"

/-- `ensure_job` of a session that exists or not; a new job is named `jobId`. -/
def ensureJob (sessionExists : Bool) (sessionId tradeDate jobId : String) (now : Nat)
    (maxAttempts : Int) (state : JobState) (db : JobDb) : Except PaperError (Job × JobDb) :=
  if !sessionExists then
    .error (.valueError "Cannot schedule a Paper job without its parent session.")
  else
    match db.forDate sessionId tradeDate with
    | some job =>
      match job.quarantined with
      | some reason => .error (.valueError s!"Paper daily job is quarantined: {reason}")
      | none => .ok (job, db)
    | none =>
      let job := newJob jobId sessionId tradeDate maxAttempts state
      .ok (job, ({ db with jobs := db.jobs ++ [job] } : JobDb).appendEvent job none state
        "job_created" {} now)

/-! ## `transition_job` -/

/-- The row that a transition writes. -/
def Job.moved (job : Job) (toState : JobState) (payload : JobPayload)
    (paperRunId taskId : Option String) (now : Nat) : Job :=
  { job with
    state := toState
    attempt := if toState = .running then job.attempt + 1 else job.attempt
    version := job.version + 1
    paperRunId := paperRunId <|> job.paperRunId
    taskId := taskId <|> job.taskId
    completionMarker :=
      if toState = .completed then some s!"{job.sessionId}:{job.tradeDate}:complete"
      else job.completionMarker
    lastError := payload.error
    startedAt := if toState = .running then job.startedAt <|> some now else job.startedAt
    completedAt := if toState = .completed then some now else job.completedAt }

def illegalTransition (fromState toState : JobState) : PaperError :=
  .valueError s!"Illegal Paper daily job transition: {fromState.name} -> {toState.name}"

/-- `transition_job` -/
def transitionJob (jobId : String) (toState : JobState) (eventType : String)
    (payload : JobPayload) (expected : List JobState) (paperRunId taskId : Option String)
    (now : Nat) (db : JobDb) : Except PaperError (Job × JobDb) :=
  match db.find jobId with
  | none => .error (.keyError "Paper daily job not found.")
  | some job =>
    match job.quarantined with
    | some reason =>
      .error (.valueError s!"Quarantined Paper daily jobs cannot transition: {reason}")
    | none =>
      if job.state ∉ expected then .ok (job, db)
      else if toState = job.state then .ok (job, db)
      else if toState ∉ legalTransitions job.state then
        .error (illegalTransition job.state toState)
      else
        let updated := job.moved toState payload paperRunId taskId now
        .ok (updated, ({ db with jobs := put Job.id db.jobs updated } : JobDb).appendEvent job
          (some job.state) toState eventType payload now)

/-! ## `recover_orphaned_jobs` -/

/-- `max(60, timeout_seconds)` -/
def leaseSeconds (timeout : Int) : Nat := (max 60 timeout).toNat

/-- The jobs that a recovery selects: those that run since before its cutoff. -/
def orphanedJobs (sessionExists : String → Bool) (timeout : Int) (now : Nat) (db : JobDb) :
    List String :=
  (db.jobs.filter (fun job => job.state == .running &&
    job.startedAt.any (fun started => started + leaseSeconds timeout < now) &&
    job.quarantined.isNone && sessionExists job.sessionId)).map Job.id

def recoverJob (jobId : String) (now : Nat) (db : JobDb) : Except PaperError (Job × JobDb) :=
  transitionJob jobId .retrying "orphan_recovered" { error := some "run_lease_expired" }
    [.running] none none now db

/-! ## What a transaction can do -/

/-- The keys of the table are unique. -/
structure Keyed (db : JobDb) : Prop where
  ids : Unique Job.id db.jobs
  days : Unique Job.day db.jobs

theorem transitionJob_cases {jobId : String} {toState : JobState} {eventType : String}
    {payload : JobPayload} {expected : List JobState} {paperRunId taskId : Option String}
    {now : Nat} {db db' : JobDb} {job' : Job}
    (h : transitionJob jobId toState eventType payload expected paperRunId taskId now db =
      .ok (job', db')) :
    ∃ job, db.find jobId = some job ∧ job.quarantined = none ∧
      ((db' = db ∧ job' = job ∧ (job.state ∉ expected ∨ toState = job.state)) ∨
        (job.state ∈ expected ∧ toState ∈ legalTransitions job.state ∧
          job' = job.moved toState payload paperRunId taskId now ∧
            db' = ({ db with jobs := put Job.id db.jobs job' } : JobDb).appendEvent job
              (some job.state) toState eventType payload now)) := by
  unfold transitionJob at h
  split at h
  · cases h
  · rename_i job hfind
    split at h
    · cases h
    · rename_i hopen
      refine ⟨job, hfind, hopen, ?_⟩
      split_ifs at h with hexpected hsame hlegal
      · obtain ⟨rfl, rfl⟩ := ok_inj h
        exact Or.inl ⟨rfl, rfl, Or.inr hsame⟩
      · obtain ⟨rfl, rfl⟩ := ok_inj h
        exact Or.inr ⟨hexpected, hlegal, rfl, rfl⟩
      · obtain ⟨rfl, rfl⟩ := ok_inj h
        exact Or.inl ⟨rfl, rfl, Or.inl hexpected⟩

/-- A transition, read by the days of the jobs: the day of its job has the row
that is returned, and the other days stay. -/
structure Transitioned (db db' : JobDb) (job job' : Job) : Prop where
  keyed : Keyed db'
  forDate : ∀ sessionId tradeDate, db'.forDate sessionId tradeDate =
    if (sessionId, tradeDate) = job.day then some job' else db.forDate sessionId tradeDate
  unused : ∀ id, db.find id = none → db'.find id = none
  day : job'.day = job.day
  id : job'.id = job.id
  maxAttempts : job'.maxAttempts = job.maxAttempts

theorem transitionJob_spec {jobId : String} {toState : JobState} {eventType : String}
    {payload : JobPayload} {expected : List JobState} {paperRunId taskId : Option String}
    {now : Nat} {db db' : JobDb} {job' : Job} (hkeyed : Keyed db)
    (h : transitionJob jobId toState eventType payload expected paperRunId taskId now db =
      .ok (job', db')) :
    ∃ job, db.find jobId = some job ∧ Transitioned db db' job job' ∧
      ((job' = job ∧ (job.state ∉ expected ∨ toState = job.state)) ∨
        (job.state ∈ expected ∧ toState ∈ legalTransitions job.state ∧
          job' = job.moved toState payload paperRunId taskId now)) := by
  obtain ⟨job, hfind, -, hcase⟩ := transitionJob_cases h
  have hmem : job ∈ db.jobs := mem_of_find hfind
  refine ⟨job, hfind, ?_⟩
  rcases hcase with ⟨rfl, rfl, hstay⟩ | ⟨hexpected, hlegal, hjob, rfl⟩
  · refine ⟨⟨hkeyed, ?_, fun _ h => h, rfl, rfl, rfl⟩, Or.inl ⟨rfl, hstay⟩⟩
    intro sessionId tradeDate
    split_ifs with hday
    · unfold JobDb.forDate
      rw [hday, hkeyed.days.find_of_mem hmem]
    · rfl
  · have hid : job'.id = job.id := by rw [hjob]; rfl
    have hday : job'.day = job.day := by rw [hjob]; rfl
    refine ⟨⟨⟨?_, ?_⟩, ?_, ?_, hday, hid, ?_⟩, Or.inr ⟨hexpected, hlegal, hjob⟩⟩
    · exact hkeyed.ids.map (hkeyed.ids.put_keeps hmem hid hid)
    · exact hkeyed.days.map (hkeyed.ids.put_keeps hmem hid hday)
    · intro sessionId tradeDate
      exact hkeyed.ids.find_put_other hkeyed.days hmem hid hday (sessionId, tradeDate)
    · intro id hnone
      have hsome : (Tables.find Job.id db.jobs job'.id).isSome := by
        rw [hid, hkeyed.ids.find_of_mem hmem]
        rfl
      show Tables.find Job.id (put Job.id db.jobs job') id = none
      rw [find_put hsome, if_neg]
      · exact hnone
      · rintro rfl
        rw [show Tables.find Job.id db.jobs job'.id = none from hnone] at hsome
        cases hsome
    · rw [hjob]
      rfl

end LocalPlatform.Scheduler
