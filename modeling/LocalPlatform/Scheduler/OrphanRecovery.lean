import LocalPlatform.Scheduler.RetryBudget

/-!
# Orphan recovery and finalization

`recover_orphaned_jobs` selects the jobs whose run is older than a lease and
then moves each of them to `RETRYING` in a transaction of its own.
`finalize_paper_walkforward_task` reads the job of its run and then moves it to
`COMPLETED`.  Between the two parts of either call every other transaction of
the scheduler can commit.

* `recoveryMachine` interleaves these transactions, and the clock moves on its
  own.
* `Timed` says what the rows know of the log: `attempt` counts the `RUNNING`
  events of a job, and `started_at` is the time of the first one.
* `StepSound` is what a recovery and a finalization owe to their job.
  `KnowsEpisode` is the condition under which they keep it: a recovery meets its
  job in the first attempt, and a finalization meets it `RUNNING` or done.
-/

namespace LocalPlatform.Scheduler

open Paper Transaction Tables Machines

/-! ## The calls -/

/-- A job that a recovery selected. -/
structure SelectedJob where
  jobId : String
  timeout : Int
  deriving DecidableEq

/-- A finalization that has its run and has read the job. -/
structure Finalization where
  job : Job
  run : PaperRun
  deriving DecidableEq

/-- The last transaction of `finalize_paper_walkforward_task`. -/
def Finalization.commit (call : Finalization) (now : Nat) (db : JobDb) :
    Except PaperError (Job × JobDb) :=
  if call.run.status = "success" then completeJob call.job call.run now db
  else failJob call.job call.run.id call.run now db

/-- The jobs, the clock and the calls under way. -/
structure RecoverySystem where
  sessions : List String
  db : JobDb
  clock : Nat
  selected : List SelectedJob
  finalizations : List Finalization
  deriving DecidableEq

/-- No job, and no call under way. -/
def RecoverySystem.start (sessions : List String) : RecoverySystem where
  sessions := sessions
  db := { jobs := [], events := [] }
  clock := 0
  selected := []
  finalizations := []

/-- The transactions of the scheduler.  `transition` stands for every call of
`transition_job` in a dispatch, a retry or a failure. -/
inductive RecoveryAction where
  | wait (seconds : Nat)
  | ensure (sessionId tradeDate jobId : String)
  | transition (jobId : String) (toState : JobState) (eventType : String) (payload : JobPayload)
      (expected : List JobState) (paperRunId taskId : Option String)
  | select (timeout : Int)
  | recover (n : Nat)
  | readJob (run : PaperRun)
  | finalize (n : Nat)
  deriving DecidableEq

/-- The system after a transaction. -/
def RecoveryAction.next (system : RecoverySystem) : RecoveryAction → RecoverySystem
  | .wait seconds => { system with clock := system.clock + seconds }
  | .ensure sessionId tradeDate jobId =>
    { system with
      db := settle (ensureJob (system.sessions.contains sessionId) sessionId tradeDate jobId
        system.clock 3 .scheduled) system.db }
  | .transition jobId toState eventType payload expected paperRunId taskId =>
    { system with
      db := settle (transitionJob jobId toState eventType payload expected paperRunId taskId
        system.clock) system.db }
  | .select timeout =>
    { system with
      selected := system.selected ++ (orphanedJobs system.sessions.contains timeout system.clock
        system.db).map (fun jobId => { jobId := jobId, timeout := timeout }) }
  | .recover n =>
    match system.selected[n]? with
    | none => system
    | some job =>
      { system with
        selected := system.selected.eraseIdx n
        db := settle (recoverJob job.jobId system.clock) system.db }
  | .readJob run =>
    match system.db.forDate run.sessionId run.tradeDate with
    | none => system
    | some job =>
      { system with finalizations := system.finalizations ++ [{ job := job, run := run }] }
  | .finalize n =>
    match system.finalizations[n]? with
    | none => system
    | some call =>
      { system with
        finalizations := system.finalizations.eraseIdx n
        db := settle (call.commit system.clock) system.db }

/-- Every interleaving.  The name of a new job is fresh. -/
abbrev recoveryMachine : Machine RecoverySystem RecoveryAction where
  allowed := fun system action =>
    match action with
    | .ensure _ _ jobId => system.db.find jobId = none
    | _ => True
  next := RecoveryAction.next

instance (system : RecoverySystem) (action : RecoveryAction) :
    Decidable (recoveryMachine.allowed system action) :=
  match action with
  | .ensure _ _ jobId => inferInstanceAs (Decidable (system.db.find jobId = none))
  | .wait _ | .transition .. | .select _ | .recover _ | .readJob _ | .finalize _ => .isTrue trivial

/-! ## What the rows know of the log -/

/-- The times at which a job moved to `RUNNING`. -/
def JobDb.starts (db : JobDb) (jobId : String) : List Nat :=
  ((db.eventsOf jobId).filter (fun event => event.toState == .running)).map JobEvent.createdAt

/-- The time at which the current episode of a job began. -/
def JobDb.episodeStart (db : JobDb) (jobId : String) : Option Nat := (db.starts jobId).getLast?

theorem starts_appendEvent (db : JobDb) (job : Job) (fromState : Option JobState)
    (toState : JobState) (eventType : String) (payload : JobPayload) (now : Nat) (id : String) :
    (db.appendEvent job fromState toState eventType payload now).starts id =
      if id = job.id ∧ toState = .running then db.starts id ++ [now] else db.starts id := by
  unfold JobDb.appendEvent JobDb.starts JobDb.eventsOf
  simp only [List.filter_append, List.map_append]
  by_cases hid : id = job.id
  · subst hid
    by_cases hrunning : toState = .running <;> simp [hrunning]
  · simp [hid, Ne.symm hid]

/-- The rows follow the log. -/
structure Timed (db : JobDb) : Prop where
  keyed : Keyed db
  unquarantined : ∀ job ∈ db.jobs, job.quarantined = none
  attempts : ∀ job ∈ db.jobs, (db.starts job.id).length = job.attempt
  startedAt : ∀ job ∈ db.jobs, job.startedAt = (db.starts job.id).head?
  unlogged : ∀ id, db.find id = none → db.starts id = []

/-- A job that has started keeps its first start. -/
def KeepsStart (db db' : JobDb) : Prop :=
  ∀ id job, db.find id = some job → ∃ job', db'.find id = some job' ∧
    ∀ started, job.startedAt = some started → job'.startedAt = some started

theorem KeepsStart.refl (db : JobDb) : KeepsStart db db :=
  fun _ job hjob => ⟨job, hjob, fun _ h => h⟩

variable {db : JobDb}

theorem KeepsStart.of_eq {db' : JobDb}
    (h : ∀ id job, db.find id = some job → db'.find id = some job) : KeepsStart db db' :=
  fun id job hjob => ⟨job, h id job hjob, fun _ h => h⟩

section Timed

variable {db : JobDb} {jobId : String} {now : Nat}

theorem Timed.ensure (h : Timed db) {sessionExists : Bool} {sessionId tradeDate : String}
    {job : Job} {db' : JobDb} (hfresh : db.find jobId = none)
    (hrun : ensureJob sessionExists sessionId tradeDate jobId now 3 .scheduled db =
      .ok (job, db')) : Timed db' ∧ KeepsStart db db' := by
  unfold ensureJob at hrun
  split_ifs at hrun
  split at hrun
  · split at hrun
    · cases hrun
    · obtain ⟨-, rfl⟩ := ok_inj hrun
      exact ⟨h, .refl db⟩
  · rename_i hunused
    obtain ⟨rfl, rfl⟩ := ok_inj hrun
    set created := newJob jobId sessionId tradeDate 3 .scheduled
    have hid : Tables.find Job.id db.jobs created.id = none := hfresh
    have hday : Tables.find Job.day db.jobs created.day = none := hunused
    have hstarts : ∀ id, (({ db with jobs := db.jobs ++ [created] } : JobDb).appendEvent created
        none .scheduled "job_created" {} now).starts id = db.starts id := by
      intro id
      rw [starts_appendEvent, if_neg (by simp)]
      rfl
    have hempty : db.starts created.id = [] := h.unlogged _ hfresh
    refine ⟨⟨⟨h.keyed.ids.append_singleton hid, h.keyed.days.append_singleton hday⟩, ?_, ?_, ?_,
      ?_⟩, ?_⟩
    · intro row hrow
      rcases List.mem_append.mp hrow with hold | hnew
      · exact h.unquarantined row hold
      · rw [List.mem_singleton.mp hnew]
        rfl
    · intro row hrow
      rw [hstarts]
      rcases List.mem_append.mp hrow with hold | hnew
      · exact h.attempts row hold
      · rw [List.mem_singleton.mp hnew, hempty]
        rfl
    · intro row hrow
      rw [hstarts]
      rcases List.mem_append.mp hrow with hold | hnew
      · exact h.startedAt row hold
      · rw [List.mem_singleton.mp hnew, hempty]
        rfl
    · intro id hnone
      rw [hstarts]
      apply h.unlogged
      replace hnone : Tables.find Job.id (db.jobs ++ [created]) id = none := hnone
      rw [find_append_singleton hid] at hnone
      split_ifs at hnone
      exact hnone
    · refine .of_eq (fun id row hrow => ?_)
      show Tables.find Job.id (db.jobs ++ [created]) id = some row
      rw [find_append_singleton hid, if_neg]
      · exact hrow
      · rintro rfl
        rw [hfresh] at hrow
        cases hrow

/-- A transition keeps the rows true to the log: the move to `RUNNING` counts,
and only the first one is dated in the row. -/
theorem Timed.transition (h : Timed db) {toState : JobState} {eventType : String}
    {payload : JobPayload} {expected : List JobState} {paperRunId taskId : Option String}
    {job' : Job} {db' : JobDb}
    (hrun : transitionJob jobId toState eventType payload expected paperRunId taskId now db =
      .ok (job', db')) : Timed db' ∧ KeepsStart db db' := by
  obtain ⟨job, hfind, hopen, hcase⟩ := transitionJob_cases hrun
  rcases hcase with ⟨rfl, -, -⟩ | ⟨-, -, hjob, rfl⟩
  · exact ⟨h, .refl db'⟩
  · have hmem : job ∈ db.jobs := mem_of_find hfind
    have hid : job'.id = job.id := by
      rw [hjob]
      rfl
    have hday : job'.day = job.day := by
      rw [hjob]
      rfl
    have hput : ∀ row ∈ put Job.id db.jobs job', row = job' ∨ (row ∈ db.jobs ∧ row.id ≠ job.id) := by
      intro row hrow
      obtain ⟨old, hold, hnew⟩ := List.mem_map.mp hrow
      split_ifs at hnew with hsame
      · exact Or.inl hnew.symm
      · subst hnew
        rw [hid] at hsame
        exact Or.inr ⟨hold, hsame⟩
    have hstarts : ∀ id, (({ db with jobs := put Job.id db.jobs job' } : JobDb).appendEvent job
        (some job.state) toState eventType payload now).starts id =
          if id = job.id ∧ toState = .running then db.starts id ++ [now] else db.starts id :=
      fun id => starts_appendEvent _ job _ toState eventType payload now id
    have hattempts := h.attempts job hmem
    have hstartedAt := h.startedAt job hmem
    have hsome : (Tables.find Job.id db.jobs job'.id).isSome := by
      rw [hid, h.keyed.ids.find_of_mem hmem]
      rfl
    refine ⟨⟨⟨h.keyed.ids.map (h.keyed.ids.put_keeps hmem hid hid),
      h.keyed.days.map (h.keyed.ids.put_keeps hmem hid hday)⟩, ?_, ?_, ?_, ?_⟩, ?_⟩
    · intro row hrow
      rcases hput row hrow with rfl | ⟨hold, -⟩
      · rw [hjob]
        exact hopen
      · exact h.unquarantined row hold
    · intro row hrow
      rw [hstarts]
      rcases hput row hrow with rfl | ⟨hold, hother⟩
      · rw [hid, hjob]
        by_cases hrunning : toState = .running
        · simp [Job.moved, hrunning, hattempts]
        · simp [Job.moved, hrunning, hattempts]
      · rw [if_neg (fun hsame => hother hsame.1)]
        exact h.attempts row hold
    · intro row hrow
      rw [hstarts]
      rcases hput row hrow with rfl | ⟨hold, hother⟩
      · rw [hid, hjob]
        by_cases hrunning : toState = .running
        · simp only [Job.moved, hrunning, and_self, if_true, hstartedAt]
          cases db.starts job.id <;> rfl
        · simp [Job.moved, hrunning, hstartedAt]
      · rw [if_neg (fun hsame => hother hsame.1)]
        exact h.startedAt row hold
    · intro id hnone
      replace hnone : Tables.find Job.id (put Job.id db.jobs job') id = none := hnone
      rw [find_put hsome] at hnone
      split_ifs at hnone with hsame
      rw [hstarts, if_neg (fun hrow => hsame (hrow.1.trans hid.symm))]
      exact h.unlogged id hnone
    · intro id row hrow
      by_cases hsame : id = job.id
      · subst hsame
        rw [show db.find job.id = some job from h.keyed.ids.find_of_mem hmem,
          Option.some.injEq] at hrow
        subst hrow
        refine ⟨job', ?_, ?_⟩
        · show Tables.find Job.id (put Job.id db.jobs job') job.id = some job'
          rw [find_put hsome, if_pos hid.symm]
        · intro started hstarted
          rw [hjob]
          show (if toState = .running then job.startedAt <|> some now else job.startedAt) = _
          rw [hstarted]
          split_ifs <;> rfl
      · refine ⟨row, ?_, fun _ h => h⟩
        show Tables.find Job.id (put Job.id db.jobs job') id = some row
        rw [find_put hsome, if_neg (fun hrow => hsame (hrow.trans hid))]
        exact hrow

theorem mem_orphanedJobs {sessionExists : String → Bool} {timeout : Int} (h : Timed db)
    (hmem : jobId ∈ orphanedJobs sessionExists timeout now db) :
    ∃ job, db.find jobId = some job ∧
      ∃ started, job.startedAt = some started ∧ started + leaseSeconds timeout < now := by
  unfold orphanedJobs at hmem
  obtain ⟨job, hjob, rfl⟩ := List.mem_map.mp hmem
  obtain ⟨hrow, hselected⟩ := List.mem_filter.mp hjob
  refine ⟨job, h.keyed.ids.find_of_mem hrow, ?_⟩
  simp only [Bool.and_eq_true] at hselected
  have hstarted := hselected.1.1.2
  cases hrow : job.startedAt with
  | none =>
    rw [hrow] at hstarted
    cases hstarted
  | some started =>
    rw [hrow] at hstarted
    exact ⟨started, rfl, of_decide_eq_true hstarted⟩

end Timed

/-! ## Every interleaving -/

/-- What holds in every state of an interleaving. -/
structure Recoverable (system : RecoverySystem) : Prop where
  timed : Timed system.db
  selected : ∀ call ∈ system.selected, ∃ job, system.db.find call.jobId = some job ∧
    ∃ started, job.startedAt = some started ∧ started + leaseSeconds call.timeout < system.clock
  finalizations : ∀ call ∈ system.finalizations, (system.db.find call.job.id).isSome

variable {system : RecoverySystem}

theorem Recoverable.keeps (h : Recoverable system) {selected : List SelectedJob}
    {finalizations : List Finalization} (hdb : Timed db ∧ KeepsStart system.db db)
    (hselected : ∀ call ∈ selected, call ∈ system.selected)
    (hfinalizations : ∀ call ∈ finalizations, call ∈ system.finalizations) :
    Recoverable { system with
      db := db
      selected := selected
      finalizations := finalizations } where
  timed := hdb.1
  selected := by
    intro call hcall
    obtain ⟨job, hjob, started, hstarted, hold⟩ := h.selected call (hselected call hcall)
    obtain ⟨job', hjob', hkeeps⟩ := hdb.2 _ job hjob
    exact ⟨job', hjob', started, hkeeps started hstarted, hold⟩
  finalizations := by
    intro call hcall
    obtain ⟨job, hjob⟩ := Option.isSome_iff_exists.mp
      (h.finalizations call (hfinalizations call hcall))
    obtain ⟨job', hjob', -⟩ := hdb.2 _ job hjob
    show (db.find call.job.id).isSome
    rw [hjob']
    rfl

theorem Timed.settled (h : Timed db) {f : JobDb → Except PaperError (Job × JobDb)}
    (hf : ∀ job' db', f db = .ok (job', db') → Timed db' ∧ KeepsStart db db') :
    Timed (settle f db) ∧ KeepsStart db (settle f db) := by
  cases hrun : f db with
  | error e =>
    rw [settle_error hrun]
    exact ⟨h, .refl db⟩
  | ok result =>
    rw [settle_ok (a := result.1) (t := result.2) hrun]
    exact hf _ _ hrun

theorem Timed.commit (h : Timed db) (call : Finalization) (now : Nat) :
    Timed (settle (call.commit now) db) ∧ KeepsStart db (settle (call.commit now) db) := by
  refine h.settled ?_
  intro job' db' hrun
  unfold Finalization.commit completeJob failJob at hrun
  split_ifs at hrun <;> exact h.transition hrun

theorem Recoverable.next (h : Recoverable system) {action : RecoveryAction}
    (hallowed : recoveryMachine.allowed system action) :
    Recoverable (recoveryMachine.next system action) := by
  cases action with
  | wait seconds =>
    refine ⟨h.timed, ?_, h.finalizations⟩
    intro call hcall
    obtain ⟨job, hjob, started, hstarted, hold⟩ := h.selected call hcall
    exact ⟨job, hjob, started, hstarted, Nat.lt_of_lt_of_le hold (Nat.le_add_right _ _)⟩
  | ensure sessionId tradeDate jobId =>
    exact h.keeps (h.timed.settled (fun _ _ => h.timed.ensure hallowed)) (fun _ h => h)
      (fun _ h => h)
  | transition jobId toState eventType payload expected paperRunId taskId =>
    exact h.keeps (h.timed.settled (fun _ _ => h.timed.transition)) (fun _ h => h) (fun _ h => h)
  | select timeout =>
    refine ⟨h.timed, ?_, h.finalizations⟩
    intro call hcall
    rcases List.mem_append.mp hcall with hold | hnew
    · exact h.selected call hold
    · obtain ⟨jobId, hjobId, rfl⟩ := List.mem_map.mp hnew
      exact mem_orphanedJobs h.timed hjobId
  | recover n =>
    show Recoverable (match system.selected[n]? with | none => system | some job => _)
    cases system.selected[n]? with
    | none => exact h
    | some call =>
      exact h.keeps (h.timed.settled (fun _ _ => h.timed.transition))
        (fun _ h => List.mem_of_mem_eraseIdx h) (fun _ h => h)
  | readJob run =>
    show Recoverable (match system.db.forDate run.sessionId run.tradeDate with
      | none => system
      | some job => _)
    cases hjob : system.db.forDate run.sessionId run.tradeDate with
    | none => exact h
    | some job =>
      refine ⟨h.timed, h.selected, ?_⟩
      intro call hcall
      rcases List.mem_append.mp hcall with hold | hnew
      · exact h.finalizations call hold
      · rw [List.mem_singleton.mp hnew]
        show (system.db.find job.id).isSome
        rw [show system.db.find job.id = some job from
          h.timed.keyed.ids.find_of_mem (mem_of_find hjob)]
        rfl
  | finalize n =>
    show Recoverable (match system.finalizations[n]? with | none => system | some call => _)
    cases system.finalizations[n]? with
    | none => exact h
    | some call =>
      exact h.keeps (h.timed.commit call system.clock) (fun _ h => h)
        (fun _ h => List.mem_of_mem_eraseIdx h)

theorem recoverable_start (sessions : List String) : Recoverable (.start sessions) where
  timed :=
    { keyed := ⟨List.nodup_nil, List.nodup_nil⟩
      unquarantined := fun _ h => by cases h
      attempts := fun _ h => by cases h
      startedAt := fun _ h => by cases h
      unlogged := fun _ _ => rfl }
  selected := fun _ h => by cases h
  finalizations := fun _ h => by cases h

/-! ## What a recovery and a finalization owe to their job -/

/-- A result whose job is `COMPLETED`. -/
def Lands : Except PaperError (Job × JobDb) → Prop
  | .ok (job, db) => job.state = .completed ∧ db.find job.id = some job
  | .error _ => False

instance : ∀ result, Decidable (Lands result)
  | .ok (job, db) => inferInstanceAs (Decidable (job.state = .completed ∧ db.find job.id = some job))
  | .error _ => .isFalse id

/-- A recovery moves its job only if the current episode is older than its
timeout, and the finalization of a run that succeeded completes its job. -/
def StepSound (system : RecoverySystem) : RecoveryAction → Prop
  | .recover n => ∀ call ∈ system.selected[n]?,
      ((RecoveryAction.recover n).next system).db ≠ system.db →
        ∃ started ∈ system.db.episodeStart call.jobId,
          (started : Int) + call.timeout < system.clock
  | .finalize n => ∀ call ∈ system.finalizations[n]?, call.run.status = "success" →
      Lands (call.commit system.clock system.db)
  | _ => True

/-- A recovery finds its job in the first attempt or no longer running, and the
finalization of a run that succeeded finds its job running or completed. -/
def KnowsEpisode (system : RecoverySystem) : RecoveryAction → Prop
  | .recover n => ∀ call ∈ system.selected[n]?, ∀ job ∈ system.db.find call.jobId,
      job.state = .running → job.attempt = 1
  | .finalize n => ∀ call ∈ system.finalizations[n]?, call.run.status = "success" →
      ∀ job ∈ system.db.find call.job.id, job.state = .running ∨ job.state = .completed
  | _ => True

theorem Timed.episodeStart (h : Timed db) {job : Job} (hmem : job ∈ db.jobs)
    (hfirst : job.attempt = 1) : db.episodeStart job.id = job.startedAt := by
  have hlength := h.attempts job hmem
  rw [hfirst] at hlength
  obtain ⟨started, hstarts⟩ := List.length_eq_one_iff.mp hlength
  rw [h.startedAt job hmem]
  unfold JobDb.episodeStart
  rw [hstarts]
  rfl

theorem Recoverable.recover_sound (h : Recoverable system) {n : Nat}
    (hknows : KnowsEpisode system (.recover n)) : StepSound system (.recover n) := by
  intro call hcall hmoved
  obtain ⟨job, hjob, started, hstarted, hold⟩ := h.selected call (List.mem_of_getElem? hcall)
  have hrunning : job.state = .running := by
    by_contra hother
    apply hmoved
    have hstep : ((RecoveryAction.recover n).next system).db =
        settle (recoverJob call.jobId system.clock) system.db := by
      show RecoverySystem.db (match system.selected[n]? with | none => system | some job => _) = _
      rw [show system.selected[n]? = some call from hcall]
    rw [hstep]
    cases hrun : recoverJob call.jobId system.clock system.db with
    | error e => exact settle_error hrun
    | ok result =>
      rw [settle_ok (a := result.1) (t := result.2) hrun]
      obtain ⟨found, hfind, -, ⟨hstay, -, -⟩ | ⟨hexpected, -, -, -⟩⟩ := transitionJob_cases hrun
      · exact hstay
      · rw [hjob, Option.some.injEq] at hfind
        subst hfind
        exact absurd (List.mem_singleton.mp hexpected) hother
  have hfirst : job.attempt = 1 := hknows call hcall job hjob hrunning
  have hepisode := h.timed.episodeStart (mem_of_find hjob) hfirst
  rw [show job.id = call.jobId from find_key hjob, hstarted] at hepisode
  refine ⟨started, hepisode, ?_⟩
  -- a lease is never shorter than the timeout
  have hlease : call.timeout ≤ (leaseSeconds call.timeout : Int) := by
    unfold leaseSeconds
    omega
  omega

theorem Recoverable.finalize_sound (h : Recoverable system) {n : Nat}
    (hknows : KnowsEpisode system (.finalize n)) : StepSound system (.finalize n) := by
  intro call hcall hsuccess
  obtain ⟨job, hjob⟩ := Option.isSome_iff_exists.mp
    (h.finalizations call (List.mem_of_getElem? hcall))
  have hopen : job.quarantined = none := h.timed.unquarantined job (mem_of_find hjob)
  have hid : job.id = call.job.id := find_key hjob
  have hlands : Lands (completeJob call.job call.run system.clock system.db) := by
    unfold completeJob transitionJob
    simp only [hjob, hopen]
    rcases hknows call hcall hsuccess job hjob with hrunning | hcompleted
    · simp only [hrunning]
      refine ⟨rfl, ?_⟩
      have hself : (Tables.find Job.id system.db.jobs job.id).isSome := by
        rw [hid, show Tables.find Job.id system.db.jobs call.job.id = some job from hjob]
        rfl
      refine (find_put ?_ _).trans (if_pos rfl)
      exact hself
    · simp only [hcompleted]
      refine ⟨hcompleted, ?_⟩
      rw [hid]
      exact hjob
  unfold Finalization.commit
  rw [if_pos hsuccess]
  exact hlands

/-- In every interleaving, a recovery that finds its job in the first attempt is
sound, and so is a finalization that finds its job running or completed. -/
theorem stepSound_of_knowsEpisode (sessions : List String) (actions : List RecoveryAction)
    (action : RecoveryAction) (haccepts : recoveryMachine.Accepts (.start sessions) actions)
    (hknows : KnowsEpisode (recoveryMachine.after (.start sessions) actions) action) :
    StepSound (recoveryMachine.after (.start sessions) actions) action := by
  have h : Recoverable (recoveryMachine.after (.start sessions) actions) :=
    Machine.invariant (fun _ _ h hallowed => h.next hallowed) actions _
      (recoverable_start sessions) haccepts
  cases action with
  | recover n => exact h.recover_sound hknows
  | finalize n => exact h.finalize_sound hknows
  | wait _ => trivial
  | ensure _ _ _ => trivial
  | transition _ _ _ _ _ _ _ => trivial
  | select _ => trivial
  | readJob _ => trivial

/-! ## A second attempt, and a finalization after a recovery -/

def dispatchedJob : List RecoveryAction :=
  [.ensure "s" "2024-01-02" "job",
    .transition "job" .ready "readiness_passed" {} [.scheduled] none none,
    .transition "job" .running "workflow_queued" {} [.ready, .retrying] none none]

/-- The run of the job succeeds. -/
def succeededRun : PaperRun where
  id := "run"
  sessionId := "s"
  tradeDate := "2024-01-02"
  backtestRunId := "backtest"
  taskId := "task"
  status := "success"

/-- The first attempt fails after an hour, the second one runs for a second. -/
def secondAttempt : List RecoveryAction :=
  dispatchedJob ++ [.wait 4000,
    .transition "job" .failed "worker_error" {} [.running, .retrying] none none,
    .transition "job" .retrying "automatic_retry" {} [.failed, .blockedData, .blockedQa] none none,
    .transition "job" .ready "retry_ready" {} [.retrying] none none,
    .transition "job" .running "workflow_queued" {} [.ready, .retrying] none none,
    .wait 1, .select 3600]

/-- A first attempt is recovered after its lease, and its run succeeds. -/
def recoveredAttempt : List RecoveryAction :=
  dispatchedJob ++ [.wait 4000, .select 3600, .recover 0, .readJob succeededRun]

theorem stepSound_first_attempt :
    StepSound (recoveryMachine.after (.start ["s"]) (dispatchedJob ++ [.wait 4000, .select 3600]))
        (.recover 0) ∧
      StepSound (recoveryMachine.after (.start ["s"]) (dispatchedJob ++ [.readJob succeededRun]))
        (.finalize 0) := by
  constructor
  · refine stepSound_of_knowsEpisode ["s"] _ _ (by decide +kernel) ?_
    unfold KnowsEpisode
    decide +kernel
  · refine stepSound_of_knowsEpisode ["s"] _ _ (by decide +kernel) ?_
    unfold KnowsEpisode
    decide +kernel

/-- The second attempt is recovered after a second, and a finalization of a
recovered job raises. -/
theorem live_attempt_recovered :
    (recoveryMachine.Accepts (.start ["s"]) secondAttempt ∧
        ¬ StepSound (recoveryMachine.after (.start ["s"]) secondAttempt) (.recover 0)) ∧
      (recoveryMachine.Accepts (.start ["s"]) recoveredAttempt ∧
        ¬ StepSound (recoveryMachine.after (.start ["s"]) recoveredAttempt) (.finalize 0)) := by
  refine ⟨⟨by decide +kernel, ?_⟩, ⟨by decide +kernel, ?_⟩⟩
  · unfold StepSound
    decide +kernel
  · unfold StepSound
    decide +kernel

/-- In every interleaving the rows of the jobs are what their log says. -/
theorem jobs_timed (sessions : List String) (actions : List RecoveryAction)
    (haccepts : recoveryMachine.Accepts (.start sessions) actions) :
    Timed (recoveryMachine.after (.start sessions) actions).db := by
  have hrecoverable : Recoverable (recoveryMachine.after (.start sessions) actions) :=
    Machine.invariant (fun _ _ h hallowed => h.next hallowed) actions _
      (recoverable_start sessions) haccepts
  exact hrecoverable.timed

theorem jobs_timed_secondAttempt : Timed (recoveryMachine.after (.start ["s"]) secondAttempt).db :=
  jobs_timed ["s"] secondAttempt (by decide +kernel)

end LocalPlatform.Scheduler
