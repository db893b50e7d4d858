import LocalPlatform.DataSync.Execution

/-!
# Executions that have lost their run

* An execution is `TakenOver` when another task is bound, and every execution has lost a run whose
  cancellation is through.  `Fenced` says that a step of such an execution changes neither the
  status of the run nor an item.
* Ownership is read at a few places only.  `Place.yields` and `Place.stops` are the places from
  which it is read before the next write, so that a takeover or a cancellation is noticed.
* `Timely` is the condition: whoever takes a run over or cancels it finds the executions at such
  places, and an execution that has lost its run does not raise.
-/

namespace LocalPlatform.DataSync

open Tables Machines

/-! ## The promise -/

/-- The execution has a task id, and another one is bound. -/
def TakenOver (run : RunRow) (execution : Execution) : Prop :=
  execution.taskId.isSome ∧ run.taskId ≠ execution.taskId

instance (run : RunRow) (execution : Execution) : Decidable (TakenOver run execution) :=
  inferInstanceAs (Decidable (_ ∧ _))

def Lost (s : State) (execution : Execution) : Prop :=
  TakenOver s.rows.run execution ∨ s.cancelled

/-- A step of an execution that has lost its run changes nothing. -/
def Fenced (s : State) (index : ℕ) (input : Input) : Prop :=
  ∀ execution, s.executions[index]? = some execution → Lost s execution →
    (s.next (.step index input)).rows.run.status = s.rows.run.status ∧
      (s.next (.step index input)).rows.items = s.rows.items

/-- What holds along a run of the machine. -/
structure Fencing (s : State) (actions : List Action) : Prop where
  fenced : ∀ before index input after, actions = before ++ .step index input :: after →
    Fenced (synchronisation.after s before) index input
  /-- A cancelled run stays so. -/
  cancelled : ∀ before after, actions = before ++ after →
    (synchronisation.after s before).cancelled →
      (synchronisation.after s before).rows.run.status = .cancelled

/-! ## The condition -/

/-- A dataset that is told at every read that the run is lost writes nothing more, and returns. -/
def Dataset.yields : Dataset → Bool
  | .returns _ => true
  | .raises _ => false
  | .cancelled next => (next true).yields
  | .currentTask next => (next false).yields
  | .item _ _ => false
  | .store _ _ => false

/-- The places at which a takeover is noticed before the next write of an item. -/
def Place.yields : Place → Bool
  | .start | .prepare | .probe _ | .probeAsk _ _ _ | .load | .loop _ _ => true
  | .dataset _ program _ _ => program.yields
  | .returned _ _ _ _ | .cancelCheck _ _ _ _ | .pause | .closing _ | .finish _ | .crashed => true
  | .done => true
  | .probeRead _ _ | .probeMark _ _ | .probeQueue _ _ | .skip _ _ _ | .begin _ _ _ => false
  | .recordCancelled _ _ _ _ | .record _ _ _ _ | .cover _ _ _ | .failing _ _ _ _ => false

/-- The places at which a cancellation is noticed before the next write. -/
def Place.stops : Place → Bool
  | .start | .prepare | .probe _ | .probeAsk _ _ _ | .load | .loop _ _ | .closing _ | .done => true
  | .finish status => status = .cancelled
  | .probeRead _ _ | .probeMark _ _ | .probeQueue _ _ | .skip _ _ _ | .begin _ _ _ => false
  | .dataset _ _ _ _ | .returned _ _ _ _ | .cancelCheck _ _ _ _ => false
  | .recordCancelled _ _ _ _ | .record _ _ _ _ | .cover _ _ _ | .failing _ _ _ _ => false
  | .pause | .crashed => false

/-- The places from which an exception leads to the item of a dataset. -/
def Place.inDataset : Place → Bool
  | .dataset _ _ _ _ | .returned _ _ _ _ | .cancelCheck _ _ _ _ => true
  | .recordCancelled _ _ _ _ | .record _ _ _ _ | .cover _ _ _ => true
  | _ => false

def Timely (s : State) : Action → Prop
  | .bindTask taskId => ∀ execution ∈ s.executions, execution.taskId.isSome →
      execution.taskId ≠ some taskId → execution.place.yields
  | .confirmCancelled => (confirmCancelled s.rows.run).status = .cancelled →
      ∀ execution ∈ s.executions, execution.place.stops
  | .step index .raised => ∀ execution ∈ s.executions[index]?, ¬ s.cancelled ∧
      (execution.place.inDataset → ¬ TakenOver s.rows.run execution)
  | _ => True

instance (s : State) (action : Action) : Decidable (Timely s action) :=
  match action with
  | .bindTask taskId => inferInstanceAs (Decidable (∀ execution ∈ s.executions,
      execution.taskId.isSome → execution.taskId ≠ some taskId → execution.place.yields))
  | .confirmCancelled => inferInstanceAs (Decidable (_ → ∀ execution ∈ s.executions,
      execution.place.stops))
  | .step index .raised => inferInstanceAs (Decidable (∀ execution ∈ s.executions[index]?,
      ¬ s.cancelled ∧ (execution.place.inDataset → ¬ TakenOver s.rows.run execution)))
  | .step _ .nothing | .step _ (.probes _) | .step _ (.plan _) => .isTrue trivial
  | .step _ (.program _) | .step _ (.degraded _) | .execute _ | .queueStale | .requestCancelling => .isTrue trivial
  | .resume _ _ => .isTrue trivial

instance (s : State) (action : Action) : Decidable (synchronisation.allowed s action) :=
  .isTrue trivial

/-! ## One step -/

section Step

variable {rows : Rows} {execution : Execution}

theorem isCancelled_of_takenOver (h : TakenOver rows.run execution) :
    isCancelled rows.run execution.taskId = true := if_pos h

theorem currentTask_of_takenOver (h : TakenOver rows.run execution) :
    currentTask rows.run execution.taskId = false := by
  unfold currentTask
  obtain ⟨hsome, hne⟩ := h
  cases htask : execution.taskId with
  | none =>
    rw [htask] at hsome
    cases hsome
  | some taskId =>
    rw [htask] at hne
    simpa using hne

theorem close_of_takenOver (h : TakenOver rows.run execution) (status : RunStatus)
    (canonicalStatus : CanonicalStatus) :
    rows.close execution.taskId status canonicalStatus = (rows, .done) := by
  have hkept : ∀ updated, guarded execution.taskId rows.run updated = rows.run :=
    fun _ => if_pos h
  unfold Rows.close
  rw [hkept]

/-- A step at a place that yields changes nothing and leads to another one. -/
theorem proceed_takenOver (input : Input) (h : TakenOver rows.run execution)
    (hplace : execution.place.yields) :
    (proceed rows execution.taskId input execution.place).1 = rows ∧
      (proceed rows execution.taskId input execution.place).2.yields := by
  have hcancelled := isCancelled_of_takenOver h
  have hcurrent := currentTask_of_takenOver h
  cases hhere : execution.place with
  | start =>
    have hstart : startRun rows execution.taskId = (rows, .done) := if_pos h
    show (startRun rows execution.taskId).1 = rows ∧ (startRun rows execution.taskId).2.yields
    rw [hstart]
    exact ⟨rfl, rfl⟩
  | prepare => cases input <;> exact ⟨rfl, rfl⟩
  | probe keys =>
    cases keys with
    | nil => exact ⟨rfl, rfl⟩
    | cons key keys =>
      unfold proceed
      rw [hcancelled]
      exact ⟨rfl, rfl⟩
  | probeAsk key preserve keys =>
    unfold proceed
    rw [hcancelled]
    exact ⟨rfl, rfl⟩
  | load => cases input <;> exact ⟨rfl, rfl⟩
  | loop completed rest =>
    cases rest with
    | nil => exact ⟨rfl, rfl⟩
    | cons planned rest =>
      obtain ⟨key, fetched⟩ := planned
      unfold proceed
      rw [hcancelled]
      exact ⟨rfl, rfl⟩
  | dataset key program completed rest =>
    rw [hhere] at hplace
    cases program with
    | returns counters => exact ⟨rfl, rfl⟩
    | raises infrastructure => cases hplace
    | cancelled next =>
      refine ⟨rfl, ?_⟩
      show (next (isCancelled rows.run execution.taskId)).yields
      rw [hcancelled]
      exact hplace
    | currentTask next =>
      refine ⟨rfl, ?_⟩
      show (next (currentTask rows.run execution.taskId)).yields
      rw [hcurrent]
      exact hplace
    | item fields next => cases hplace
    | store fields next => cases hplace
  | returned key counters completed rest =>
    unfold proceed
    rw [hcancelled]
    exact ⟨rfl, rfl⟩
  | cancelCheck key counters completed rest =>
    unfold proceed
    rw [hcurrent]
    exact ⟨rfl, rfl⟩
  | pause =>
    show (rows.close execution.taskId .paused .partialResult).1 = rows ∧ _
    rw [close_of_takenOver h]
    exact ⟨rfl, rfl⟩
  | closing blocking => cases input <;> exact ⟨rfl, rfl⟩
  | finish status =>
    show (rows.close execution.taskId status (finalCanonicalStatus status)).1 = rows ∧ _
    rw [close_of_takenOver h]
    exact ⟨rfl, rfl⟩
  | crashed =>
    show (rows.close execution.taskId .failed .failed).1 = rows ∧ _
    rw [close_of_takenOver h]
    exact ⟨rfl, rfl⟩
  | done => exact ⟨rfl, rfl⟩
  | probeRead | probeMark | probeQueue | skip | begin | recordCancelled | record | cover
  | failing =>
    rw [hhere] at hplace
    cases hplace

theorem isCancelled_of_status (h : rows.run.status = .cancelled) (taskId : Option String) :
    isCancelled rows.run taskId = true := by
  unfold isCancelled
  split
  · rfl
  · simp [h]

/-- A step at a place that stops writes no item and leaves the run cancelled. -/
theorem proceed_cancelled (input : Input) (h : rows.run.status = .cancelled)
    (hplace : execution.place.stops) :
    (proceed rows execution.taskId input execution.place).1.run.status = .cancelled ∧
      (proceed rows execution.taskId input execution.place).1.items = rows.items ∧
      (proceed rows execution.taskId input execution.place).2.stops := by
  have hcancelled := isCancelled_of_status h execution.taskId
  cases hhere : execution.place with
  | start =>
    have hstart : startRun rows execution.taskId = (rows, .done) := by
      unfold startRun
      split
      · rfl
      · exact if_pos (Or.inr h)
    show (startRun rows execution.taskId).1.run.status = .cancelled ∧
      (startRun rows execution.taskId).1.items = rows.items ∧
        (startRun rows execution.taskId).2.stops
    rw [hstart]
    exact ⟨h, rfl, rfl⟩
  | prepare => cases input <;> exact ⟨h, rfl, rfl⟩
  | probe keys =>
    cases keys with
    | nil => exact ⟨h, rfl, rfl⟩
    | cons key keys =>
      unfold proceed
      rw [hcancelled]
      exact ⟨h, rfl, rfl⟩
  | probeAsk key preserve keys =>
    unfold proceed
    rw [hcancelled]
    exact ⟨h, rfl, rfl⟩
  | load => cases input <;> exact ⟨h, rfl, rfl⟩
  | loop completed rest =>
    cases rest with
    | nil => exact ⟨h, rfl, rfl⟩
    | cons planned rest =>
      obtain ⟨key, fetched⟩ := planned
      unfold proceed
      rw [hcancelled]
      exact ⟨h, rfl, rfl⟩
  | closing blocking =>
    cases input with
    | degraded degraded =>
      refine ⟨h, rfl, ?_⟩
      show (Place.finish (finalStatus (isCancelled rows.run execution.taskId) blocking
        degraded)).stops
      rw [hcancelled]
      rfl
    | _ => exact ⟨h, rfl, rfl⟩
  | finish status =>
    rw [hhere] at hplace
    have hstatus : status = .cancelled := of_decide_eq_true hplace
    refine ⟨?_, rfl, rfl⟩
    show (guarded execution.taskId rows.run _).status = .cancelled
    unfold guarded
    split
    · exact h
    · exact hstatus
  | done => exact ⟨h, rfl, rfl⟩
  | probeRead | probeMark | probeQueue | skip | begin | dataset | returned | cancelCheck
  | recordCancelled | record | cover | failing | pause | crashed =>
    rw [hhere] at hplace
    cases hplace

end Step

/-! ## A run of the machine -/

section Runs

variable {s : State}

theorem startRun_ownership (rows : Rows) (taskId : Option String) :
    (startRun rows taskId).1.run.taskId = rows.run.taskId ∧
      (startRun rows taskId).1.run.cancelRequested = rows.run.cancelRequested := by
  unfold startRun
  split
  · exact ⟨rfl, rfl⟩
  · split
    · exact ⟨rfl, rfl⟩
    · split <;> exact ⟨rfl, rfl⟩

theorem proceed_ownership (rows : Rows) (taskId : Option String) (input : Input) (place : Place) :
    (proceed rows taskId input place).1.run.taskId = rows.run.taskId ∧
      (proceed rows taskId input place).1.run.cancelRequested = rows.run.cancelRequested := by
  have hclose : ∀ status canonicalStatus,
      (rows.close taskId status canonicalStatus).1.run.taskId = rows.run.taskId ∧
        (rows.close taskId status canonicalStatus).1.run.cancelRequested =
          rows.run.cancelRequested := by
    intro status canonicalStatus
    unfold Rows.close guarded
    dsimp only
    split <;> exact ⟨rfl, rfl⟩
  cases place with
  | start => exact startRun_ownership rows taskId
  | prepare => cases input <;> exact ⟨rfl, rfl⟩
  | probe keys => cases keys <;> exact ⟨rfl, rfl⟩
  | load => cases input <;> exact ⟨rfl, rfl⟩
  | loop completed rest => cases rest <;> exact ⟨rfl, rfl⟩
  | begin key completed rest => cases input <;> exact ⟨rfl, rfl⟩
  | dataset key program completed rest => cases program <;> exact ⟨rfl, rfl⟩
  | closing blocking => cases input <;> exact ⟨rfl, rfl⟩
  | pause => exact hclose .paused .partialResult
  | finish status => exact hclose status (finalCanonicalStatus status)
  | crashed => exact hclose .failed .failed
  | probeRead | probeMark | probeAsk | probeQueue | skip | returned | cancelCheck
  | recordCancelled | record | cover | failing | done => exact ⟨rfl, rfl⟩

theorem step_ownership (execution : Execution) (rows : Rows) (input : Input) :
    (execution.step rows input).1.run.taskId = rows.run.taskId ∧
      (execution.step rows input).1.run.cancelRequested = rows.run.cancelRequested ∧
        (execution.step rows input).2.taskId = execution.taskId := by
  have hproceed := proceed_ownership rows execution.taskId input execution.place
  cases input with
  | raised => exact ⟨rfl, rfl, rfl⟩
  | _ => exact ⟨hproceed.1, hproceed.2, rfl⟩

/-- Executions that have lost their run are where they notice it. -/
structure Noticing (s : State) : Prop where
  takenOver : ∀ execution ∈ s.executions, TakenOver s.rows.run execution → execution.place.yields
  run : s.cancelled → s.rows.run.status = .cancelled
  cancelled : s.cancelled → ∀ execution ∈ s.executions, execution.place.stops

theorem yields_raise {place : Place} (h : place.yields) (hplace : place.inDataset = false) :
    place.raise.yields := by
  cases place with
  | start | prepare | probe | probeAsk | load | loop | pause | closing | finish | crashed
  | done => rfl
  | dataset | returned | cancelCheck => cases hplace
  | probeRead | probeMark | probeQueue | skip | begin | recordCancelled | record | cover
  | failing =>
    cases h

theorem step_takenOver {rows : Rows} {execution : Execution} (input : Input)
    (h : TakenOver rows.run execution) (hplace : execution.place.yields)
    (hraise : input = .raised → execution.place.inDataset = false) :
    (execution.step rows input).1 = rows ∧ (execution.step rows input).2.place.yields := by
  have hproceed := proceed_takenOver input h hplace
  cases input with
  | raised => exact ⟨rfl, yields_raise hplace (hraise rfl)⟩
  | _ => exact hproceed

theorem step_cancelled {rows : Rows} {execution : Execution} (input : Input)
    (h : rows.run.status = .cancelled) (hplace : execution.place.stops) (hraise : input ≠ .raised) :
    (execution.step rows input).1.run.status = .cancelled ∧
      (execution.step rows input).1.items = rows.items ∧
        (execution.step rows input).2.place.stops := by
  have hproceed := proceed_cancelled input h hplace
  cases input with
  | raised => exact absurd rfl hraise
  | _ => exact hproceed

theorem mem_set_cases {executions : List Execution} {index : ℕ} {after other : Execution}
    (h : other ∈ executions.set index after) : other = after ∨ other ∈ executions :=
  (List.mem_or_eq_of_mem_set h).symm

theorem Noticing.step (h : Noticing s) {index : ℕ} {input : Input}
    (htimely : Timely s (.step index input)) : Noticing (s.next (.step index input)) := by
  unfold State.next
  dsimp only
  cases hfind : s.executions[index]? with
  | none => exact h
  | some execution =>
    have hmem := List.mem_of_getElem? hfind
    obtain ⟨htask, hrequested, hsame⟩ := step_ownership execution s.rows input
    dsimp only
    constructor
    · -- Who has lost the run had lost it before.
      intro other hother htaken
      have htaken' : TakenOver s.rows.run other := by
        unfold TakenOver at htaken ⊢
        rw [htask] at htaken
        exact htaken
      rcases mem_set_cases hother with rfl | hold
      · have hbefore : TakenOver s.rows.run execution := by
          unfold TakenOver at htaken' ⊢
          rw [hsame] at htaken'
          exact htaken'
        apply (step_takenOver input hbefore (h.takenOver execution hmem hbefore) _).2
        rintro rfl
        have hquiet := (htimely execution hfind).2
        rw [← Bool.not_eq_true]
        exact fun hinside => hquiet hinside hbefore
      · exact h.takenOver other hold htaken'
    · intro hcancelled
      have hraise : input ≠ .raised := by
        rintro rfl
        exact (htimely execution hfind).1 hcancelled
      exact (step_cancelled input (h.run hcancelled) (h.cancelled hcancelled execution hmem)
        hraise).1
    · intro hcancelled other hother
      have hraise : input ≠ .raised := by
        rintro rfl
        exact (htimely execution hfind).1 hcancelled
      rcases mem_set_cases hother with rfl | hold
      · exact (step_cancelled input (h.run hcancelled) (h.cancelled hcancelled execution hmem)
          hraise).2.2
      · exact h.cancelled hcancelled other hold

theorem Noticing.of_run (h : Noticing s) {run : RunRow} (htask : run.taskId = s.rows.run.taskId)
    (hrun : s.rows.run.status = .cancelled → run.status = .cancelled) :
    Noticing { s with rows := { s.rows with run := run } } := by
  refine ⟨?_, fun hcancelled => hrun (h.run hcancelled), h.cancelled⟩
  intro execution hexecution htaken
  apply h.takenOver execution hexecution
  unfold TakenOver at htaken ⊢
  rw [htask] at htaken
  exact htaken

theorem Noticing.next (h : Noticing s) {action : Action} (htimely : Timely s action) :
    Noticing (s.next action) := by
  cases action with
  | execute taskId =>
    refine ⟨?_, h.run, ?_⟩
    · intro execution hexecution htaken
      rcases List.mem_append.mp hexecution with hold | hnew
      · exact h.takenOver execution hold htaken
      · rw [List.mem_singleton.mp hnew]
        rfl
    · intro hcancelled execution hexecution
      rcases List.mem_append.mp hexecution with hold | hnew
      · exact h.cancelled hcancelled execution hold
      · rw [List.mem_singleton.mp hnew]
        rfl
  | step index input => exact h.step htimely
  | bindTask taskId =>
    refine ⟨?_, h.run, h.cancelled⟩
    intro execution hexecution htaken
    exact htimely execution hexecution htaken.1 (Ne.symm htaken.2)
  | queueStale =>
    apply h.of_run
    · unfold queueStaleRunForRecovery
      split <;> rfl
    · intro hrun
      unfold queueStaleRunForRecovery
      rw [if_neg (by simp [hrun])]
      exact hrun
  | requestCancelling =>
    apply h.of_run
    · unfold requestCancelling
      split <;> rfl
    · intro hrun
      unfold requestCancelling
      rw [if_neg (by simp [hrun, RunStatus.active])]
      exact hrun
  | confirmCancelled =>
    have htask : (confirmCancelled s.rows.run).taskId = s.rows.run.taskId := by
      unfold confirmCancelled
      split <;> rfl
    have hkept : s.rows.run.status = .cancelled →
        (confirmCancelled s.rows.run).status = .cancelled := by
      intro hrun
      unfold confirmCancelled
      rw [if_neg (by simp [hrun, RunStatus.active])]
      exact hrun
    have hstatus : (s.next .confirmCancelled).cancelled →
        (confirmCancelled s.rows.run).status = .cancelled := by
      intro hcancelled
      rcases (Bool.or_eq_true _ _).mp hcancelled with hbefore | hafter
      · exact hkept (h.run hbefore)
      · exact of_decide_eq_true hafter
    refine ⟨?_, hstatus, fun hcancelled => htimely (hstatus hcancelled)⟩
    intro execution hexecution htaken
    apply h.takenOver execution hexecution
    unfold TakenOver at htaken ⊢
    rw [← htask]
    exact htaken
  | resume context seen =>
    have hresumed : (s.next (.resume context seen)).cancelled ≠ true := by
      show false ≠ true
      decide
    exact ⟨fun execution hexecution htaken => h.takenOver execution hexecution htaken,
      fun hcancelled => absurd hcancelled hresumed, fun hcancelled => absurd hcancelled hresumed⟩

/-- What holds before anything is executed. -/
structure Idle (s : State) : Prop where
  executions : s.executions = []
  cancelled : s.cancelled = false

theorem Idle.noticing (h : Idle s) : Noticing s := by
  refine ⟨?_, ?_, ?_⟩
  · rw [h.executions]
    exact fun execution hexecution => absurd hexecution List.not_mem_nil
  · rw [h.cancelled]
    exact fun hcancelled => absurd hcancelled Bool.false_ne_true
  · rw [h.cancelled]
    exact fun hcancelled => absurd hcancelled Bool.false_ne_true

theorem Noticing.fenced (h : Noticing s) {index : ℕ} {input : Input}
    (htimely : Timely s (.step index input)) : Fenced s index input := by
  intro execution hfind hlost
  have hmem := List.mem_of_getElem? hfind
  have hrows : (s.next (.step index input)).rows = (execution.step s.rows input).1 := by
    unfold State.next
    simp only [hfind]
  rw [hrows]
  by_cases hcancelled : s.cancelled
  · have hraise : input ≠ .raised := by
      rintro rfl
      exact (htimely execution hfind).1 hcancelled
    obtain ⟨hstatus, hitems, _⟩ := step_cancelled input (h.run hcancelled)
      (h.cancelled hcancelled execution hmem) hraise
    rw [h.run hcancelled]
    exact ⟨hstatus, hitems⟩
  · have htaken : TakenOver s.rows.run execution := hlost.resolve_right hcancelled
    have hsame := (step_takenOver input htaken (h.takenOver execution hmem htaken) (by
      rintro rfl
      have hquiet := (htimely execution hfind).2
      rw [← Bool.not_eq_true]
      exact fun hinside => hquiet hinside htaken)).1
    rw [hsame]
    exact ⟨rfl, rfl⟩

/-- In a timely run, who has lost the run changes nothing. -/
theorem executions_fenced (s : State) (hs : Idle s) (actions : List Action)
    (haccepts : (synchronisation.restrict Timely).Accepts s actions) : Fencing s actions := by
  have hstep : ∀ (t : State) action, Noticing t →
      (synchronisation.restrict Timely).allowed t action → Noticing (t.next action) :=
    fun _ _ ht haction => ht.next haction.2
  have hnoticing : ∀ before after, actions = before ++ after →
      Noticing (synchronisation.after s before) := by
    intro before after hactions
    rw [hactions] at haccepts
    exact Machine.invariant hstep before s hs.noticing
      ((Machine.accepts_append before s after).mp haccepts).1
  constructor
  · intro before index input after hactions
    have htimely := hactions ▸ haccepts
    exact (hnoticing before _ hactions).fenced
      ((Machine.accepts_append before s _).mp htimely).2.1.2
  · intro before after hactions hcancelled
    exact (hnoticing before after hactions).run hcancelled

end Runs

/-! ## A cancellation that comes late -/

def sampleState : State where
  rows :=
    { run := ⟨"run-1", .queued, some "task-1", false, .pending⟩
      items := [⟨"stock_basic", .queued, 0, 0, 0, 0, none, false⟩] }
  executions := []
  cancelled := false

def toLoop : List Action :=
  [.execute (some "task-1"), .step 0 .nothing, .step 0 (.probes []), .step 0 .nothing,
    .step 0 (.plan [("stock_basic", true)])]

def cancelledAtLoop : List Action :=
  toLoop ++ [.requestCancelling, .confirmCancelled, .step 0 .nothing, .step 0 (.degraded false),
    .step 0 .nothing]

theorem cancelledAtLoop_fenced : Fencing sampleState cancelledAtLoop :=
  executions_fenced sampleState ⟨rfl, rfl⟩ cancelledAtLoop (by decide +kernel)

/-- It goes on to its last write, and is cancelled before that. -/
def cancelledLate : List Action :=
  toLoop ++ [.step 0 .nothing, .step 0 (.program (.returns ⟨1, 1, 0, 0⟩)), .step 0 .nothing,
    .step 0 .nothing, .step 0 .nothing, .step 0 .nothing, .step 0 .nothing,
    .step 0 (.degraded false), .requestCancelling, .confirmCancelled]

theorem cancelledLate_overwritten :
    Idle sampleState ∧ ¬ Fencing sampleState (cancelledLate ++ [.step 0 .nothing]) := by
  refine ⟨⟨rfl, rfl⟩, fun h => ?_⟩
  have hplace : (synchronisation.after sampleState cancelledLate).executions[0]? =
      some ⟨some "task-1", .finish .success⟩ := by
    rfl
  have hbefore : (synchronisation.after sampleState cancelledLate).rows.run.status =
      .cancelled := by
    decide +kernel
  have hafter : ((synchronisation.after sampleState cancelledLate).next
      (.step 0 .nothing)).rows.run.status = .success := by
    decide +kernel
  have hkept := (h.fenced cancelledLate 0 .nothing [] rfl _ hplace (Or.inr (by decide +kernel))).1
  rw [hbefore, hafter] at hkept
  cases hkept

end LocalPlatform.DataSync
