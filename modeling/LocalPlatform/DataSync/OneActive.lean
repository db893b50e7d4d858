import LocalPlatform.DataSync.Execution

/-!
# One active run

`create_sync_run` and `prepare_resume` look for an active run and then write one, in two blocks.

* A `Caller` is between its two blocks.  The insert of a creation looks at nothing; the write of a
  resumption looks at the other runs, not at its own.
* `Sole`: at most one run is active.
* `Serial` is the condition: when a run is written as active, no other creation, and no other
  resumption of it, is between its blocks, and an active run that has an incomplete checkpoint is
  not asked to be resumed.
-/

namespace LocalPlatform.DataSync

open Tables Machines

/-! ## Creating and resuming -/

namespace Activity

/-- A call between its two blocks. -/
inductive Caller where
  | create (id : String) (datasets : List String)
  | resume (id : String) (seen : List Item)

structure State where
  records : List Rows
  callers : List Caller

def Rows.id (rows : Rows) : String := rows.run.id

def State.update (s : State) (id : String) (f : Rows → Rows) : State :=
  { s with records := s.records.map (fun rows => if rows.run.id = id then f rows else rows) }

/-- The first block of `create_sync_run`. -/
def checkCreate (s : State) (id : String) (datasets : List String) : State :=
  if s.records.any (fun rows => rows.run.status.active) then s
  else { s with callers := s.callers ++ [.create id datasets] }

def newItem (datasetKey : String) : Item := ⟨datasetKey, .queued, 0, 0, 0, 0, none, false⟩

def newRows (id : String) (datasets : List String) : Rows where
  run := ⟨id, .queued, none, false, .pending⟩
  items := datasets.map newItem

/-- The last block of `create_sync_run`. -/
def insertRun (s : State) (id : String) (datasets : List String) : State :=
  if (find Rows.id s.records id).isSome then s
  else { s with records := s.records ++ [newRows id datasets] }

/-- `failed`, `cancelled`, `partial` or `paused`. -/
def resumable (status : RunStatus) : Bool :=
  status = .failed ∨ status = .cancelled ∨ status = .partialResult ∨ status = .paused

/-- What `prepare_resume` asks of the rows that it has read. -/
def mayResume (rows : Rows) : Bool :=
  resumable rows.run.status || rows.items.any Item.incomplete

/-- The first block of `prepare_resume`. -/
def readResume (s : State) (id : String) : State :=
  match find Rows.id s.records id with
  | none => s
  | some rows =>
    if mayResume rows then { s with callers := s.callers ++ [.resume id rows.items] } else s

def otherActive (s : State) (id : String) : Bool :=
  s.records.any (fun rows => rows.run.id ≠ id ∧ rows.run.status.active)

/-- The last block of `prepare_resume`. -/
def writeResume (s : State) (id : String) (context : ResumeContext) (seen : List Item) : State :=
  if otherActive s id then s
  else s.update id (fun rows => ⟨resumeRun rows.run, resumeItems context seen rows.items⟩)

/-! ## The machine -/

/-- How an execution ends a run. -/
inductive Ending where
  | finished (cancelled blocking degraded : Bool)
  | paused
  | crashed

def Ending.status : Ending → RunStatus
  | .finished cancelled blocking degraded => finalStatus cancelled blocking degraded
  | .paused => .paused
  | .crashed => .failed

def Ending.canonicalStatus : Ending → CanonicalStatus
  | .finished cancelled blocking degraded =>
    finalCanonicalStatus (finalStatus cancelled blocking degraded)
  | .paused => .partialResult
  | .crashed => .failed

inductive Action where
  | checkCreate (id : String) (datasets : List String)
  | readResume (id : String)
  /-- A call goes on to its last block. -/
  | proceed (index : ℕ) (context : ResumeContext)
  | start (id : String) (taskId : Option String)
  | terminate (id : String) (taskId : Option String) (ending : Ending)
  | bindTask (id taskId : String)
  | queueStale (id : String)
  | requestCancelling (id : String)
  | confirmCancelled (id : String)

def State.proceed (s : State) (context : ResumeContext) : Caller → State
  | .create id datasets => insertRun s id datasets
  | .resume id seen => writeResume s id context seen

def State.next (s : State) : Action → State
  | .checkCreate id datasets => Activity.checkCreate s id datasets
  | .readResume id => Activity.readResume s id
  | .proceed index context =>
    match s.callers[index]? with
    | none => s
    | some caller =>
      State.proceed { s with callers := s.callers.eraseIdx index } context caller
  | .start id taskId => s.update id (fun rows => (startRun rows taskId).1)
  | .terminate id taskId ending =>
    s.update id (fun rows => (rows.close taskId ending.status ending.canonicalStatus).1)
  | .bindTask id taskId =>
    s.update id (fun rows => { rows with run := DataSync.bindTask rows.run taskId })
  | .queueStale id =>
    s.update id (fun rows => { rows with run := queueStaleRunForRecovery rows.run })
  | .requestCancelling id =>
    s.update id (fun rows => { rows with run := DataSync.requestCancelling rows.run })
  | .confirmCancelled id =>
    s.update id (fun rows => ⟨DataSync.confirmCancelled rows.run, rows.items.map cancelItem⟩)

def activity : Machine State Action where
  allowed := fun _ _ => True
  next := State.next

/-! ## The promise and the condition -/

def Sole (s : State) : Prop :=
  ∀ rows ∈ s.records, ∀ other ∈ s.records, rows.run.status.active → other.run.status.active →
    rows.run.id = other.run.id

structure OneActive (s : State) (actions : List Action) : Prop where
  sole : ∀ before after, actions = before ++ after → Sole (activity.after s before)
  /-- A run that is active is not reset. -/
  resumed : ∀ before index context after, actions = before ++ .proceed index context :: after →
    ∀ id seen, (activity.after s before).callers[index]? = some (.resume id seen) →
      otherActive (activity.after s before) id = false →
        ∀ rows ∈ (activity.after s before).records, rows.run.id = id →
          rows.run.status.active = false

def Caller.id : Caller → String
  | .create id _ => id
  | .resume id _ => id

/-- A call that is not the creation of a run, nor the resumption of this one. -/
def Caller.apart (id : String) : Caller → Bool
  | .create _ _ => false
  | .resume other _ => other ≠ id

def Caller.writes (s : State) : Caller → Bool
  | .create id _ => (find Rows.id s.records id).isNone
  | .resume id _ => !otherActive s id

def Serial (s : State) : Action → Prop
  | .readResume id => ∀ rows ∈ find Rows.id s.records id, rows.run.status.active →
      rows.items.any Item.incomplete = false
  | .proceed index _ => ∀ caller ∈ s.callers[index]?, caller.writes s →
      ∀ other ∈ s.callers.eraseIdx index, other.apart caller.id
  | _ => True

instance (s : State) (action : Action) : Decidable (Serial s action) :=
  match action with
  | .readResume id => inferInstanceAs (Decidable (∀ rows ∈ find Rows.id s.records id,
      rows.run.status.active → rows.items.any Item.incomplete = false))
  | .proceed index _ => inferInstanceAs (Decidable (∀ caller ∈ s.callers[index]?,
      caller.writes s → ∀ other ∈ s.callers.eraseIdx index, other.apart caller.id))
  | .checkCreate _ _ => .isTrue trivial
  | .start _ _ => .isTrue trivial
  | .terminate _ _ _ => .isTrue trivial
  | .bindTask _ _ => .isTrue trivial
  | .queueStale _ => .isTrue trivial
  | .requestCancelling _ => .isTrue trivial
  | .confirmCancelled _ => .isTrue trivial

instance (s : State) (action : Action) : Decidable (activity.allowed s action) :=
  .isTrue trivial

/-- What holds before anything is called. -/
structure Quiet (s : State) : Prop where
  keyed : Unique Rows.id s.records
  sole : Sole s
  callers : s.callers = []

/-! ## One step -/

section Step

variable {s : State}

/-- A run that a call waits to write is not active. -/
structure Waiting (s : State) : Prop where
  keyed : Unique Rows.id s.records
  sole : Sole s
  waiting : ∀ caller ∈ s.callers, ∀ rows ∈ s.records,
    caller.apart rows.run.id ∨ rows.run.status.active = false

theorem Quiet.waiting (h : Quiet s) : Waiting s := by
  refine ⟨h.keyed, h.sole, ?_⟩
  rw [h.callers]
  exact fun caller hcaller => absurd hcaller List.not_mem_nil

/-- A change of the rows of a run that makes no run active. -/
structure Calm (f : Rows → Rows) : Prop where
  id : ∀ rows, (f rows).run.id = rows.run.id
  active : ∀ rows, (f rows).run.status.active → rows.run.status.active

theorem calm_startRun (taskId : Option String) : Calm (fun rows => (startRun rows taskId).1) := by
  constructor
  · intro rows
    simp only [startRun]
    split_ifs <;> rfl
  · intro rows hactive
    simp only [startRun] at hactive
    split_ifs at hactive with htask hcancelled hstatus
    · exact hactive
    · exact hactive
    · exact hactive
    · have hkept : rows.run.status = .queued ∨ rows.run.status = .running := by
        by_contra hnone
        exact hstatus (not_or.mp hnone)
      rcases hkept with h | h
      · simp [RunStatus.active, h]
      · simp [RunStatus.active, h]

theorem finalStatus_inactive (cancelled blocking degraded : Bool) :
    (finalStatus cancelled blocking degraded).active = false := by
  unfold finalStatus
  split_ifs <;> rfl

theorem Ending.status_inactive (ending : Ending) : ending.status.active = false := by
  cases ending with
  | finished cancelled blocking degraded => exact finalStatus_inactive cancelled blocking degraded
  | paused => rfl
  | crashed => rfl

theorem calm_close (taskId : Option String) (ending : Ending) :
    Calm (fun rows => (rows.close taskId ending.status ending.canonicalStatus).1) := by
  constructor
  · intro rows
    simp only [Rows.close, guarded]
    split_ifs <;> rfl
  · intro rows hactive
    simp only [Rows.close, guarded] at hactive
    split_ifs at hactive with htask
    · exact hactive
    · rw [ending.status_inactive] at hactive
      cases hactive

theorem calm_bindTask (taskId : String) :
    Calm (fun rows => { rows with run := DataSync.bindTask rows.run taskId }) :=
  ⟨fun _ => rfl, fun _ h => h⟩

theorem calm_queueStale :
    Calm (fun rows => { rows with run := queueStaleRunForRecovery rows.run }) := by
  constructor
  · intro rows
    simp only [queueStaleRunForRecovery]
    split_ifs <;> rfl
  · intro rows hactive
    simp only [queueStaleRunForRecovery] at hactive
    split_ifs at hactive with h
    · rcases h.1 with h | h
      · simp [RunStatus.active, h]
      · simp [RunStatus.active, h]
    · exact hactive

theorem calm_requestCancelling :
    Calm (fun rows => { rows with run := DataSync.requestCancelling rows.run }) := by
  constructor
  · intro rows
    simp only [DataSync.requestCancelling]
    split_ifs <;> rfl
  · intro rows hactive
    simp only [DataSync.requestCancelling] at hactive
    split_ifs at hactive with h
    · exact h
    · exact hactive

theorem calm_confirmCancelled :
    Calm (fun rows => ⟨DataSync.confirmCancelled rows.run, rows.items.map cancelItem⟩) := by
  constructor
  · intro rows
    simp only [DataSync.confirmCancelled]
    split_ifs <;> rfl
  · intro rows hactive
    simp only [DataSync.confirmCancelled] at hactive
    split_ifs at hactive with h
    · exact h
    · exact hactive

variable {id : String}

theorem mem_update {f : Rows → Rows} (hf : Calm f) {rows : Rows}
    (h : rows ∈ (s.update id f).records) :
    ∃ old ∈ s.records, rows.run.id = old.run.id ∧
      (rows.run.status.active → old.run.status.active) := by
  obtain ⟨old, hold, rfl⟩ := List.mem_map.mp h
  refine ⟨old, hold, ?_⟩
  split_ifs
  · exact ⟨hf.id old, hf.active old⟩
  · exact ⟨rfl, fun hactive => hactive⟩

theorem update_keyed {f : Rows → Rows} (hf : ∀ rows, (f rows).run.id = rows.run.id)
    (h : Unique Rows.id s.records) : Unique Rows.id (s.update id f).records := by
  apply h.map
  intro rows _
  show (if rows.run.id = id then f rows else rows).run.id = rows.run.id
  split_ifs
  · exact hf rows
  · rfl

theorem Waiting.update (h : Waiting s) (id : String) {f : Rows → Rows} (hf : Calm f) :
    Waiting (s.update id f) := by
  refine ⟨update_keyed hf.id h.keyed, ?_, ?_⟩
  · intro rows hrows other hother hactive hactive'
    obtain ⟨old, hold, hid, hwas⟩ := mem_update hf hrows
    obtain ⟨old', hold', hid', hwas'⟩ := mem_update hf hother
    rw [hid, hid']
    exact h.sole old hold old' hold' (hwas hactive) (hwas' hactive')
  · intro caller hcaller rows hrows
    obtain ⟨old, hold, hid, hwas⟩ := mem_update hf hrows
    rw [hid]
    refine (h.waiting caller hcaller old hold).imp_right (fun hinactive => ?_)
    rw [← Bool.not_eq_true] at hinactive ⊢
    exact fun hactive => hinactive (hwas hactive)

theorem Waiting.call (h : Waiting s) {caller : Caller}
    (hcaller : ∀ rows ∈ s.records, caller.apart rows.run.id ∨ rows.run.status.active = false) :
    Waiting { s with callers := s.callers ++ [caller] } := by
  refine ⟨h.keyed, h.sole, ?_⟩
  intro other hother
  rcases List.mem_append.mp hother with hold | hnew
  · exact h.waiting other hold
  · rw [List.mem_singleton.mp hnew]
    exact hcaller

theorem Waiting.checkCreate (h : Waiting s) (id : String) (datasets : List String) :
    Waiting (Activity.checkCreate s id datasets) := by
  unfold Activity.checkCreate
  split_ifs with hactive
  · exact h
  · apply h.call
    intro rows hrows
    right
    rw [← Bool.not_eq_true]
    exact fun hrun => hactive (List.any_eq_true.mpr ⟨rows, hrows, hrun⟩)

theorem resumable_inactive {status : RunStatus} (h : resumable status) : status.active = false := by
  cases status <;> first | rfl | exact absurd h (by decide)

theorem Waiting.readResume (h : Waiting s) (hserial : Serial s (.readResume id)) :
    Waiting (Activity.readResume s id) := by
  unfold Activity.readResume
  cases hfind : find Rows.id s.records id with
  | none => exact h
  | some rows =>
    dsimp only
    split_ifs with hmay
    · apply h.call
      intro other hother
      by_cases hid : other.run.id = id
      · right
        have hsame : other = rows :=
          h.keyed.eq hother (mem_of_find hfind) (hid.trans (find_key hfind).symm)
        rw [hsame]
        rcases (Bool.or_eq_true _ _).mp hmay with hresumable | hincomplete
        · exact resumable_inactive hresumable
        · rw [← Bool.not_eq_true]
          intro hactive
          have hnone := hserial rows hfind hactive
          rw [hincomplete] at hnone
          cases hnone
      · left
        show decide (id ≠ other.run.id) = true
        exact decide_eq_true (Ne.symm hid)
    · exact h

theorem Waiting.leave (h : Waiting s) (index : ℕ) :
    Waiting { s with callers := s.callers.eraseIdx index } :=
  ⟨h.keyed, h.sole, fun caller hcaller => h.waiting caller (List.mem_of_mem_eraseIdx hcaller)⟩

theorem Waiting.insertRun (h : Waiting s) {datasets : List String}
    (hactive : ∀ rows ∈ s.records, rows.run.status.active = false)
    (hcallers : (find Rows.id s.records id).isNone → ∀ other ∈ s.callers, other.apart id) :
    Waiting (Activity.insertRun s id datasets) := by
  unfold Activity.insertRun
  split_ifs with hfind
  · exact h
  · have hnone : find Rows.id s.records id = none := by simpa using hfind
    have happart := hcallers (by rw [hnone]; rfl)
    refine ⟨h.keyed.append_singleton hnone, ?_, ?_⟩
    · intro rows hrows other hother hrun hrun'
      have hnew : ∀ rows ∈ s.records ++ [newRows id datasets], rows.run.status.active →
          rows.run.id = id := by
        intro rows hrows hrun
        rcases List.mem_append.mp hrows with hold | hnew
        · rw [hactive rows hold] at hrun
          cases hrun
        · rw [List.mem_singleton.mp hnew]
          rfl
      exact (hnew rows hrows hrun).trans (hnew other hother hrun').symm
    · intro other hother rows hrows
      rcases List.mem_append.mp hrows with hold | hnew
      · exact .inr (hactive rows hold)
      · rw [List.mem_singleton.mp hnew]
        exact .inl (happart other hother)

theorem inactive_of_otherActive (h : otherActive s id = false) {rows : Rows}
    (hrows : rows ∈ s.records) (hactive : rows.run.status.active) : rows.run.id = id := by
  by_contra hid
  have hother : otherActive s id = true :=
    List.any_eq_true.mpr ⟨rows, hrows, decide_eq_true ⟨hid, hactive⟩⟩
  rw [h] at hother
  cases hother

theorem Waiting.writeResume (h : Waiting s) (context : ResumeContext) (seen : List Item)
    (hcallers : (!otherActive s id) → ∀ other ∈ s.callers, other.apart id) :
    Waiting (Activity.writeResume s id context seen) := by
  unfold Activity.writeResume
  split_ifs with hother
  · exact h
  · have hnone : otherActive s id = false := by simpa using hother
    have happart := hcallers (by rw [hnone]; rfl)
    -- Who is active now is the resumed run.
    have honly : ∀ rows ∈ (s.update id
        (fun rows => ⟨resumeRun rows.run, resumeItems context seen rows.items⟩)).records,
        rows.run.status.active → rows.run.id = id := by
      intro rows hrows hactive
      obtain ⟨old, hold, rfl⟩ := List.mem_map.mp hrows
      by_cases hid : old.run.id = id
      · rw [if_pos hid]
        exact hid
      · rw [if_neg hid] at hactive ⊢
        exact inactive_of_otherActive hnone hold hactive
    refine ⟨update_keyed (fun _ => rfl) h.keyed, ?_, ?_⟩
    · intro rows hrows other hother hactive hactive'
      exact (honly rows hrows hactive).trans (honly other hother hactive').symm
    · intro caller hcaller rows hrows
      by_cases hactive : rows.run.status.active
      · rw [honly rows hrows hactive]
        exact .inl (happart caller hcaller)
      · exact .inr (Bool.not_eq_true _ ▸ hactive)

theorem Waiting.proceed (h : Waiting s) {index : ℕ} {context : ResumeContext}
    (hserial : Serial s (.proceed index context)) : Waiting (s.next (.proceed index context)) := by
  unfold State.next
  dsimp only
  cases hcaller : s.callers[index]? with
  | none => exact h
  | some caller =>
    have hleft := h.leave index
    have hmem := List.mem_of_getElem? hcaller
    cases caller with
    | create id datasets =>
      apply hleft.insertRun
      · intro rows hrows
        exact (h.waiting _ hmem rows hrows).resolve_left Bool.false_ne_true
      · exact hserial _ hcaller
    | resume id seen => exact hleft.writeResume context seen (hserial _ hcaller)

theorem Waiting.next (h : Waiting s) {action : Action} (hserial : Serial s action) :
    Waiting (s.next action) := by
  cases action with
  | checkCreate id datasets => exact h.checkCreate id datasets
  | readResume id => exact h.readResume hserial
  | proceed index context => exact h.proceed hserial
  | start id taskId => exact h.update id (calm_startRun taskId)
  | terminate id taskId ending => exact h.update id (calm_close taskId ending)
  | bindTask id taskId => exact h.update id (calm_bindTask taskId)
  | queueStale id => exact h.update id calm_queueStale
  | requestCancelling id => exact h.update id calm_requestCancelling
  | confirmCancelled id => exact h.update id calm_confirmCancelled

/-- In a serial run one run is active at most, and no active one is reset. -/
theorem runs_sole (s : State) (hs : Quiet s) (actions : List Action)
    (haccepts : (activity.restrict Serial).Accepts s actions) : OneActive s actions := by
  have hstep : ∀ (t : State) action, Waiting t →
      (activity.restrict Serial).allowed t action → Waiting (t.next action) :=
    fun _ _ ht haction => ht.next haction.2
  have hwaiting : ∀ before after, actions = before ++ after →
      Waiting (activity.after s before) := by
    intro before after hactions
    rw [hactions] at haccepts
    exact Machine.invariant hstep before s hs.waiting
      ((Machine.accepts_append before s after).mp haccepts).1
  constructor
  · exact fun before after hactions => (hwaiting before after hactions).sole
  · intro before index context after hactions id seen hcaller _ rows hrows hid
    apply ((hwaiting before _ hactions).waiting _ (List.mem_of_getElem? hcaller) rows
      hrows).resolve_left
    show ¬ decide (id ≠ rows.run.id) = true
    simp [hid]

end Step

/-! ## Two creations at once -/

def noContext : ResumeContext := ⟨false, fun _ => false, 0⟩

def emptyState : State := ⟨[], []⟩

def resumedRun : List Action :=
  [.checkCreate "run-1" ["stock_basic"], .proceed 0 noContext, .start "run-1" none,
    .checkCreate "run-2" ["stock_basic"], .terminate "run-1" none .crashed, .readResume "run-1",
    .proceed 0 noContext]

theorem resumedRun_sole : OneActive emptyState resumedRun :=
  runs_sole emptyState
    ⟨by decide, fun rows hrows => absurd hrows List.not_mem_nil, rfl⟩ resumedRun
    (by decide +kernel)

/-- Both have looked before either one inserts. -/
def createdTwice : List Action :=
  [.checkCreate "run-1" ["stock_basic"], .checkCreate "run-2" ["stock_basic"],
    .proceed 0 noContext, .proceed 0 noContext]

theorem createdTwice_active : Quiet emptyState ∧ ¬ OneActive emptyState createdTwice := by
  refine ⟨⟨by decide, fun rows hrows => absurd hrows List.not_mem_nil, rfl⟩, fun h => ?_⟩
  have hsole := h.sole createdTwice [] (by simp)
  have hsame : "run-1" = "run-2" := hsole (newRows "run-1" ["stock_basic"]) (by
        show _ ∈ [newRows "run-1" ["stock_basic"], newRows "run-2" ["stock_basic"]]
        exact List.mem_cons_self)
      (newRows "run-2" ["stock_basic"]) (by
        show _ ∈ [newRows "run-1" ["stock_basic"], newRows "run-2" ["stock_basic"]]
        exact List.mem_cons_of_mem _ List.mem_cons_self)
      rfl rfl
  exact absurd hsame (by decide)

end Activity

end LocalPlatform.DataSync
