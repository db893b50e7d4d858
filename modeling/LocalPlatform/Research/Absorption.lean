import LocalPlatform.Research.Runs

/-!
# Terminal research runs

The reconciliation writes only a run that is queued or running.  The other writes look at no
status, so a run that was ended after the call had read it is ended again.

* `Absorbing` is the promise: a terminal status stays, a cancelled run ends neither `success` nor
  `failed`, and the items have the status of the run.
* `Guarded` is the condition on a write: the run is still active, or has the status that is written.
* `absorbing_iff`: a run of the system keeps the promise exactly if its writes are guarded.
-/

namespace LocalPlatform.Research

open Machines

/-! ## The promise and the condition -/

/-- The status in `research_runs`. -/
abbrev State.status (s : State) : RunStatus := s.rows.run.status

def Rows.Agree (rows : Rows) : Prop := ∀ item ∈ rows.items, item.status = rows.run.status

instance (rows : Rows) : Decidable rows.Agree :=
  inferInstanceAs (Decidable (∀ item ∈ rows.items, item.status = rows.run.status))

structure Absorbing (s : State) (actions : List Action) : Prop where
  absorbing : ∀ before between after, actions = before ++ between ++ after →
    (researchMachine.after s before).status.terminal →
      (researchMachine.after s (before ++ between)).status =
        (researchMachine.after s before).status
  /-- Only the block of `cancel_run` sets the flag. -/
  cancelled : ∀ before after, actions = before ++ after →
    (researchMachine.after s before).rows.run.cancelRequested →
      (researchMachine.after s before).status ≠ .success ∧
        (researchMachine.after s before).status ≠ .failed
  agree : ∀ before after, actions = before ++ after → (researchMachine.after s before).rows.Agree

/-- The status that the next block of a call writes. -/
def Place.writes : Place → Option RunStatus
  | .starting => some .running
  | .succeeding result => result.dataFingerprint.map (fun _ => .success)
  | .closing status _ => some status
  | .cancelling => some .cancelled
  | _ => none

/-- A block may write: the run is active, or has the status that is written. -/
def Writable (status : RunStatus) (place : Place) : Prop :=
  ∀ written ∈ place.writes, status.active ∨ status = written

instance (status : RunStatus) (place : Place) : Decidable (Writable status place) :=
  inferInstanceAs (Decidable (∀ written ∈ place.writes, status.active ∨ status = written))

/-- A call writes only a run that is active, or has the status that is written. -/
def Guarded (s : State) : Action → Prop
  | .step index input =>
    ∀ place ∈ s.calls[index]?, input.raised = none → Writable s.status place
  | _ => True

instance (s : State) (action : Action) : Decidable (Guarded s action) :=
  match action with
  | .step index input => inferInstanceAs
      (Decidable (∀ place ∈ s.calls[index]?, input.raised = none → Writable s.status place))
  | .deliver => .isTrue trivial
  | .cancel => .isTrue trivial
  | .reconcile _ _ _ => .isTrue trivial

/-- What `create_run` leaves, and what holds whenever no block is under way. -/
structure Settled (rows : Rows) : Prop where
  agree : rows.Agree
  requested : rows.run.cancelRequested → rows.run.status = .cancelled

/-! ## Blocks -/

section Blocks

variable {rows : Rows}

theorem terminal_iff (status : RunStatus) : status.terminal ↔ status.active = false := by
  cases status <;> decide

theorem agree_start (now : ℕ) : (rows.start now).Agree := by
  intro item hitem
  obtain ⟨old, -, rfl⟩ := List.mem_map.mp hitem
  rfl

theorem agree_succeed (now : ℕ) (result : Analysis) (fingerprint : String) :
    (rows.succeed now result fingerprint).Agree := by
  intro item hitem
  obtain ⟨old, -, rfl⟩ := List.mem_map.mp hitem
  rfl

theorem agree_close (now : ℕ) (status : RunStatus) (error : Option String) :
    (rows.close now status error).Agree := by
  intro item hitem
  obtain ⟨old, -, rfl⟩ := List.mem_map.mp hitem
  rfl

theorem agree_cancel (h : rows.Agree) (now : ℕ)
    (hstatus : rows.run.status.active ∨ rows.run.status = .cancelled) :
    (rows.cancel now).Agree := by
  intro item hitem
  obtain ⟨old, hold, rfl⟩ := List.mem_map.mp hitem
  show (if old.status.active then { old with status := RunStatus.cancelled
                                             finishedAt := some now } else old).status = .cancelled
  split_ifs with hactive
  · rfl
  · rw [h old hold] at hactive ⊢
    exact hstatus.resolve_left hactive

theorem reconcile_cases (h : rows.Agree) (now cutoff : ℕ) (taskStatus : Option String) :
    rows.reconcile now cutoff taskStatus = rows ∨
      (rows.run.status.active ∧ (rows.reconcile now cutoff taskStatus).Agree ∧
        (rows.reconcile now cutoff taskStatus).run.cancelRequested = rows.run.cancelRequested) := by
  unfold Rows.reconcile
  split_ifs with hstale
  · cases recovery (rows.run.taskId.bind (fun _ => taskStatus)) with
    | none => exact .inl rfl
    | some written =>
      refine .inr ⟨hstale.1, ?_, rfl⟩
      intro item hitem
      obtain ⟨old, hold, rfl⟩ := List.mem_map.mp hitem
      have hactive : old.status.active = true := by
        rw [h old hold]
        exact hstale.1
      simp [hactive]
  · exact .inl rfl

end Blocks

/-! ## One step -/

section Step

variable {rows : Rows}

theorem step_cases (rows : Rows) (input : Input) (place : Place) :
    (place.step rows input).1 = rows ∨
      (input.raised = none ∧ ∃ status ∈ place.writes, (place.step rows input).1.run.status = status ∧
        ((place.step rows input).1.Agree ∧
            (place.step rows input).1.run.cancelRequested = rows.run.cancelRequested ∨
          status = .cancelled ∧ (place.step rows input).1 = rows.cancel input.now)) := by
  unfold Place.step
  cases hraised : input.raised with
  | some message => exact .inl rfl
  | none =>
    dsimp only
    cases place with
    | reading => exact .inl rfl
    | analysing => exact .inl rfl
    | checking result => exact .inl rfl
    | judging message => exact .inl rfl
    | readingCancel => exact .inl rfl
    | finished => exact .inl rfl
    | starting => exact .inr ⟨rfl, .running, rfl, rfl, .inl ⟨agree_start input.now, rfl⟩⟩
    | succeeding result =>
      dsimp only
      cases hfingerprint : result.dataFingerprint with
      | none => exact .inl rfl
      | some fingerprint =>
        have hwrites : RunStatus.success ∈ (Place.succeeding result).writes := by
          simp [Place.writes, hfingerprint]
        exact .inr ⟨rfl, .success, hwrites, rfl,
          .inl ⟨agree_succeed input.now result fingerprint, rfl⟩⟩
    | closing status error =>
      exact .inr ⟨rfl, status, rfl, rfl, .inl ⟨agree_close input.now status error, rfl⟩⟩
    | cancelling => exact .inr ⟨rfl, .cancelled, rfl, rfl, .inr ⟨rfl, rfl⟩⟩

/-- The status after an action that keeps the rows settled. -/
structure Kept (rows next : Rows) : Prop where
  settled : Settled next
  absorbing : rows.run.status.terminal → next.run.status = rows.run.status

theorem Settled.kept (h : Settled rows) : Kept rows rows := ⟨h, fun _ => rfl⟩

theorem Settled.kept_of_writable (h : Settled rows) {next : Rows}
    (hstatus : rows.run.status.active ∨ rows.run.status = next.run.status) (hagree : next.Agree)
    (hrequested : next.run.cancelRequested →
      rows.run.cancelRequested ∨ next.run.status = .cancelled) : Kept rows next := by
  refine ⟨⟨hagree, fun hnext => ?_⟩, fun hterminal => ?_⟩
  · cases hrequested hnext with
    | inl hold =>
      have hcancelled := h.requested hold
      rw [hcancelled] at hstatus
      exact (hstatus.resolve_left (by decide)).symm
    | inr hcancelled => exact hcancelled
  · rw [terminal_iff] at hterminal
    exact (hstatus.resolve_left (by simp [hterminal])).symm

theorem Settled.step (h : Settled rows) {input : Input} {place : Place}
    (hguarded : input.raised = none → Writable rows.run.status place) :
    Kept rows (place.step rows input).1 := by
  cases step_cases rows input place with
  | inl hsame =>
    rw [hsame]
    exact h.kept
  | inr hwrite =>
    obtain ⟨hraised, status, hwrites, hstatus, hnext⟩ := hwrite
    have hwritable := hguarded hraised status hwrites
    rw [← hstatus] at hwritable
    refine h.kept_of_writable hwritable ?_ ?_
    · cases hnext with
      | inl hagree => exact hagree.1
      | inr hcancel =>
        rw [hstatus, hcancel.1] at hwritable
        rw [hcancel.2]
        exact agree_cancel h.agree input.now hwritable
    · intro hrequested
      cases hnext with
      | inl hagree => exact .inl (hagree.2 ▸ hrequested)
      | inr hcancel => exact .inr (hstatus.trans hcancel.1)

theorem Settled.reconcile (h : Settled rows) (now cutoff : ℕ) (taskStatus : Option String) :
    Kept rows (rows.reconcile now cutoff taskStatus) := by
  cases reconcile_cases h.agree now cutoff taskStatus with
  | inl hsame =>
    rw [hsame]
    exact h.kept
  | inr hended =>
    obtain ⟨hactive, hagree, hrequested⟩ := hended
    exact h.kept_of_writable (.inl hactive) hagree (fun hnext => .inl (hrequested ▸ hnext))

theorem next_step {s : State} {index : ℕ} {place : Place} (h : s.calls[index]? = some place)
    (input : Input) : (s.next (.step index input)).rows = (place.step s.rows input).1 := by
  unfold State.next
  simp only [h]

theorem Settled.next {s : State} (h : Settled s.rows) {action : Action} (hguarded : Guarded s action) :
    Kept s.rows (s.next action).rows := by
  cases action with
  | deliver => exact h.kept
  | cancel => exact h.kept
  | reconcile now cutoff taskStatus => exact h.reconcile now cutoff taskStatus
  | step index input =>
    cases hplace : s.calls[index]? with
    | none =>
      unfold State.next
      simp only [hplace]
      exact h.kept
    | some place =>
      rw [next_step hplace]
      exact h.step (hguarded place hplace)

end Step

/-! ## Every run -/

section Runs

variable {s : State} {actions : List Action}

theorem Settled.run (h : Settled s.rows)
    (haccepts : (researchMachine.restrict Guarded).Accepts s actions) :
    Kept s.rows (researchMachine.after s actions).rows := by
  induction actions generalizing s with
  | nil => exact h.kept
  | cons action actions ih =>
    have hstep := h.next haccepts.1.2
    have hrest := ih hstep.settled haccepts.2
    refine ⟨hrest.settled, fun hterminal => ?_⟩
    have hsame := hstep.absorbing hterminal
    exact (hrest.absorbing (hsame ▸ hterminal)).trans hsame

theorem guarded_of_absorbing {action : Action}
    (h : s.status.terminal → (s.next action).status = s.status) : Guarded s action := by
  cases action with
  | deliver => trivial
  | cancel => trivial
  | reconcile now cutoff taskStatus => trivial
  | step index input =>
    intro place hplace hraised status hwrites
    by_contra hnot
    obtain ⟨hactive, hne⟩ := not_or.mp hnot
    have hsame := h ((terminal_iff _).mpr (by simpa using hactive))
    unfold State.status at hsame
    rw [next_step (Option.mem_def.mp hplace)] at hsame
    unfold Place.step at hsame
    rw [hraised] at hsame
    cases place with
    | starting => exact hne (Option.some.inj hwrites ▸ hsame.symm)
    | closing written error => exact hne (Option.some.inj hwrites ▸ hsame.symm)
    | cancelling => exact hne (Option.some.inj hwrites ▸ hsame.symm)
    | succeeding result =>
      obtain ⟨fingerprint, hfingerprint, hwritten⟩ := Option.map_eq_some_iff.mp hwrites
      dsimp only at hsame
      rw [hfingerprint] at hsame
      exact hne (hwritten ▸ hsame.symm)
    | reading => cases hwrites
    | analysing => cases hwrites
    | checking result => cases hwrites
    | judging message => cases hwrites
    | readingCancel => cases hwrites
    | finished => cases hwrites

/-- Every run of the system keeps the promise exactly if its writes are guarded. -/
theorem absorbing_iff (s : State) (actions : List Action) (h : Settled s.rows) :
    Absorbing s actions ↔ (researchMachine.restrict Guarded).Accepts s actions := by
  constructor
  · intro hpromise
    rw [Machine.accepts_iff]
    intro before action after hsplit
    refine ⟨trivial, guarded_of_absorbing (fun hterminal => ?_)⟩
    have hstep := hpromise.absorbing before [action] after (by simp [hsplit]) hterminal
    rw [Machine.after_append] at hstep
    exact hstep
  · intro haccepts
    have hparts : ∀ before after, actions = before ++ after →
        (researchMachine.restrict Guarded).Accepts s before ∧
          (researchMachine.restrict Guarded).Accepts (researchMachine.after s before) after := by
      intro before after hsplit
      rw [hsplit] at haccepts
      exact (Machine.accepts_append before s after).mp haccepts
    refine ⟨?_, ?_, ?_⟩
    · intro before between after hsplit hterminal
      have hbefore := hparts before (between ++ after) (by simp [hsplit])
      have hsettled := (h.run hbefore.1).settled
      have hbetween := ((Machine.accepts_append between _ after).mp hbefore.2).1
      rw [Machine.after_append]
      exact (hsettled.run hbetween).absorbing hterminal
    · intro before after hsplit hrequested
      have hsettled := (h.run (hparts before after hsplit).1).settled
      have hcancelled := hsettled.requested hrequested
      unfold State.status
      rw [hcancelled]
      exact ⟨by decide, by decide⟩
    · intro before after hsplit
      exact (h.run (hparts before after hsplit).1).settled.agree

/-! ## A cancelled run that succeeds -/

def queuedItem : RunItem := ⟨.queued, none, none, none, none⟩

/-- What `create_run` inserts. -/
def createdRows : Rows where
  run := ⟨true, .queued, false, none, none, none, none, none, none, 1, none, none, none⟩
  items := [queuedItem]

/-- A step at a time, of an analysis that returns. -/
def returning (index now : ℕ) : Action :=
  .step index ⟨now, .ok ⟨"r", "s", some "f"⟩, none⟩

/-- An execution up to the question whether it was cancelled. -/
def executionActions : List Action :=
  [.deliver, returning 0 2, returning 0 3, returning 0 4, returning 0 5]

/-- The run is cancelled before the result is written. -/
def lateCancelActions : List Action :=
  executionActions ++ [.cancel, returning 1 6, returning 1 7, returning 0 8]

/-- The cancelled run ends `success`. -/
theorem lateCancel_succeeds : Settled createdRows ∧
    (researchMachine.after ⟨createdRows, []⟩ (lateCancelActions.take 8)).status = .cancelled ∧
    (researchMachine.after ⟨createdRows, []⟩ lateCancelActions).rows.run.cancelRequested = true ∧
    (researchMachine.after ⟨createdRows, []⟩ lateCancelActions).status = .success ∧
    ¬ Absorbing ⟨createdRows, []⟩ lateCancelActions := by
  refine ⟨⟨by decide, by decide⟩, by decide, by decide, by decide, fun h => ?_⟩
  exact (h.cancelled lateCancelActions [] (by simp) (by decide)).1 (by decide)

/-- A cancellation that the execution sees is written twice. -/
theorem absorbing_iff_sample : Settled createdRows ∧
    (Absorbing ⟨createdRows, []⟩
        (executionActions.take 4 ++ [.cancel, returning 1 5, returning 1 6, returning 0 7,
          returning 0 8]) ↔
      (researchMachine.restrict Guarded).Accepts ⟨createdRows, []⟩
        (executionActions.take 4 ++ [.cancel, returning 1 5, returning 1 6, returning 0 7,
          returning 0 8])) ∧
    (researchMachine.restrict Guarded).Accepts ⟨createdRows, []⟩
      (executionActions.take 4 ++ [.cancel, returning 1 5, returning 1 6, returning 0 7,
        returning 0 8]) :=
  ⟨⟨by decide, by decide⟩, absorbing_iff _ _ ⟨by decide, by decide⟩, by decide⟩

end Runs

end LocalPlatform.Research
