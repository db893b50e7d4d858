import LocalPlatform.Accounts.CycleFinalization

/-!
# Progress and failures of a deployment

A deployment counts its failures in a row and remembers the last trading date
that succeeded.  `fail_cycle` and `finalize_cycle` update it after they asked
`transition_cycle` for a move, and `transition_cycle` returns the row of a cycle
whose status it did not expect.

* `progressMachine` runs calls one after the other.  A call may stop after any
  of its commits.
* `FollowsOutcomes` compares the deployments before and after a call with the
  cycles that the call moved.  `FindsOpen` is the condition under which every
  call of a run satisfies it.
-/

namespace LocalPlatform.Accounts

open Paper Transaction Transaction.TxM Machines

/-! ## Calls -/

/-- A call on the cycles of a deployment. -/
inductive ProgressCall where
  | transition (cycleId : String) (toStatus : CycleStatus) (eventType : String)
      (expected : List CycleStatus) (fields : CycleFields)
  | fail (cycleId failureCode detail : String)
  | finalize (calendar : TradeCalendar) (market : MarketData) (cycleId : String)
  | runNow (calendar : TradeCalendar) (deploymentId : String) (tradingDate : Option String)
      (cycleId : String)

/-- The program of a call. -/
def ProgressCall.run : ProgressCall → TxM DeploymentDb AccountError ExecutionCycle
  | .transition cycleId toStatus eventType expected fields =>
    onCycles (transitionCycle cycleId toStatus eventType expected fields)
  | .fail cycleId failureCode detail => failDeploymentCycle cycleId failureCode detail
  | .finalize calendar market cycleId => finalizeCycle calendar market cycleId
  | .runNow calendar deploymentId tradingDate cycleId =>
    Accounts.runNow calendar deploymentId tradingDate cycleId

/-- A call that goes through, or that stops after so many commits. -/
structure ProgressAction where
  call : ProgressCall
  stop : Option Nat := none

def ProgressAction.leaves (action : ProgressAction) (db : DeploymentDb) : DeploymentDb :=
  match action.stop with
  | none => (action.call.run db).state
  | some n => (crashStates action.call.run db)[n]?.getD (action.call.run db).state

abbrev progressMachine : Machine DeploymentDb ProgressAction where
  allowed := fun _ _ => True
  next := fun db action => action.leaves db

theorem ProgressAction.leaves_run (action : ProgressAction) (db : DeploymentDb) :
    Leaves action.call.run db (action.leaves db) := by
  unfold ProgressAction.leaves
  cases action.stop with
  | none => exact Or.inr rfl
  | some n =>
    simp only
    cases hn : (crashStates action.call.run db)[n]? with
    | none => exact Or.inr rfl
    | some t => exact Or.inl (List.mem_of_getElem? hn)

/-! ## Outcomes -/

/-- A cycle of a deployment moved to a status. -/
structure Moved (before after : DeploymentDb) (deploymentId : String) (status : CycleStatus)
    (cycle : ExecutionCycle) : Prop where
  found : after.cycles.find cycle.id = some cycle
  owner : cycle.deploymentId = deploymentId
  arrived : cycle.status = status
  left : before.cycles.status cycle.id ≠ some status

/-- A deployment that changed because of its cycles: the last successful date
and the reset of the failures come with a cycle that moved to `succeeded`, one
failure more and the status `error` come with one that moved to `failed`. -/
structure FollowsOutcomes (before after : DeploymentDb) : Prop where
  success : ∀ id old new, before.deployments id = some old → after.deployments id = some new →
    new.lastSuccessfulTradingDate ≠ old.lastSuccessfulTradingDate ∨
        new.consecutiveFailures < old.consecutiveFailures →
      ∃ cycle, Moved before after id .succeeded cycle ∧
        new.lastSuccessfulTradingDate = some cycle.tradingDate ∧ new.consecutiveFailures = 0
  failure : ∀ id old new, before.deployments id = some old → after.deployments id = some new →
    old.consecutiveFailures < new.consecutiveFailures ∨ new.status ≠ old.status →
      ∃ cycle, Moved before after id .failed cycle ∧
        new.consecutiveFailures = old.consecutiveFailures + 1

/-- A failure finds its cycle open, and a finalization finds its cycle open or
succeeded.  A cycle that is scheduled or waits for data is not open to a
finalization. -/
def FindsOpen (db : DeploymentDb) (action : ProgressAction) : Prop :=
  match action.call with
  | .fail cycleId _ _ => ∀ status ∈ db.cycles.status cycleId, status ∈ openCycleStates
  | .finalize _ _ cycleId => ∀ status ∈ db.cycles.status cycleId,
      status ∈ ([.queued, .running, .finalizing, .succeeded] : List CycleStatus)
  | _ => True

variable {before after : DeploymentDb}

theorem FollowsOutcomes.of_same (h : after.deployments = before.deployments) :
    FollowsOutcomes before after := by
  constructor
  · intro id old new hold hnew hchanged
    rw [h, hold, Option.some.injEq] at hnew
    subst hnew
    rcases hchanged with hchanged | hchanged
    · exact absurd rfl hchanged
    · omega
  · intro id old new hold hnew hchanged
    rw [h, hold, Option.some.injEq] at hnew
    subst hnew
    rcases hchanged with hchanged | hchanged
    · omega
    · exact absurd rfl hchanged

theorem updated_cases {deploymentId : String} {f : Deployment → Deployment}
    (h : after.deployments = Function.update before.deployments deploymentId
      ((before.deployments deploymentId).map f)) {id : String} {old new : Deployment}
    (hold : before.deployments id = some old) (hnew : after.deployments id = some new) :
    new = old ∨ (id = deploymentId ∧ new = f old) := by
  rw [h] at hnew
  by_cases hid : id = deploymentId
  · subst hid
    rw [Function.update_self, hold, Option.map_some] at hnew
    exact Or.inr ⟨rfl, (Option.some.inj hnew).symm⟩
  · rw [Function.update_of_ne hid, hold] at hnew
    exact Or.inl (Option.some.inj hnew).symm

variable {cycle : ExecutionCycle}

theorem FollowsOutcomes.of_failed (hmoved : Moved before after cycle.deploymentId .failed cycle)
    (h : after.deployments = Function.update before.deployments cycle.deploymentId
      ((before.deployments cycle.deploymentId).map Deployment.failed)) :
    FollowsOutcomes before after := by
  constructor
  · intro id old new hold hnew hchanged
    rcases updated_cases h hold hnew with rfl | ⟨-, rfl⟩
    · rcases hchanged with hchanged | hchanged
      · exact absurd rfl hchanged
      · omega
    · rcases hchanged with hchanged | hchanged
      · exact absurd rfl hchanged
      · simp only [Deployment.failed] at hchanged
        omega
  · intro id old new hold hnew hchanged
    rcases updated_cases h hold hnew with rfl | ⟨rfl, rfl⟩
    · rcases hchanged with hchanged | hchanged
      · omega
      · exact absurd rfl hchanged
    · exact ⟨cycle, hmoved, rfl⟩

theorem FollowsOutcomes.of_advanced (calendar : TradeCalendar)
    (hmoved : Moved before after cycle.deploymentId .succeeded cycle)
    (h : after.deployments = Function.update before.deployments cycle.deploymentId
      ((before.deployments cycle.deploymentId).map
        (Deployment.advanced calendar cycle.tradingDate))) :
    FollowsOutcomes before after := by
  constructor
  · intro id old new hold hnew hchanged
    rcases updated_cases h hold hnew with rfl | ⟨rfl, rfl⟩
    · rcases hchanged with hchanged | hchanged
      · exact absurd rfl hchanged
      · omega
    · exact ⟨cycle, hmoved, rfl, rfl⟩
  · intro id old new hold hnew hchanged
    rcases updated_cases h hold hnew with rfl | ⟨-, rfl⟩
    · rcases hchanged with hchanged | hchanged
      · omega
      · exact absurd rfl hchanged
    · rcases hchanged with hchanged | hchanged
      · simp only [Deployment.advanced] at hchanged
        omega
      · exact absurd rfl hchanged

/-! ## Frames -/

/-- A program that leaves the deployments alone. -/
def KeepsDeployments (before after : DeploymentDb) : Prop :=
  after.deployments = before.deployments

theorem composes_keeps : Composes KeepsDeployments
    (fun {α} (m : TxM DeploymentDb AccountError α) => Within KeepsDeployments m) :=
  composes_within (fun _ => rfl) (fun _ _ _ h h' => h'.trans h)

theorem within_onCycles {α : Type} (f : CycleDb → Except AccountError (α × CycleDb)) :
    Within KeepsDeployments (onCycles f) := by
  intro db
  exact wp_zoom (wp_tx (fun _ _ _ => ⟨rfl, rfl⟩) (fun _ _ => rfl))

theorem within_runNow (calendar : TradeCalendar) (deploymentId : String)
    (tradingDate : Option String) (cycleId : String) :
    Within KeepsDeployments (runNow calendar deploymentId tradingDate cycleId) := by
  unfold runNow
  refine composes_keeps.bind (composes_keeps.read _) (fun deployment => ?_)
  refine composes_keeps.bind (composes_keeps.read _) (fun account => ?_)
  split_ifs
  · exact composes_keeps.fail _
  · exact composes_keeps.fail _
  · refine composes_keeps.bind (composes_keeps.read _) (fun date => ?_)
    have hensure : Within KeepsDeployments
        (ensureDeploymentCycle deploymentId date false cycleId) := by
      unfold ensureDeploymentCycle
      refine composes_keeps.bind (composes_keeps.read _) (fun deployment => ?_)
      refine composes_keeps.bind (composes_keeps.read _) (fun account => ?_)
      exact composes_keeps.bind (composes_keeps.read _) (fun _ => within_onCycles _)
    refine composes_keeps.bind hensure (fun cycle => ?_)
    split_ifs
    · exact composes_keeps.pure _
    · exact within_onCycles _
    · exact within_onCycles _

/-! ## `fail_cycle` -/

variable {cycleId : String}

theorem transitionCycle_row {toStatus : CycleStatus} {eventType : String}
    {expected : List CycleStatus} {fields : CycleFields} {db db' : CycleDb}
    {current : ExecutionCycle} (hfind : db.find cycleId = some current)
    (h : transitionCycle cycleId toStatus eventType expected fields db = .ok (cycle, db')) :
    db'.find cycle.id = some cycle ∧ cycle.identity = current.identity ∧
      (current.status ∈ expected → cycle.status = toStatus) := by
  have hid := CycleDb.find_id hfind
  unfold transitionCycle at h
  simp only [hfind] at h
  split_ifs at h with hexpected hsame
  · obtain ⟨rfl, rfl⟩ := ok_inj h
    rw [hid]
    exact ⟨hfind, rfl, fun _ => hsame⟩
  · obtain ⟨rfl, rfl⟩ := ok_inj h
    refine ⟨?_, rfl, fun _ => rfl⟩
    have hsome : (db.find (current.moved toStatus fields).id).isSome := by
      show (db.find current.id).isSome
      rw [hid, hfind]
      rfl
    show (db.put (current.moved toStatus fields)).find _ = _
    rw [CycleDb.find_put _ hsome, if_pos rfl]
  · obtain ⟨rfl, rfl⟩ := ok_inj h
    rw [hid]
    exact ⟨hfind, rfl, fun hmem => absurd hmem hexpected⟩

variable {db : DeploymentDb}

theorem failDeploymentCycle_follows
    (hopen : ∀ status ∈ db.cycles.status cycleId, status ∈ openCycleStates)
    (failureCode detail : String) :
    wp (FollowsOutcomes db) (failDeploymentCycle cycleId failureCode detail)
      (fun _ t => FollowsOutcomes db t) db := by
  have hsame : FollowsOutcomes db db := .of_same rfl
  unfold failDeploymentCycle
  refine wp_bind (wp_zoom (wp_tx ?_ (fun _ _ => hsame)))
  intro cycle cycles hrun
  refine ⟨.of_same rfl, ?_⟩
  cases hfind : db.cycles.find cycleId with
  | none =>
    unfold failCycle transitionCycle at hrun
    rw [hfind] at hrun
    cases hrun
  | some current =>
    obtain ⟨hfound, hidentity, hmoves⟩ := transitionCycle_row hfind hrun
    have hid : cycle.id = cycleId := by
      rw [(identity_columns hidentity).1, CycleDb.find_id hfind]
    have hstatus : db.cycles.status cycleId = some current.status := by
      rw [CycleDb.status, hfind, Option.map_some]
    have hcurrent : current.status ∈ openCycleStates := hopen _ hstatus
    refine wp_bind (wp_tx ?_ ?_)
    · intro a t ht
      obtain ⟨-, rfl⟩ := ok_inj ht
      have hmoved : Moved db (recordFailure cycle cycleId failureCode detail
          { db with cycles := cycles }) cycle.deploymentId .failed cycle := by
        refine ⟨hfound, rfl, hmoves hcurrent, ?_⟩
        rw [hid, hstatus]
        intro hfailed
        rw [Option.some.inj hfailed] at hcurrent
        revert hcurrent
        decide
      have hfollows := FollowsOutcomes.of_failed hmoved rfl
      exact ⟨hfollows, wp_pure hfollows⟩
    · intro e he
      cases he

/-! ## `finalize_cycle` -/

/-- The cycles and the deployments stayed as they were. -/
def KeepsProgress (before after : DeploymentDb) : Prop :=
  after.cycles = before.cycles ∧ after.deployments = before.deployments

theorem writeDailyReport_keeps {benchmarkSymbol : String} {projection : AccountProjection}
    {db' : DeploymentDb} {report : Nat × Digest AccountReport}
    (h : writeDailyReport cycleId benchmarkSymbol projection db = .ok (report, db')) :
    KeepsProgress db db' := by
  unfold writeDailyReport at h
  split at h
  · cases h
  · simp only at h
    split_ifs at h
    split at h
    · rw [← (ok_inj h).2]
      exact ⟨rfl, rfl⟩
    · rw [← (ok_inj h).2]
      exact ⟨rfl, rfl⟩

theorem onAccounts_keeps {α : Type} (m : TxM AccountDb AccountError α) (db : DeploymentDb) :
    wp (KeepsProgress db) (onAccounts m) (fun _ t => KeepsProgress db t) db := by
  refine wp_zoom ⟨?_, ⟨rfl, rfl⟩⟩
  intro t _
  exact ⟨rfl, rfl⟩

theorem closeCycle_follows {start : DeploymentDb}
    (hdeployments : db.deployments = start.deployments)
    (hfound : db.cycles.find cycle.id = some cycle) (hfinalizing : cycle.status = .finalizing)
    (hstart : start.cycles.status cycle.id ≠ some .succeeded) (calendar : TradeCalendar)
    (market : MarketData) (benchmarkSymbol : String) (paperRunId : RunId) (evidence : CycleEvidence) :
    wp (FollowsOutcomes start)
      (closeCycle calendar market cycle benchmarkSymbol paperRunId evidence)
      (fun _ t => FollowsOutcomes start t) db := by
  have hkeeps : ∀ t, KeepsProgress db t → FollowsOutcomes start t :=
    fun t ht => .of_same (ht.2.trans hdeployments)
  unfold closeCycle
  refine wp_bind (wp_mono (onAccounts_keeps _ db) hkeeps ?_)
  rintro (e | rebuild) t ht
  · exact hkeeps t ht
  refine wp_bind (wp_tx ?_ (fun _ _ => hkeeps t ht))
  intro report u hu
  have hreport := writeDailyReport_keeps hu
  have hku : KeepsProgress db u := ⟨hreport.1.trans ht.1, hreport.2.trans ht.2⟩
  refine ⟨hkeeps u hku, wp_bind (wp_zoom (wp_tx ?_ (fun _ _ => hkeeps u hku)))⟩
  intro row cycles hrun
  have hsucceeded : FollowsOutcomes start { u with cycles := cycles } :=
    .of_same (hku.2.trans hdeployments)
  refine ⟨hsucceeded, wp_bind (wp_tx ?_ ?_)⟩
  · intro a v hv
    obtain ⟨-, rfl⟩ := ok_inj hv
    have hfind : u.cycles.find cycle.id = some cycle := by
      rw [hku.1]
      exact hfound
    obtain ⟨hrow, hidentity, hmoves⟩ := transitionCycle_row hfind hrun
    obtain ⟨hid, -, hdeployment, hdate, -⟩ := identity_columns hidentity
    have hmem : cycle.status ∈ ([.finalizing] : List CycleStatus) := by
      rw [hfinalizing]
      exact List.mem_singleton_self _
    have hmoved : Moved start (recordProgress calendar cycle evidence
        { u with cycles := cycles }) row.deploymentId .succeeded row := by
      refine ⟨hrow, rfl, hmoves hmem, ?_⟩
      rw [hid]
      exact hstart
    have hupdated : (recordProgress calendar cycle evidence
        { u with cycles := cycles }).deployments =
          Function.update start.deployments row.deploymentId
            ((start.deployments row.deploymentId).map
              (Deployment.advanced calendar row.tradingDate)) := by
      rw [hdeployment, hdate, ← hku.2.trans hdeployments]
      rfl
    have hfollows := FollowsOutcomes.of_advanced calendar hmoved hupdated
    exact ⟨hfollows, wp_pure hfollows⟩
  · intro e he
    cases he

/-- A finalization that finds its cycle open moves it before the deployment
advances. -/
theorem finalizeCycle_follows (hopen : ∀ status ∈ db.cycles.status cycleId,
      status ∈ ([.queued, .running, .finalizing, .succeeded] : List CycleStatus))
    (calendar : TradeCalendar) (market : MarketData) :
    wp (FollowsOutcomes db) (finalizeCycle calendar market cycleId)
      (fun _ t => FollowsOutcomes db t) db := by
  have hsame : FollowsOutcomes db db := .of_same rfl
  unfold finalizeCycle
  refine wp_bind (wp_read ?_)
  cases hfind : db.cycles.find cycleId with
  | none =>
    simp only [getCycle, hfind]
    exact hsame
  | some current =>
    simp only [getCycle, hfind]
    have hstatus : db.cycles.status cycleId = some current.status := by
      rw [CycleDb.status, hfind, Option.map_some]
    by_cases hsucceeded : current.status = .succeeded
    · simp only [if_pos hsucceeded]
      exact wp_pure hsame
    · simp only [if_neg hsucceeded]
      refine wp_bind (wp_zoom (wp_tx ?_ (fun _ _ => hsame)))
      intro cycle cycles hrun
      obtain ⟨hfound, hidentity, hmoves⟩ := transitionCycle_row hfind hrun
      have hid : cycle.id = cycleId := by
        rw [(identity_columns hidentity).1, CycleDb.find_id hfind]
      have hfinalizing : cycle.status = .finalizing := by
        by_cases hexpected : current.status ∈ ([.running, .queued] : List CycleStatus)
        · exact hmoves hexpected
        · -- Of the open statuses only `finalizing` is left, and it stays.
          have hcurrent : current.status = .finalizing := by
            have hmem := hopen _ hstatus
            revert hmem hexpected hsucceeded
            cases current.status <;> decide
          unfold beginFinalization transitionCycle at hrun
          simp only [hfind, if_pos hexpected] at hrun
          rw [← (ok_inj hrun).1]
          exact hcurrent
      have hstart : db.cycles.status cycle.id ≠ some .succeeded := by
        rw [hid, hstatus]
        exact fun h => hsucceeded (Option.some.inj h)
      have hbegun : FollowsOutcomes db { db with cycles := cycles } := .of_same rfl
      refine ⟨hbegun, ?_⟩
      unfold finalizeRun
      refine wp_bind (wp_read ?_)
      split
      · refine wp_bind (wp_read ?_)
        split
        · refine wp_bind (wp_read ?_)
          split
          · refine wp_bind (wp_tx ?_ (fun _ _ => hbegun))
            intro evidence t ht
            have hrecorded : t.cycles = cycles ∧ t.deployments = db.deployments := by
              unfold recordSignals at ht
              simp only at ht
              split_ifs at ht
              split at ht
              · cases ht
              · rw [← (ok_inj ht).2]
                exact ⟨rfl, rfl⟩
            refine ⟨.of_same hrecorded.2, ?_⟩
            refine closeCycle_follows hrecorded.2 ?_ hfinalizing hstart calendar market _ _ _
            rw [hrecorded.1]
            exact hfound
          · exact hbegun
        · exact hbegun
      · exact hbegun

/-! ## Runs -/

theorem ProgressAction.follows (action : ProgressAction) (hopen : FindsOpen db action) :
    FollowsOutcomes db (action.leaves db) := by
  have hsame : FollowsOutcomes db db := .of_same rfl
  have hkeeps : ∀ m : TxM DeploymentDb AccountError ExecutionCycle,
      Within KeepsDeployments m →
        wp (FollowsOutcomes db) m (fun _ t => FollowsOutcomes db t) db :=
    fun m hm => wp_mono (hm db) (fun _ ht => .of_same ht) (fun _ _ ht => .of_same ht)
  refine Leaves.of_wp (action.leaves_run db) hsame ?_
  cases hcall : action.call with
  | transition cycleId toStatus eventType expected fields =>
    exact hkeeps _ (within_onCycles _)
  | fail cycleId failureCode detail =>
    rw [FindsOpen, hcall] at hopen
    exact failDeploymentCycle_follows hopen failureCode detail
  | finalize calendar market cycleId =>
    rw [FindsOpen, hcall] at hopen
    exact finalizeCycle_follows hopen calendar market
  | runNow calendar deploymentId tradingDate cycleId =>
    exact hkeeps _ (within_runNow calendar deploymentId tradingDate cycleId)

/-- In every run whose calls find their cycles open, every call changes the
deployments with the cycles it moves. -/
theorem progress_follows_outcomes (start : DeploymentDb) (earlier later : List ProgressAction)
    (action : ProgressAction)
    (haccepts : (progressMachine.restrict FindsOpen).Accepts start
      (earlier ++ action :: later)) :
    FollowsOutcomes (progressMachine.after start earlier)
      (progressMachine.after start (earlier ++ [action])) := by
  have hopen := ((Machine.accepts_append earlier start (action :: later)).mp haccepts).2.1.2
  rw [Machine.after_append]
  exact action.follows hopen

/-! ## Late deliveries -/

def plainFinalize : ProgressAction := { call := .finalize stillCalendar flatMarket "cycle" }

def plainFail : ProgressAction := { call := .fail "cycle" "worker_failed" "late" }

/-- A late failure of a succeeded cycle counts, and a late finalization of a
failed cycle advances the deployment. -/
theorem late_delivery_counts :
    ¬ FollowsOutcomes (progressMachine.after runningDb [plainFinalize])
        (progressMachine.after runningDb [plainFinalize, plainFail]) ∧
      ¬ FollowsOutcomes (progressMachine.after runningDb [plainFail])
        (progressMachine.after runningDb [plainFail, plainFinalize]) := by
  have hnone : ∀ (db after : DeploymentDb) (status : CycleStatus) (cycle : ExecutionCycle),
      after.cycles.cycles.all (fun cycle => cycle.status ≠ status) = true →
        ¬ Moved db after "deployment" status cycle := by
    intro db after status cycle hall hmoved
    have hmem := List.mem_of_find?_eq_some hmoved.found
    have hne := List.all_eq_true.mp hall cycle hmem
    exact of_decide_eq_true hne hmoved.arrived
  constructor
  · intro h
    have hold : ((progressMachine.after runningDb [plainFinalize]).deployments
        "deployment").map Deployment.consecutiveFailures = some 0 := by decide +kernel
    have hnew : ((progressMachine.after runningDb [plainFinalize, plainFail]).deployments
        "deployment").map Deployment.consecutiveFailures = some 1 := by decide +kernel
    obtain ⟨old, hold, holdFailures⟩ := Option.map_eq_some_iff.mp hold
    obtain ⟨new, hnew, hnewFailures⟩ := Option.map_eq_some_iff.mp hnew
    obtain ⟨cycle, hmoved, -⟩ := h.failure "deployment" old new hold hnew (Or.inl (by omega))
    exact hnone _ _ _ cycle (by decide +kernel) hmoved
  · intro h
    have hold : ((progressMachine.after runningDb [plainFail]).deployments
        "deployment").map Deployment.lastSuccessfulTradingDate = some none := by
      decide +kernel
    have hnew : ((progressMachine.after runningDb [plainFail, plainFinalize]).deployments
        "deployment").map Deployment.lastSuccessfulTradingDate = some (some "2024-01-03") := by
      decide +kernel
    obtain ⟨old, hold, holdDate⟩ := Option.map_eq_some_iff.mp hold
    obtain ⟨new, hnew, hnewDate⟩ := Option.map_eq_some_iff.mp hnew
    have hchanged : new.lastSuccessfulTradingDate ≠ old.lastSuccessfulTradingDate := by
      rw [holdDate, hnewDate]
      exact Option.some_ne_none _
    obtain ⟨cycle, hmoved, -⟩ := h.success "deployment" old new hold hnew (Or.inl hchanged)
    exact hnone _ _ _ cycle (by decide +kernel) hmoved

theorem progress_follows_outcomes_finalized :
    FollowsOutcomes runningDb (progressMachine.after runningDb [plainFinalize]) := by
  refine progress_follows_outcomes runningDb [] [] plainFinalize ⟨⟨trivial, ?_⟩, trivial⟩
  show ∀ status ∈ runningDb.cycles.status "cycle",
    status ∈ ([.queued, .running, .finalizing, .succeeded] : List CycleStatus)
  decide +kernel

end LocalPlatform.Accounts
