import LocalPlatform.Accounts.Deployments
import LocalPlatform.Accounts.PointInTime

/-!
# Finalization of a cycle

`finalize_cycle` of `paper_accounts.py` turns the order pipeline of a cycle into
signals, a projection, a report and the progress of the deployment.  It commits
up to six transactions:

1. the cycle moves to `finalizing`;
2. the signals are inserted, one for each intent of the run;
3. the projection of the account is rebuilt;
4. the daily report and the snapshot are written;
5. the cycle moves to `succeeded`;
6. the deployment and the outbox are updated.

`recover_orphaned_cycles` calls it again for a cycle that is still finalizing.
The second call starts from the top, and the signals have a unique key.
`finalizeCycle_reentrant` says when it goes through.
-/

namespace LocalPlatform.Accounts

open Paper Transaction Transaction.TxM DatedLogs

/-! ## Signals -/

/-- The signal of a cycle without an order. -/
def noSignalRow (calendar : TradeCalendar) (cycle : ExecutionCycle) : StrategySignal where
  paperAccountId := cycle.paperAccountId
  deploymentId := cycle.deploymentId
  cycleId := cycle.id
  signalKey := .noSignal cycle.id
  signalType := "no_signal"
  symbol := none
  signalTimestamp := some s!"{cycle.tradingDate}T15:01:00+08:00"
  intendedExecutionDate := calendar.nextTradeDate cycle.tradingDate
  evidence := .reason "LEAN produced no executable order for the certified trading day."
  disposition := "observed"
  noTradeReason := some "no_signal"
  leanRunId := cycle.leanRunId
  dataTimestamp := s!"{cycle.tradingDate}T15:00:00+08:00"

/-- The disposition of the latest state of an intent. -/
def disposition : Option OrderState → String
  | some .filled => "filled"
  | some .rejected => "rejected"
  | some .expired => "not_executed"
  | some .accepted => "next_session_pending"
  | some state => lower state.name
  | none => "observed"

/-- `payload.get("reason")` -/
def payloadReason : TransitionPayload → Option String
  | .reason reason => reason
  | _ => none

def textOf (value : Option String) : Option String := value.filter (· ≠ "")

/-- The signal of an intent. -/
def intentSignal (calendar : TradeCalendar) (cycle : ExecutionCycle) (db : Db)
    (intent : Intent) : StrategySignal where
  paperAccountId := cycle.paperAccountId
  deploymentId := cycle.deploymentId
  cycleId := cycle.id
  signalKey := .intent cycle.id intent.eventKey
  signalType := lower intent.side
  symbol := some intent.symbol
  signalTimestamp := textOf intent.signalTime
  intendedExecutionDate := calendar.nextTradeDate cycle.tradingDate
  targetQuantity := some intent.quantity
  previousQuantity := some 0
  evidence := .order intent.rawIntent
  disposition := disposition ((latestTransition db intent.id).map Transition.toState)
  noTradeReason := (latestTransition db intent.id).bind
    (fun transition => payloadReason transition.payload)
  intentId := some intent.id
  leanRunId := cycle.leanRunId
  dataTimestamp := s!"{cycle.tradingDate}T15:00:00+08:00"

/-- The signal of an order event that is only observed. -/
def observedSignal (calendar : TradeCalendar) (cycle : ExecutionCycle) (event : LeanOrderEvent) :
    StrategySignal where
  paperAccountId := cycle.paperAccountId
  deploymentId := cycle.deploymentId
  cycleId := cycle.id
  signalKey := .signalOnly cycle.id event.eventKey
  signalType := lower ((textOf event.event.side <|> textOf event.event.direction).getD "observe")
  symbol := textOf (event.event.symbol.map upper)
  signalTimestamp := some ((textOf event.event.signalTime <|> textOf event.event.time).getD
    s!"{cycle.tradingDate}T15:01:00+08:00")
  intendedExecutionDate := calendar.nextTradeDate cycle.tradingDate
  targetQuantity := event.event.quantity
  evidence := .order event.event
  disposition := "observed"
  noTradeReason := some "observe_only"
  leanRunId := cycle.leanRunId
  dataTimestamp := s!"{cycle.tradingDate}T15:00:00+08:00"

def runIntents (db : Db) (paperRunId : RunId) : List Intent :=
  db.intents.filter (fun intent => intent.paperRunId == paperRunId)

def runEvents (db : Db) (paperRunId : RunId) : List LeanOrderEvent :=
  db.events.filter (fun event => event.paperRunId == paperRunId)

/-- The rows of `_signals_from_intents`. -/
def signalsFromIntents (calendar : TradeCalendar) (cycle : ExecutionCycle) (db : Db)
    (intents : List Intent) : List StrategySignal :=
  if intents = [] then [noSignalRow calendar cycle]
  else intents.map (intentSignal calendar cycle db)

/-- The rows of `_signals_from_signal_only_events`. -/
def signalsFromEvents (calendar : TradeCalendar) (cycle : ExecutionCycle) (db : Db)
    (events : List LeanOrderEvent) : List StrategySignal :=
  if events = [] then signalsFromIntents calendar cycle db []
  else events.map (observedSignal calendar cycle)

/-- The rows that a finalization inserts. -/
def cycleSignals (calendar : TradeCalendar) (cycle : ExecutionCycle) (deployment : Deployment)
    (db : Db) (paperRunId : RunId) : List StrategySignal :=
  if deployment.signalMode = "signal_only" then
    signalsFromEvents calendar cycle db (runEvents db paperRunId)
  else signalsFromIntents calendar cycle db (runIntents db paperRunId)

/-- `insert into paper_strategy_signals`, with `unique(deployment_id, signal_key)`. -/
def insertSignal (signals : List StrategySignal) (row : StrategySignal) :
    Except AccountError (List StrategySignal) :=
  if signals.any (fun signal => signal.deploymentId == row.deploymentId &&
      signal.signalKey == row.signalKey) then
    .error (.paper (.integrityError "paper_strategy_signals.deployment_id, signal_key"))
  else .ok (signals ++ [row])

/-! ## The second transaction -/

/-- What the second transaction of a finalization collects. -/
structure CycleEvidence where
  intents : List Intent
  fills : List Fill
  rejects : Nat
  signals : List StrategySignal
  signalIds : List Nat

/-- An entry of the ledger that lacks a column of its account. -/
def lacksContext (entry : LedgerEntry) : Bool :=
  entry.paperAccountId.isNone || entry.accountGeneration.isNone ||
    entry.executionCycleId.isNone || entry.ledgerSequence.isNone

/-- The entries of the intents of a run that lack a column of their account. -/
def missingContext (db : Db) (paperRunId : RunId) : List LedgerEntry :=
  db.ledger.filter (fun entry => lacksContext entry &&
    (runIntents db paperRunId).any (fun intent => entry.intentId == some intent.id))

/-- The transitions to `REJECTED` of the intents of a cycle. -/
def rejectCount (db : Db) (cycleId : String) : Nat :=
  ((db.intents.filter (fun intent => intent.account.executionCycleId == some cycleId)).flatMap
    (fun intent => (db.transitions intent.id).filter
      (fun transition => transition.toState == .rejected))).length

/-- The second transaction of `finalize_cycle`. -/
def recordSignals (calendar : TradeCalendar) (cycle : ExecutionCycle) (deployment : Deployment)
    (paperRunId : RunId) (db : DeploymentDb) : Except AccountError (CycleEvidence × DeploymentDb) :=
  let paper := db.accounts.paper
  if missingContext paper paperRunId ≠ [] then
    .error (.ledgerContextMissing cycle.paperAccountId cycle.id)
  else
    let rows := cycleSignals calendar cycle deployment paper paperRunId
    match rows.foldlM insertSignal db.signals with
    | .error e => .error e
    | .ok signals =>
      .ok ({ intents := runIntents paper paperRunId
             fills := paper.fills.filter (fun fill => fill.executionCycleId == some cycle.id)
             rejects := rejectCount paper cycle.id
             signals := rows
             signalIds := (List.range rows.length).map (db.signals.length + ·) },
        { db with signals := signals })

/-! ## Report and progress -/

/-- The report of a cycle. -/
def accountReport (cycle : ExecutionCycle) (benchmarkSymbol : String)
    (projection : AccountProjection) : AccountReport where
  accountId := cycle.paperAccountId
  deploymentId := cycle.deploymentId
  cycleId := cycle.id
  tradingDate := cycle.tradingDate
  benchmarkSymbol := benchmarkSymbol
  projection := projection

/-- The upsert of a snapshot, which keeps the benchmark symbol of a row that is
there. -/
def putSnapshot (db : DeploymentDb) (cycle : ExecutionCycle) (benchmarkSymbol : String)
    (projection : AccountProjection) : DeploymentDb :=
  let stored := db.snapshots cycle.paperAccountId cycle.accountGeneration cycle.tradingDate
  let row : AccountSnapshot :=
    { projection := projection
      benchmarkSymbol := (stored.map AccountSnapshot.benchmarkSymbol).getD benchmarkSymbol
      benchmarkReturn := projection.benchmarkReturn
      sourceLedgerSequence := projection.sourceLedgerSequence
      sourceCheckpointDigest := projection.sourceCheckpointDigest }
  { db with
    snapshots := Function.update db.snapshots cycle.paperAccountId
      (Function.update (db.snapshots cycle.paperAccountId) cycle.accountGeneration
        (Function.update (db.snapshots cycle.paperAccountId cycle.accountGeneration)
          cycle.tradingDate (some row))) }

/-- `_write_daily_report`: the row of the report and its digest.  A report that
is there is kept. -/
def writeDailyReport (cycleId benchmarkSymbol : String) (projection : AccountProjection)
    (db : DeploymentDb) : Except AccountError ((Nat × Digest AccountReport) × DeploymentDb) :=
  match getCycle cycleId db with
  | .error e => .error e
  | .ok cycle =>
    let symbol := upper (strip benchmarkSymbol)
    if symbol = "" then .error (.benchmarkProjectionMissing cycle.paperAccountId cycleId)
    else
      match db.reports.findIdx? (fun row => row.cycleId == cycleId),
          db.reports.find? (fun row => row.cycleId == cycleId) with
      | some n, some row => .ok ((n, row.resultDigest), db)
      | _, _ =>
        let report := accountReport cycle symbol projection
        let row : StoredReport :=
          { paperAccountId := cycle.paperAccountId
            deploymentId := cycle.deploymentId
            cycleId := cycleId
            tradingDate := cycle.tradingDate
            report := report
            resultDigest := { payload := report } }
        .ok ((db.reports.length, row.resultDigest),
          putSnapshot { db with reports := db.reports ++ [row] } cycle symbol projection)

/-- The signals of a cycle that can be executed. -/
def executableSignals (evidence : CycleEvidence) : Nat :=
  (evidence.signals.filter (fun row => row.signalType != "no_signal")).length

/-- The columns of a finalized cycle. -/
def cycleResult (cycle : ExecutionCycle) (paperRunId : RunId) (evidence : CycleEvidence)
    (rebuild : Rebuild) (report : Nat × Digest AccountReport) : CycleResult where
  resultDigest :=
    { payload :=
        { cycleId := cycle.id
          inputFingerprint := cycle.inputFingerprint
          paperRunId := paperRunId
          signalIds := evidence.signalIds
          intentIds := evidence.intents.map Intent.id
          fillFingerprints := evidence.fills.map Fill.fillFingerprint
          projectionDigest := rebuild.projection.sourceCheckpointDigest
          reportDigest := report.2 } }
  signalCount := executableSignals evidence
  intentCount := evidence.intents.length
  orderCount := evidence.intents.length
  fillCount := evidence.fills.length
  rejectedCount := evidence.rejects
  dailyReportId := report.1

/-- The notifications of a finalized cycle. -/
def cycleNotifications (cycle : ExecutionCycle) (evidence : CycleEvidence) : List Notification :=
  let row (eventType : String) (counts : List (String × Nat)) (tab : String) : Notification :=
    { paperAccountId := cycle.paperAccountId
      deploymentId := some cycle.deploymentId
      cycleId := some cycle.id
      eventType := eventType
      payload := .counts cycle.tradingDate counts
        s!"/#/paper/accounts/{cycle.paperAccountId}?tab={tab}" }
  let signals := executableSignals evidence
  [row (if signals ≠ 0 then "new_trade_signal" else "cycle_recovered")
    [("signalCount", signals), ("fillCount", evidence.fills.length),
      ("rejectCount", evidence.rejects)] "signals"] ++
  (if evidence.intents ≠ [] then
    [row "order_created" [("orderCount", evidence.intents.length)] "orders"] else []) ++
  (if evidence.fills ≠ [] then
    [row "fill_created" [("fillCount", evidence.fills.length)] "trades"] else []) ++
  (if evidence.rejects ≠ 0 then
    [row "risk_rejected" [("rejectCount", evidence.rejects)] "signals"] else [])

/-- The progress of a deployment after a cycle. -/
def Deployment.advanced (calendar : TradeCalendar) (tradingDate : String)
    (deployment : Deployment) : Deployment :=
  { deployment with
    lastSuccessfulTradingDate := some tradingDate
    nextScheduledAt := some (calendar.nextMarketClose (calendar.nextTradeDate tradingDate))
    consecutiveFailures := 0 }

/-- The last transaction of `finalize_cycle`. -/
def recordProgress (calendar : TradeCalendar) (cycle : ExecutionCycle)
    (evidence : CycleEvidence) (db : DeploymentDb) : DeploymentDb :=
  let db' := db.updateDeployment cycle.deploymentId
    (Deployment.advanced calendar cycle.tradingDate)
  { db' with
    outbox := (cycleNotifications cycle evidence).foldl enqueueNotification db.outbox }

/-! ## `finalize_cycle` -/

def runNotSucceeded : AccountError := .paper (.valueError
  "LEAN Paper run and six-phase finalization must succeed before cycle finalization.")

/-- The succeeded Paper run of a cycle. -/
def succeededRun (cycle : ExecutionCycle) (db : DeploymentDb) : Except AccountError RunId :=
  let paperRunId := cycle.paperRunId.getD ""
  match db.accounts.paper.runs.find? (fun run => run.id == paperRunId) with
  | some run => if run.status = "success" then .ok paperRunId else .error runNotSucceeded
  | none => .error runNotSucceeded

/-- The part of a finalization after its signals. -/
def closeCycle (calendar : TradeCalendar) (market : MarketData) (cycle : ExecutionCycle)
    (benchmarkSymbol : String) (paperRunId : RunId) (evidence : CycleEvidence) :
    TxM DeploymentDb AccountError ExecutionCycle := do
  let rebuild ← onAccounts (rebuildProjection market cycle.paperAccountId cycle.tradingDate none)
  let report ← TxM.tx (writeDailyReport cycle.id benchmarkSymbol rebuild.projection)
  let succeeded ← onCycles (succeedCycle cycle.id
    (cycleResult cycle paperRunId evidence rebuild report))
  let _ ← TxM.tx (fun db => .ok ((), recordProgress calendar cycle evidence db))
  pure succeeded

/-- The part of a finalization after its first transaction. -/
def finalizeRun (calendar : TradeCalendar) (market : MarketData) (cycle : ExecutionCycle) :
    TxM DeploymentDb AccountError ExecutionCycle := do
  let account ← TxM.read (fun db => getAccount cycle.paperAccountId db.accounts)
  let deployment ← TxM.read (getDeployment cycle.deploymentId)
  let paperRunId ← TxM.read (succeededRun cycle)
  let evidence ← TxM.tx (recordSignals calendar cycle deployment paperRunId)
  closeCycle calendar market cycle account.benchmarkSymbol paperRunId evidence

/-- `finalize_cycle` -/
def finalizeCycle (calendar : TradeCalendar) (market : MarketData) (cycleId : String) :
    TxM DeploymentDb AccountError ExecutionCycle := do
  let cycle ← TxM.read (getCycle cycleId)
  if cycle.status = .succeeded then pure cycle
  else do
    let cycle ← onCycles (beginFinalization cycleId)
    finalizeRun calendar market cycle

/-! ## Inserted signals -/

def DeploymentDb.signalsOf (db : DeploymentDb) (cycleId : String) : List StrategySignal :=
  db.signals.filter (fun row => row.cycleId == cycleId)

/-- The keys that the signals of a cycle have to carry: one for each intent of
its run, one for each order event where the deployment only observes, and one
for a run without an order. -/
def signalKeys (cycle : ExecutionCycle) (signalMode : String) (db : Db) (paperRunId : RunId) :
    List SignalKey :=
  let keys :=
    if signalMode = "signal_only" then
      (runEvents db paperRunId).map (fun event => .signalOnly cycle.id event.eventKey)
    else (runIntents db paperRunId).map (fun intent => .intent cycle.id intent.eventKey)
  if keys = [] then [.noSignal cycle.id] else keys

def SignalKey.cycleId : SignalKey → String
  | .noSignal cycleId => cycleId
  | .intent cycleId _ => cycleId
  | .signalOnly cycleId _ => cycleId

theorem cycleSignals_keys (calendar : TradeCalendar) (cycle : ExecutionCycle)
    (deployment : Deployment) (db : Db) (paperRunId : RunId) :
    (cycleSignals calendar cycle deployment db paperRunId).map StrategySignal.signalKey =
      signalKeys cycle deployment.signalMode db paperRunId := by
  unfold cycleSignals signalKeys signalsFromEvents signalsFromIntents
  by_cases hmode : deployment.signalMode = "signal_only"
  · simp only [if_pos hmode]
    by_cases hevents : runEvents db paperRunId = []
    · simp [hevents, noSignalRow]
    · simp [hevents, observedSignal]
  · simp only [if_neg hmode]
    by_cases hintents : runIntents db paperRunId = []
    · simp [hintents, noSignalRow]
    · simp [hintents, intentSignal]

theorem cycleSignals_owner (calendar : TradeCalendar) (cycle : ExecutionCycle)
    (deployment : Deployment) (db : Db) (paperRunId : RunId) :
    ∀ row ∈ cycleSignals calendar cycle deployment db paperRunId,
      row.cycleId = cycle.id ∧ row.deploymentId = cycle.deploymentId ∧
        row.signalKey.cycleId = cycle.id := by
  have hnone : ∀ row ∈ [noSignalRow calendar cycle], row.cycleId = cycle.id ∧
      row.deploymentId = cycle.deploymentId ∧ row.signalKey.cycleId = cycle.id := by
    intro row hrow
    rw [List.mem_singleton.mp hrow]
    exact ⟨rfl, rfl, rfl⟩
  intro row hrow
  unfold cycleSignals signalsFromEvents signalsFromIntents at hrow
  split_ifs at hrow with hmode hevents hintents
  · exact hnone row hrow
  · exact absurd rfl hintents
  · obtain ⟨event, -, rfl⟩ := List.mem_map.mp hrow
    exact ⟨rfl, rfl, rfl⟩
  · exact hnone row hrow
  · obtain ⟨intent, -, rfl⟩ := List.mem_map.mp hrow
    exact ⟨rfl, rfl, rfl⟩

theorem insertSignals_eq (rows : List StrategySignal) : ∀ {signals out : List StrategySignal},
    rows.foldlM insertSignal signals = .ok out → out = signals ++ rows := by
  induction rows with
  | nil =>
    intro signals out h
    rw [List.append_nil]
    exact (Except.ok.inj h).symm
  | cons row rows ih =>
    intro signals out h
    rw [List.foldlM_cons] at h
    unfold insertSignal at h
    split_ifs at h with hclash
    · cases h
    · rw [ih h, List.append_assoc, List.singleton_append]

theorem insertSignals_ok (rows : List StrategySignal) : ∀ (signals : List StrategySignal),
    (rows.map StrategySignal.signalKey).Nodup →
      (∀ row ∈ rows, ∀ signal ∈ signals, signal.signalKey ≠ row.signalKey) →
        rows.foldlM insertSignal signals = .ok (signals ++ rows) := by
  induction rows with
  | nil =>
    intro signals _ _
    rw [List.append_nil]
    rfl
  | cons row rows ih =>
    intro signals hnodup hfresh
    rw [List.map_cons, List.nodup_cons] at hnodup
    have hnone : ¬ signals.any (fun signal => signal.deploymentId == row.deploymentId &&
        signal.signalKey == row.signalKey) = true := by
      intro hany
      obtain ⟨signal, hmem, hsame⟩ := List.any_eq_true.mp hany
      rw [Bool.and_eq_true, beq_iff_eq, beq_iff_eq] at hsame
      exact hfresh row List.mem_cons_self signal hmem hsame.2
    have hrest : ∀ later ∈ rows, ∀ signal ∈ signals ++ [row],
        signal.signalKey ≠ later.signalKey := by
      intro later hlater signal hmem
      rcases List.mem_append.mp hmem with hmem | hmem
      · exact hfresh later (List.mem_cons_of_mem _ hlater) signal hmem
      · rw [List.mem_singleton.mp hmem]
        intro hsame
        exact hnodup.1 (List.mem_map.mpr ⟨later, hlater, hsame.symm⟩)
    rw [List.foldlM_cons, insertSignal, if_neg hnone]
    show rows.foldlM insertSignal (signals ++ [row]) = _
    rw [ih _ hnodup.2 hrest, List.append_assoc, List.singleton_append]

/-! ## A cycle that can be finalized -/

/-- The columns of a cycle that no transition writes. -/
def ExecutionCycle.identity (cycle : ExecutionCycle) : ExecutionCycle :=
  { cycle with
    status := .scheduled
    attempt := 0
    version := 0
    skipReason := none
    failureCode := none
    failureDetail := none
    result := none }

theorem identity_columns {a b : ExecutionCycle} (h : a.identity = b.identity) :
    a.id = b.id ∧ a.paperAccountId = b.paperAccountId ∧ a.deploymentId = b.deploymentId ∧
      a.tradingDate = b.tradingDate ∧ a.paperRunId = b.paperRunId := by
  simp only [ExecutionCycle.identity, ExecutionCycle.mk.injEq] at h
  simp [h]

def ExecutionCycle.run (cycle : ExecutionCycle) : RunId := cycle.paperRunId.getD ""

/-- The entries that the projection of a cycle reads. -/
def cycleEntries (db : DeploymentDb) (cycle : ExecutionCycle) (generation : Nat) :
    List LedgerEntry :=
  rebuildEntries db.accountDb.paper cycle.paperAccountId generation cycle.tradingDate

/-- The Paper run of a cycle succeeded, and the tables are intact: the rows that
the cycle names are there, the ledger carries its account, the projection agrees
with its checkpoint, and the unique keys are unique. -/
structure Finalizable (db : DeploymentDb) (cycle : ExecutionCycle) (account : PaperAccount)
    (signalMode : String) : Prop where
  found : db.cycles.find cycle.id = some cycle
  owner : db.accounts.accounts cycle.paperAccountId = some account
  deployment : (db.deployments cycle.deploymentId).map Deployment.signalMode = some signalMode
  succeeded : succeededRun cycle db = .ok cycle.run
  context : missingContext db.accounts.paper cycle.run = []
  checkpoint : ∀ row, findCheckpoint db.accounts cycle.paperAccountId account.currentGeneration
    (top entryNumber (cycleEntries db cycle account.currentGeneration)) = some row →
      row.digest = entriesDigest cycle.paperAccountId account.currentGeneration
        (cycleEntries db cycle account.currentGeneration)
  benchmark : upper (strip account.benchmarkSymbol) ≠ ""
  intents : ((runIntents db.accounts.paper cycle.run).map Intent.eventKey).Nodup
  events : ((runEvents db.accounts.paper cycle.run).map LeanOrderEvent.eventKey).Nodup
  keyed : ∀ row ∈ db.signals, row.signalKey.cycleId = row.cycleId

section Finalizable

variable {db : DeploymentDb} {cycle : ExecutionCycle} {account : PaperAccount}
  {signalMode : String}

/-- The database `db` keeps the cycle finalizable, whatever the statuses are. -/
def Intact (cycle : ExecutionCycle) (account : PaperAccount) (signalMode : String)
    (db : DeploymentDb) : Prop :=
  ∃ row : ExecutionCycle, row.identity = cycle.identity ∧ Finalizable db row account signalMode

theorem Finalizable.keys (h : Finalizable db cycle account signalMode) :
    (signalKeys cycle signalMode db.accounts.paper cycle.run).Nodup := by
  unfold signalKeys
  extract_lets keys
  have hkeys : keys.Nodup := by
    by_cases hmode : signalMode = "signal_only"
    · have hevents := h.events.map (f := SignalKey.signalOnly cycle.id)
        (fun a b hab => (SignalKey.signalOnly.inj hab).2)
      rw [List.map_map] at hevents
      simp only [keys, if_pos hmode]
      exact hevents
    · have hintents := h.intents.map (f := SignalKey.intent cycle.id)
        (fun a b hab => (SignalKey.intent.inj hab).2)
      rw [List.map_map] at hintents
      simp only [keys, if_neg hmode]
      exact hintents
  split_ifs
  · exact List.nodup_singleton _
  · exact hkeys

theorem Finalizable.congr (h : Finalizable db cycle account signalMode) {db' : DeploymentDb}
    (hcycles : db'.cycles = db.cycles) (haccounts : db'.accounts = db.accounts)
    (hdeployments : (db'.deployments cycle.deploymentId).map Deployment.signalMode =
      (db.deployments cycle.deploymentId).map Deployment.signalMode)
    (hkeyed : ∀ row ∈ db'.signals, row.signalKey.cycleId = row.cycleId) :
    Finalizable db' cycle account signalMode := by
  have hentries : cycleEntries db' cycle account.currentGeneration =
      cycleEntries db cycle account.currentGeneration := by
    unfold cycleEntries DeploymentDb.accountDb
    rw [hcycles, haccounts]
  constructor
  · rw [hcycles]
    exact h.found
  · rw [haccounts]
    exact h.owner
  · rw [hdeployments]
    exact h.deployment
  · unfold succeededRun
    rw [haccounts]
    exact h.succeeded
  · rw [haccounts]
    exact h.context
  · rw [haccounts, hentries]
    exact h.checkpoint
  · exact h.benchmark
  · rw [haccounts]
    exact h.intents
  · rw [haccounts]
    exact h.events
  · exact hkeyed

theorem rebuildEntries_congr {db' : DeploymentDb} (accountId valuationDate : String)
    (generation : Nat) (hledger : db'.accounts.paper.ledger = db.accounts.paper.ledger)
    (hdates : ∀ id, (db'.cycles.find id).map ExecutionCycle.tradingDate =
      (db.cycles.find id).map ExecutionCycle.tradingDate) :
    rebuildEntries db'.accountDb.paper accountId generation valuationDate =
      rebuildEntries db.accountDb.paper accountId generation valuationDate := by
  have hview : ∀ (d : DeploymentDb) (id : String),
      (findCycle d.accountDb.paper id).any (fun cycle => cycle.tradingDate ≤ valuationDate) =
        ((d.cycles.find id).map ExecutionCycle.tradingDate).any (· ≤ valuationDate) := by
    intro d id
    unfold findCycle DeploymentDb.accountDb CycleDb.find
    rw [List.find?_map]
    show (Option.map _ (d.cycles.cycles.find? fun cycle => cycle.id == id)).any _ = _
    rw [Option.any_map, Option.any_map]
    rfl
  unfold rebuildEntries accountEntries
  show (db'.accounts.paper.ledger.filter _).filter _ = (db.accounts.paper.ledger.filter _).filter _
  rw [hledger]
  apply List.filter_congr
  intro entry _
  unfold inCut
  cases entry.executionCycleId with
  | none => rfl
  | some id =>
    show (findCycle db'.accountDb.paper id).any _ = (findCycle db.accountDb.paper id).any _
    rw [hview, hview, hdates]

/-- A transition of the cycle keeps it finalizable. -/
theorem Finalizable.transition (h : Finalizable db cycle account signalMode)
    {toStatus : CycleStatus} {eventType : String} {expected : List CycleStatus}
    {fields : CycleFields} {row : ExecutionCycle} {cycles : CycleDb}
    (hrun : transitionCycle cycle.id toStatus eventType expected fields db.cycles =
      .ok (row, cycles)) :
    row.identity = cycle.identity ∧
      Finalizable { db with cycles := cycles } row account signalMode := by
  have hmoved : row.identity = cycle.identity ∧ cycles.find cycle.id = some row ∧
      ∀ id, (cycles.find id).map ExecutionCycle.tradingDate =
        (db.cycles.find id).map ExecutionCycle.tradingDate := by
    unfold transitionCycle at hrun
    simp only [h.found] at hrun
    split_ifs at hrun with hexpected hsame
    · obtain ⟨rfl, rfl⟩ := ok_inj hrun
      exact ⟨rfl, h.found, fun _ => rfl⟩
    · obtain ⟨rfl, rfl⟩ := ok_inj hrun
      have hsome : (db.cycles.find (cycle.moved toStatus fields).id).isSome := by
        show (db.cycles.find cycle.id).isSome
        rw [h.found]
        rfl
      have hfind : ∀ id, (((db.cycles.put (cycle.moved toStatus fields)).appendEvent cycle.id
          (some cycle.status) toStatus eventType (.fields fields)).find id) =
            if id = cycle.id then some (cycle.moved toStatus fields) else db.cycles.find id :=
        fun id => CycleDb.find_put id hsome
      refine ⟨rfl, ?_, ?_⟩
      · rw [hfind, if_pos rfl]
      · intro id
        rw [hfind]
        split_ifs with hid
        · rw [hid, h.found]
          rfl
        · rfl
    · obtain ⟨rfl, rfl⟩ := ok_inj hrun
      exact ⟨rfl, h.found, fun _ => rfl⟩
  obtain ⟨hidentity, hfound, hdates⟩ := hmoved
  obtain ⟨hid, haccount, hdeployment, hdate, hrunId⟩ := identity_columns hidentity
  have hrow : row.run = cycle.run := by
    unfold ExecutionCycle.run
    rw [hrunId]
  have hentries : cycleEntries { db with cycles := cycles } row account.currentGeneration =
      cycleEntries db cycle account.currentGeneration := by
    unfold cycleEntries
    rw [haccount, hdate]
    exact rebuildEntries_congr _ _ _ rfl hdates
  refine ⟨hidentity, ?_⟩
  constructor
  · rw [hid]
    exact hfound
  · rw [haccount]
    exact h.owner
  · rw [hdeployment]
    exact h.deployment
  · rw [hrow, ← h.succeeded]
    unfold succeededRun
    rw [hrunId]
  · rw [hrow]
    exact h.context
  · rw [haccount, hentries]
    exact h.checkpoint
  · exact h.benchmark
  · rw [hrow]
    exact h.intents
  · rw [hrow]
    exact h.events
  · exact h.keyed

theorem Finalizable.signals (h : Finalizable db cycle account signalMode)
    {signals : List StrategySignal}
    (hkeyed : ∀ row ∈ signals, row.signalKey.cycleId = row.cycleId) :
    Finalizable { db with signals := signals } cycle account signalMode :=
  h.congr rfl rfl rfl hkeyed

theorem Finalizable.withAccounts (h : Finalizable db cycle account signalMode)
    {accounts : AccountDb} (haccounts : accounts.accounts = db.accounts.accounts)
    (hcheckpoint : ∀ row, findCheckpoint accounts cycle.paperAccountId account.currentGeneration
      (top entryNumber (cycleEntries db cycle account.currentGeneration)) = some row →
        row.digest = entriesDigest cycle.paperAccountId account.currentGeneration
          (cycleEntries db cycle account.currentGeneration)) :
    Finalizable (db.withAccounts accounts) cycle account signalMode := by
  have hentries : cycleEntries (db.withAccounts accounts) cycle account.currentGeneration =
      cycleEntries db cycle account.currentGeneration :=
    rebuildEntries_congr _ _ _ rfl (fun _ => rfl)
  constructor
  · exact h.found
  · show accounts.accounts cycle.paperAccountId = _
    rw [haccounts]
    exact h.owner
  · exact h.deployment
  · exact h.succeeded
  · exact h.context
  · rw [hentries]
    exact hcheckpoint
  · exact h.benchmark
  · exact h.intents
  · exact h.events
  · exact h.keyed

theorem Finalizable.projection (h : Finalizable db cycle account signalMode) (market : MarketData) :
    wp (fun t => Finalizable t cycle account signalMode)
      (onAccounts (rebuildProjection market cycle.paperAccountId cycle.tradingDate none))
      (fun r t => (∃ accounts, t = db.withAccounts accounts) ∧
        Finalizable t cycle account signalMode ∧
          (market.Available → ∃ rebuild, r = .ok rebuild)) db := by
  refine wp_zoom ?_
  have howner : db.accountDb.accounts cycle.paperAccountId = some account := h.owner
  refine wp_of_eq (rebuildProjection_run howner) ?_
  have hentries : rebuildEntries db.accountDb.paper cycle.paperAccountId
      account.currentGeneration cycle.tradingDate =
        cycleEntries db cycle account.currentGeneration := rfl
  rw [hentries]
  cases hcompute : computeRebuild market cycle.paperAccountId account
      (cycleEntries db cycle account.currentGeneration)
      (none <|> firstCycleDate db.accountDb.paper cycle.paperAccountId account.currentGeneration
        cycle.tradingDate) (db.accountDb.projections cycle.paperAccountId) cycle.tradingDate with
  | error e =>
    have hdegraded : Finalizable (db.withAccounts
        (db.accountDb.setHealth cycle.paperAccountId "degraded")) cycle account signalMode :=
      h.withAccounts rfl h.checkpoint
    refine wp_commitRebuild_error hdegraded ⟨⟨_, rfl⟩, hdegraded, ?_⟩
    intro havailable
    exact absurd havailable (computeRebuild_error hcompute).2
  | ok rebuild =>
    have hrebuild := (computeRebuild_ok hcompute).1
    have hagrees : ∀ row, findCheckpoint db.accountDb cycle.paperAccountId
        account.currentGeneration rebuild.projection.sourceLedgerSequence = some row →
          row.digest = rebuild.projection.sourceCheckpointDigest := by
      rw [hrebuild.sequence, hrebuild.digest]
      exact h.checkpoint
    have hstored : Finalizable (db.withAccounts (storeRebuild cycle.paperAccountId
        account.currentGeneration rebuild (findCheckpoint db.accountDb cycle.paperAccountId
          account.currentGeneration rebuild.projection.sourceLedgerSequence).isNone
            db.accountDb)) cycle account signalMode := by
      refine h.withAccounts rfl ?_
      rw [← hrebuild.sequence, ← hrebuild.digest]
      exact findCheckpoint_storeRebuild hagrees
    refine wp_of_eq (commitRebuild_run hagrees) (wp_tx ?_ ?_)
    · intro a t ht
      obtain ⟨rfl, rfl⟩ := ok_inj ht
      exact ⟨hstored, ⟨_, rfl⟩, hstored, fun _ => ⟨_, rfl⟩⟩
    · intro e ht
      cases ht

theorem Finalizable.report (h : Finalizable db cycle account signalMode)
    (projection : AccountProjection) :
    ∃ report db', writeDailyReport cycle.id account.benchmarkSymbol projection db =
        .ok (report, db') ∧ db'.cycles = db.cycles ∧ db'.accounts = db.accounts ∧
          db'.deployments = db.deployments ∧ db'.signals = db.signals := by
  unfold writeDailyReport getCycle
  simp only [h.found, if_neg h.benchmark]
  split
  · exact ⟨_, _, rfl, rfl, rfl, rfl, rfl⟩
  · exact ⟨_, _, rfl, rfl, rfl, rfl, rfl⟩

theorem Finalizable.succeed (h : Finalizable db cycle account signalMode) (result : CycleResult)
    {row : ExecutionCycle} {cycles : CycleDb}
    (hrun : succeedCycle cycle.id result db.cycles = .ok (row, cycles)) :
    row.identity = cycle.identity ∧
      Finalizable { db with cycles := cycles } row account signalMode ∧
        (cycle.status = .finalizing → cycles.status cycle.id = some .succeeded) := by
  have hmoved := h.transition hrun
  refine ⟨hmoved.1, hmoved.2, ?_⟩
  intro hfinalizing
  obtain ⟨status, hstatus, -, -, -, hcase⟩ := transitionCycle_cases hrun
  have hcurrent : db.cycles.status cycle.id = some .finalizing := by
    rw [CycleDb.status, h.found, Option.map_some, hfinalizing]
  rw [hcurrent, Option.some.injEq] at hstatus
  rcases hcase with ⟨-, hout⟩ | ⟨hupdate, -⟩
  · rw [← hstatus] at hout
    rcases hout with hout | hout
    · exact absurd (List.mem_singleton_self _) hout
    · cases hout
  · rw [hupdate, Function.update_self]

theorem Finalizable.progress (h : Finalizable db cycle account signalMode)
    (calendar : TradeCalendar) (other : ExecutionCycle) (evidence : CycleEvidence) :
    Finalizable (recordProgress calendar other evidence db) cycle account signalMode := by
  refine h.congr rfl rfl ?_ h.keyed
  show Option.map Deployment.signalMode (Function.update db.deployments other.deploymentId
    ((db.deployments other.deploymentId).map _) cycle.deploymentId) = _
  by_cases hid : cycle.deploymentId = other.deploymentId
  · rw [hid, Function.update_self, Option.map_map]
    rfl
  · rw [Function.update_of_ne hid]

theorem Finalizable.close (h : Finalizable db cycle account signalMode)
    (calendar : TradeCalendar) (market : MarketData) (evidence : CycleEvidence) :
    wp (Intact cycle account signalMode)
      (closeCycle calendar market cycle account.benchmarkSymbol cycle.run evidence)
      (fun r t => Intact cycle account signalMode t ∧ t.signals = db.signals ∧
        (market.Available → cycle.status = .finalizing →
          (∃ row, r = .ok row) ∧ t.cycles.status cycle.id = some .succeeded)) db := by
  unfold closeCycle
  refine wp_bind (wp_mono (h.projection market) (fun t ht => ⟨cycle, rfl, ht⟩) ?_)
  rintro (e | rebuild) t ⟨⟨accounts, ht⟩, hfinalizable, havailable⟩
  · refine ⟨⟨cycle, rfl, hfinalizable⟩, by rw [ht]; rfl, ?_⟩
    intro hmarket
    obtain ⟨rebuild, hrebuild⟩ := havailable hmarket
    cases hrebuild
  have hsignals : t.signals = db.signals := by
    rw [ht]
    rfl
  obtain ⟨report, u, hreport, hcycles, haccounts, hdeployments, hkept⟩ :=
    hfinalizable.report rebuild.projection
  have hreported : Finalizable u cycle account signalMode :=
    hfinalizable.congr hcycles haccounts (by rw [hdeployments]) (by
      rw [hkept]
      exact hfinalizable.keyed)
  refine wp_bind (wp_tx ?_ ?_)
  · intro written u' hu
    rw [hreport] at hu
    obtain ⟨rfl, rfl⟩ := ok_inj hu
    refine ⟨⟨cycle, rfl, hreported⟩, wp_bind (wp_zoom (wp_tx ?_ ?_))⟩
    · intro row cycles hrun
      obtain ⟨hidentity, hrow, hsucceeded⟩ := hreported.succeed _ hrun
      refine ⟨⟨row, hidentity, hrow⟩, wp_bind (wp_tx ?_ ?_)⟩
      · intro a v hv
        obtain ⟨-, rfl⟩ := ok_inj hv
        have hprogress := hrow.progress calendar cycle evidence
        refine ⟨⟨row, hidentity, hprogress⟩, wp_pure ⟨⟨row, hidentity, hprogress⟩, ?_, ?_⟩⟩
        · exact hkept.trans hsignals
        · intro _ hfinalizing
          exact ⟨⟨row, rfl⟩, hsucceeded hfinalizing⟩
      · intro e he
        cases he
    · intro e he
      have hmissing : u.cycles.status cycle.id = none := transitionCycle_error he
      rw [CycleDb.status, hreported.found] at hmissing
      cases hmissing
  · intro e he
    rw [hreport] at he
    cases he

theorem Finalizable.run (h : Finalizable db cycle account signalMode)
    (calendar : TradeCalendar) (market : MarketData) :
    wp (Intact cycle account signalMode) (finalizeRun calendar market cycle)
      (fun r t => Intact cycle account signalMode t ∧
        (∀ row, r = .ok row → ∃ rows : List StrategySignal,
          rows.map StrategySignal.signalKey =
            signalKeys cycle signalMode db.accounts.paper cycle.run ∧
              (∀ row ∈ rows, row.cycleId = cycle.id) ∧ t.signals = db.signals ++ rows) ∧
        (market.Available → cycle.status = .finalizing → db.signalsOf cycle.id = [] →
          (∃ row, r = .ok row) ∧ t.cycles.status cycle.id = some .succeeded)) db := by
  obtain ⟨deployment, hdeployment, hmode⟩ := Option.map_eq_some_iff.mp h.deployment
  have hkeys := cycleSignals_keys calendar cycle deployment db.accounts.paper cycle.run
  rw [hmode] at hkeys
  have howner := cycleSignals_owner calendar cycle deployment db.accounts.paper cycle.run
  unfold finalizeRun
  refine wp_bind (wp_read ?_)
  simp only [getAccount, h.owner]
  refine wp_bind (wp_read ?_)
  simp only [getDeployment, hdeployment]
  refine wp_bind (wp_read ?_)
  simp only [h.succeeded]
  refine wp_bind (wp_tx ?_ ?_)
  · intro evidence t ht
    unfold recordSignals at ht
    simp only [h.context, ne_eq, not_true_eq_false, if_false] at ht
    split at ht
    · cases ht
    · rename_i signals hinsert
      obtain ⟨-, rfl⟩ := ok_inj ht
      have hsignals := insertSignals_eq _ hinsert
      have hkeyed : ∀ row ∈ signals, row.signalKey.cycleId = row.cycleId := by
        intro row hrow
        rw [hsignals] at hrow
        rcases List.mem_append.mp hrow with hrow | hrow
        · exact h.keyed row hrow
        · rw [(howner row hrow).1, (howner row hrow).2.2]
      have hrecorded := h.signals hkeyed
      refine ⟨⟨cycle, rfl, hrecorded⟩, ?_⟩
      refine wp_mono (hrecorded.close calendar market evidence) (fun _ ht => ht) ?_
      rintro r u ⟨hintact, hkept, hdone⟩
      refine ⟨hintact, ?_, fun havailable hfinalizing _ => hdone havailable hfinalizing⟩
      intro row _
      exact ⟨_, hkeys, fun row hrow => (howner row hrow).1, hkept.trans hsignals⟩
  · intro e he
    refine ⟨⟨cycle, rfl, h⟩, fun row hrow => (by cases hrow), ?_⟩
    intro _ _ hnone
    -- Without a signal of the cycle the keys of the new rows are fresh.
    have hfresh : ∀ row ∈ cycleSignals calendar cycle deployment db.accounts.paper cycle.run,
        ∀ signal ∈ db.signals, signal.signalKey ≠ row.signalKey := by
      intro row hrow signal hsignal hsame
      have hcycle : signal.cycleId = cycle.id := by
        rw [← h.keyed signal hsignal, hsame, (howner row hrow).2.2]
      have hmem : signal ∈ db.signalsOf cycle.id :=
        List.mem_filter.mpr ⟨hsignal, beq_iff_eq.mpr hcycle⟩
      rw [hnone] at hmem
      cases hmem
    have hinsert := insertSignals_ok _ db.signals (by rw [hkeys]; exact h.keys) hfresh
    unfold recordSignals at he
    simp only [h.context, ne_eq, not_true_eq_false, if_false, hinsert] at he
    cases he

theorem Finalizable.finalize (h : Finalizable db cycle account signalMode)
    (calendar : TradeCalendar) (market : MarketData) :
    wp (Intact cycle account signalMode) (finalizeCycle calendar market cycle.id)
      (fun _ t => Intact cycle account signalMode t) db := by
  unfold finalizeCycle
  refine wp_bind (wp_read ?_)
  simp only [getCycle, h.found]
  by_cases hsucceeded : cycle.status = .succeeded
  · simp only [if_pos hsucceeded]
    exact wp_pure ⟨cycle, rfl, h⟩
  · simp only [if_neg hsucceeded]
    refine wp_bind (wp_zoom (wp_tx ?_ (fun e he => ⟨cycle, rfl, h⟩)))
    intro row cycles hrun
    obtain ⟨hidentity, hrow⟩ := h.transition hrun
    have hintact : ∀ t, Intact row account signalMode t → Intact cycle account signalMode t := by
      rintro t ⟨last, hlast, ht⟩
      exact ⟨last, hlast.trans hidentity, ht⟩
    refine ⟨⟨row, hidentity, hrow⟩, wp_mono (hrow.run calendar market) hintact ?_⟩
    exact fun r t ht => hintact t ht.1

theorem Finalizable.refinalize (h : Finalizable db cycle account signalMode)
    (calendar : TradeCalendar) {market : MarketData} (havailable : market.Available)
    (hfinalizing : cycle.status = .finalizing) :
    wp (fun _ => True) (finalizeCycle calendar market cycle.id)
      (fun r t =>
        (∀ row, r = .ok row → ∃ rows : List StrategySignal,
          rows.map StrategySignal.signalKey =
            signalKeys cycle signalMode db.accounts.paper cycle.run ∧
              (∀ row ∈ rows, row.cycleId = cycle.id) ∧ t.signals = db.signals ++ rows) ∧
        (db.signalsOf cycle.id = [] →
          (∃ row, r = .ok row) ∧ t.cycles.status cycle.id = some .succeeded)) db := by
  have hbegin : beginFinalization cycle.id db.cycles = .ok (cycle, db.cycles) := by
    have hexpected : cycle.status ∉ ([.running, .queued] : List CycleStatus) := by
      rw [hfinalizing]
      decide
    unfold beginFinalization transitionCycle
    simp only [h.found, if_pos hexpected]
  have hsucceeded : cycle.status ≠ .succeeded := by
    rw [hfinalizing]
    decide
  unfold finalizeCycle
  refine wp_bind (wp_read ?_)
  simp only [getCycle, h.found, if_neg hsucceeded]
  refine wp_bind (wp_zoom (wp_tx ?_ ?_))
  · intro row cycles hrun
    rw [hbegin] at hrun
    obtain ⟨rfl, rfl⟩ := ok_inj hrun
    refine ⟨trivial, wp_mono (h.run calendar market) (fun _ _ => trivial) ?_⟩
    exact fun r t ht => ⟨ht.2.1, ht.2.2 havailable hfinalizing⟩
  · intro e he
    rw [hbegin] at he
    cases he

end Finalizable

/-! ## Re-entrance -/

/-- `finalize_cycle` returns, and it leaves the cycle succeeded with exactly one
signal for each of its keys. -/
structure Completes (calendar : TradeCalendar) (market : MarketData) (cycle : ExecutionCycle)
    (signalMode : String) (db : DeploymentDb) : Prop where
  returns : ∃ row, (finalizeCycle calendar market cycle.id db).value = .ok row
  succeeded : (finalizeCycle calendar market cycle.id db).state.cycles.status cycle.id =
    some .succeeded
  signals : ((finalizeCycle calendar market cycle.id db).state.signalsOf cycle.id).map
    StrategySignal.signalKey = signalKeys cycle signalMode db.accounts.paper cycle.run

theorem Finalizable.completes_iff {db : DeploymentDb} {cycle : ExecutionCycle}
    {account : PaperAccount} {signalMode : String}
    (h : Finalizable db cycle account signalMode) (calendar : TradeCalendar)
    {market : MarketData} (havailable : market.Available)
    (hfinalizing : cycle.status = .finalizing) :
    Completes calendar market cycle signalMode db ↔ db.signalsOf cycle.id = [] := by
  obtain ⟨-, hinserted, hdone⟩ := h.refinalize calendar havailable hfinalizing
  constructor
  · rintro ⟨⟨row, hrow⟩, -, hsignals⟩
    obtain ⟨rows, hkeys, howner, happended⟩ := hinserted row hrow
    have hall : rows.filter (fun row => row.cycleId == cycle.id) = rows :=
      List.filter_eq_self.mpr (fun row hrow => beq_iff_eq.mpr (howner row hrow))
    rw [DeploymentDb.signalsOf, happended, List.filter_append, hall, List.map_append, hkeys]
      at hsignals
    have hlength := congrArg List.length hsignals
    rw [List.length_append, List.length_map] at hlength
    apply List.eq_nil_of_length_eq_zero
    show (db.signals.filter (fun row => row.cycleId == cycle.id)).length = 0
    omega
  · intro hnone
    obtain ⟨⟨row, hrow⟩, hsucceeded⟩ := hdone hnone
    obtain ⟨rows, hkeys, howner, happended⟩ := hinserted row hrow
    have hall : rows.filter (fun row => row.cycleId == cycle.id) = rows :=
      List.filter_eq_self.mpr (fun row hrow => beq_iff_eq.mpr (howner row hrow))
    refine ⟨⟨row, hrow⟩, hsucceeded, ?_⟩
    unfold DeploymentDb.signalsOf at hnone ⊢
    rw [happended, List.filter_append, hnone, hall, List.nil_append, hkeys]

theorem signalKeys_identity {a b : ExecutionCycle} (h : a.identity = b.identity)
    (signalMode : String) (db : Db) :
    signalKeys a signalMode db a.run = signalKeys b signalMode db b.run := by
  obtain ⟨hid, -, -, -, hrun⟩ := identity_columns h
  unfold signalKeys ExecutionCycle.run
  rw [hid, hrun]

/-- A later finalization of a finalizing cycle completes exactly when the first
one stopped before its signals were committed. -/
theorem finalizeCycle_reentrant (calendar later : TradeCalendar) (first second : MarketData)
    (cycle : ExecutionCycle) (account : PaperAccount) (signalMode : String)
    (start stopped : DeploymentDb) (h : Finalizable start cycle account signalMode)
    (hleaves : Leaves (finalizeCycle calendar first cycle.id) start stopped)
    (hfinalizing : stopped.cycles.status cycle.id = some .finalizing)
    (havailable : second.Available) :
    Completes later second cycle signalMode stopped ↔ stopped.signalsOf cycle.id = [] := by
  have hintact : Intact cycle account signalMode stopped :=
    hleaves.of_wp ⟨cycle, rfl, h⟩ (h.finalize calendar first)
  obtain ⟨row, hidentity, hrow⟩ := hintact
  have hid : row.id = cycle.id := (identity_columns hidentity).1
  have hstatus : row.status = .finalizing := by
    rw [← hid, CycleDb.status, hrow.found, Option.map_some] at hfinalizing
    exact Option.some.inj hfinalizing
  have hsame : Completes later second row signalMode stopped ↔
      Completes later second cycle signalMode stopped := by
    have hkeys := signalKeys_identity hidentity signalMode stopped.accounts.paper
    constructor
    · rintro ⟨hreturns, hsucceeded, hsignals⟩
      rw [hid] at hreturns hsucceeded hsignals
      exact ⟨hreturns, hsucceeded, hsignals.trans hkeys⟩
    · rintro ⟨hreturns, hsucceeded, hsignals⟩
      rw [← hid] at hreturns hsucceeded hsignals
      exact ⟨hreturns, hsucceeded, hsignals.trans hkeys.symm⟩
  rw [← hsame, hrow.completes_iff later havailable hstatus, hid]

/-! ## An outage of the market data -/

/-- An account that bought a hundred shares in its first cycle. -/
def boughtAccounts : AccountDb :=
  runAccount flatMarket "account" (.openCycle plainCycle :: accountIntent "run" (plainBuy 1 5) ::
    accountFill 0 "buy" "2024-01-03" 100 5 ++
      [.transition ⟨0, "FILLED", "lean_fill_recorded", "filled", .empty⟩]) plainOpened

/-- A running cycle whose Paper run succeeded. -/
def runningCycle : ExecutionCycle where
  id := "cycle"
  paperAccountId := "account"
  deploymentId := "deployment"
  tradingDate := "2024-01-03"
  status := .running
  paperRunId := some "run"

/-- The database of that cycle. -/
def runningDb : DeploymentDb where
  accounts :=
    { boughtAccounts with
      paper := { boughtAccounts.paper with
        runs := [{ id := "run", sessionId := "shadow", tradeDate := "2024-01-03"
                   backtestRunId := "backtest", status := "success" }] } }
  cycles := { cycles := [runningCycle], events := [] }
  deployments := fun id =>
    if id = "deployment" then
      some { id := "deployment", paperAccountId := "account", status := "active"
             signalMode := "automatic", strategyFingerprint := "", datasetFingerprint := "" }
    else none
  signals := []
  reports := []
  snapshots := fun _ _ _ => none
  outbox := []

/-- A calendar on which no day passes. -/
def stillCalendar : TradeCalendar where
  nextTradeDate := id
  nextMarketClose := id
  isOpen := fun _ => true
  today := "2024-01-03"

def darkMarket : MarketData where
  closePrice := fun _ _ => none
  benchmarkReturn := fun _ _ _ => none

theorem flatMarket_available : flatMarket.Available :=
  ⟨fun _ _ => Option.some_ne_none _, fun _ _ _ => Option.some_ne_none _⟩

def openedAccount : PaperAccount :=
  (boughtAccounts.accounts "account").getD
    { id := "", shadowSessionId := "", name := "", status := "", marketScope := ""
      baseCurrency := "", initialCash := 0, benchmarkSymbol := "", currentGeneration := 0 }

theorem finalizable_runningDb : Finalizable runningDb runningCycle openedAccount "automatic" := by
  constructor
  · decide +kernel
  · decide +kernel
  · decide +kernel
  · decide +kernel
  · decide +kernel
  · intro row hrow
    have hchecked : (findCheckpoint runningDb.accounts runningCycle.paperAccountId
        openedAccount.currentGeneration (top entryNumber
          (cycleEntries runningDb runningCycle openedAccount.currentGeneration))).all
            (fun row => row.digest = entriesDigest runningCycle.paperAccountId
              openedAccount.currentGeneration
                (cycleEntries runningDb runningCycle openedAccount.currentGeneration)) := by
      decide +kernel
    rw [hrow] at hchecked
    exact of_decide_eq_true hchecked
  · decide +kernel
  · decide +kernel
  · decide +kernel
  · intro row hrow
    cases hrow

/-- The databases that the first finalization commits while there is no market
data. -/
def outageCommits : List DeploymentDb :=
  (finalizeCycle stillCalendar darkMarket "cycle" runningDb).commits

/-- The first finalization raises `MarketDataUnavailable`, and the next one
raises a violation of the unique key of the signals. -/
theorem refinalization_raises :
    ∃ stopped, Finalizable runningDb runningCycle openedAccount "automatic" ∧
      Leaves (finalizeCycle stillCalendar darkMarket "cycle") runningDb stopped ∧
      stopped.cycles.status "cycle" = some .finalizing ∧ flatMarket.Available ∧
      (finalizeCycle stillCalendar flatMarket "cycle" stopped).value =
        .error (.paper (.integrityError "paper_strategy_signals.deployment_id, signal_key")) ∧
      ¬ Completes stillCalendar flatMarket runningCycle "automatic" stopped := by
  refine ⟨(finalizeCycle stillCalendar darkMarket "cycle" runningDb).state,
    finalizable_runningDb, Or.inr rfl, by decide +kernel, flatMarket_available,
    by decide +kernel, ?_⟩
  intro hcompletes
  have hsignals := hcompletes.succeeded
  revert hsignals
  decide +kernel

/-- A first finalization that stopped after its first commit does no harm. -/
theorem finalizeCycle_reentrant_early :
    Completes stillCalendar flatMarket runningCycle "automatic"
      (outageCommits.headD runningDb) := by
  have hmem : outageCommits.headD runningDb ∈ runningDb :: outageCommits := by
    cases outageCommits with
    | nil => exact List.mem_singleton_self _
    | cons first rest => exact List.mem_cons_of_mem _ List.mem_cons_self
  refine (finalizeCycle_reentrant stillCalendar stillCalendar darkMarket flatMarket
    runningCycle openedAccount "automatic" runningDb _ finalizable_runningDb (Or.inl hmem) ?_
    flatMarket_available).mpr ?_
  · decide +kernel
  · decide +kernel

end LocalPlatform.Accounts
