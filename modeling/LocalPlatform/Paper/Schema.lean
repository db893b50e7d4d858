import LocalPlatform.Paper.Values
import Mathlib.Data.Finset.Prod

/-!
# Tables of the Paper order pipeline

The database of the Paper v2 services, as far as `paper_order_pipeline.py` and
the v2 path of `paper.py` read and write it.

* An append-only table is the list of its rows in the order they were written,
  which is the order `created_at` sorts them in.  A row that the source names
  by a fresh UUID is named by its position in the table.
* A table with a key that is overwritten is a function of the key, as
  `sessions` and `positions` are.  `transitions` is the table of order
  transitions grouped by its intent.
* Timestamps and the identifiers of rows that nothing refers to are absent.
* The columns `precise_quantity` and `precise_amount` hold the same numbers as
  `quantity` and `amount`, so one pair is kept.
-/

namespace LocalPlatform.Paper

abbrev SessionId := String
abbrev RunId := String
/-- The row number of an intent, which stands for its UUID. -/
abbrev IntentId := Nat
/-- The row number of a fill, which stands for its UUID. -/
abbrev FillId := Nat

/-! ## LEAN orders -/

/-- An identifier in a LEAN result, a number or a text. -/
inductive LeanId where
  | num (n : ℤ)
  | text (s : String)
  deriving DecidableEq

/-- `str(value or "")` of an identifier. -/
def LeanId.str : LeanId → String
  | .num n => if n = 0 then "" else toString n
  | .text s => s

/-- One order event of a LEAN result, with the spellings of its keys that the
Paper services try. -/
structure LeanOrder where
  time : Option String := none
  lastFillTime : Option String := none
  symbol : Option String := none
  side : Option String := none
  direction : Option String := none
  quantity : Option ℚ := none
  price : Option ℚ := none
  fillPrice : Option ℚ := none
  status : Option String := none
  orderId : Option LeanId := none
  id : Option LeanId := none
  order_id : Option LeanId := none
  orderType : Option String := none
  type : Option String := none
  limitPrice : Option ℚ := none
  stopPrice : Option ℚ := none
  signalTime : Option String := none
  requestedExecutionTime : Option String := none
  deriving DecidableEq

/-- The payload that `_order_event_key` hashes. -/
structure OrderEvent where
  time : String
  symbol : String
  side : String
  quantity : ℚ
  price : ℚ
  status : String
  deriving DecidableEq

abbrev EventKey := Digest OrderEvent

/-- The column `lean_order_id`: the identifier LEAN gave the order, or its
event key where LEAN gave none. -/
inductive LeanOrderKey where
  | given (id : String)
  | event (key : EventKey)
  deriving DecidableEq

/-- The `normalizedOrder` of an idempotency key. -/
structure NormalizedOrder where
  symbol : String
  side : String
  quantity : ℚ
  orderType : String
  limitPrice : Option ℚ
  stopPrice : Option ℚ
  signalTime : Option String
  requestedExecutionTime : Option String
  deriving DecidableEq

/-- The payload of the idempotency key of an intent. -/
structure IntentIdentity where
  sessionId : SessionId
  tradeDate : String
  projectSnapshotHash : String
  logicalPaperRunId : RunId
  leanOrderId : LeanOrderKey
  normalizedOrder : NormalizedOrder
  deriving DecidableEq

/-- The account columns of an intent, a fill or a ledger entry. -/
structure AccountContext where
  paperAccountId : Option String := none
  deploymentId : Option String := none
  executionCycleId : Option String := none
  accountGeneration : Option Nat := none
  deriving DecidableEq

/-- `paper_order_intents` -/
structure Intent where
  id : IntentId
  sessionId : SessionId
  paperRunId : RunId
  backtestRunId : String
  eventKey : EventKey
  idempotencyKey : Digest IntentIdentity
  correlationId : String
  attempt : Nat
  tradeDate : String
  symbol : String
  side : String
  quantity : ℚ
  requestedPrice : Option ℚ
  rawIntent : LeanOrder
  leanOrderId : LeanOrderKey
  projectSnapshotId : Option String
  projectSnapshotHash : Option String
  strategyFingerprint : Option String
  orderType : String
  limitPrice : Option ℚ
  stopPrice : Option ℚ
  signalTime : Option String
  requestedExecutionTime : Option String
  datasetVersion : Option String
  universeVersion : Option String
  constraintVersion : String
  account : AccountContext
  deriving DecidableEq

/-! ## Reconciliation -/

/-- The invariants of a reconciled day that its digest is taken over. -/
structure DayInvariants where
  openingCash : ℚ
  ledgerCashMovement : ℚ
  expectedClosingCash : ℚ
  closingCash : ℚ
  cashDrift : ℚ
  positionDrift : ℚ
  filledTransitions : Nat
  fills : Nat
  fillLedgerCounts : List (FillId × Nat)
  snapshotPresent : Bool
  dailyReportPresent : Bool
  deriving DecidableEq

/-- `paper_reconciliation_records` -/
structure ReconciliationRecord where
  sessionId : SessionId
  paperRunId : RunId
  tradeDate : String
  status : String
  openingCash : ℚ
  ledgerCashMovement : ℚ
  closingCash : ℚ
  cashDrift : ℚ
  positionDrift : ℚ
  orderFillOk : Bool
  fillLedgerOk : Bool
  ledgerCashOk : Bool
  ledgerPositionsOk : Bool
  snapshotOk : Bool
  dailyReportOk : Bool
  invariants : DayInvariants
  deriving DecidableEq

/-- The history comparison of a run, with the ledger record once it exists. -/
structure HistoryReconciliation where
  mode : String
  baselineRunId : String
  throughDate : String
  expectedOrderFingerprint : Digest (Multiset EventKey)
  actualOrderFingerprint : Digest (Multiset EventKey)
  passed : Bool
  ledger : Option ReconciliationRecord := none
  deriving DecidableEq

/-! ## Order states and transitions -/

/-- `ORDER_STATES` -/
inductive OrderState where
  | intentCreated
  | validationPending
  | rejected
  | accepted
  | matching
  | partiallyFilled
  | filled
  | cancelled
  | expired
  | failed
  | reconciliationPending
  | reconciled
  | reconciliationFailed
  deriving DecidableEq

/-- The name of a state in the database. -/
def OrderState.name : OrderState → String
  | .intentCreated => "INTENT_CREATED"
  | .validationPending => "VALIDATION_PENDING"
  | .rejected => "REJECTED"
  | .accepted => "ACCEPTED"
  | .matching => "MATCHING"
  | .partiallyFilled => "PARTIALLY_FILLED"
  | .filled => "FILLED"
  | .cancelled => "CANCELLED"
  | .expired => "EXPIRED"
  | .failed => "FAILED"
  | .reconciliationPending => "RECONCILIATION_PENDING"
  | .reconciled => "RECONCILED"
  | .reconciliationFailed => "RECONCILIATION_FAILED"

/-- `ORDER_STATES` as a list. -/
def orderStates : List OrderState :=
  [.intentCreated, .validationPending, .rejected, .accepted, .matching, .partiallyFilled,
    .filled, .cancelled, .expired, .failed, .reconciliationPending, .reconciled,
    .reconciliationFailed]

/-- The state with a name, if the name is one of `ORDER_STATES`. -/
def OrderState.ofName? (name : String) : Option OrderState :=
  orderStates.find? (fun state => state.name == name)

@[simp] theorem OrderState.ofName?_name (state : OrderState) :
    OrderState.ofName? state.name = some state := by
  cases state <;> decide

/-- The external key of a fill: `f"{event_key}:fill"`, or any other text. -/
inductive FillKey where
  | event (key : EventKey)
  | text (key : String)
  deriving DecidableEq

/-- The payload of an order transition. -/
inductive TransitionPayload where
  | empty
  | captured (eventKey : EventKey)
  | reason (reason : Option String)
  | fill (fillKey : FillKey) (quantity price fee tax slippage : ℚ) (matchingContract : String)
  | reconciliation (result : HistoryReconciliation)
  deriving DecidableEq

/-- `paper_order_transitions`, one row of an intent. -/
structure Transition where
  sequence : Nat
  fromState : Option OrderState
  toState : OrderState
  eventType : String
  idempotencyKey : String
  correlationId : String
  attempt : Nat
  payload : TransitionPayload
  deriving DecidableEq

/-! ## Fills and the ledger -/

/-- The payload of `fill_fingerprint`. -/
structure FillFingerprint where
  intentId : IntentId
  tradeDate : String
  quantity : String
  price : String
  fee : String
  tax : String
  slippage : String
  feeModelVersion : String
  matchingContract : String
  deriving DecidableEq

/-- `paper_order_fills` -/
structure Fill where
  id : FillId
  intentId : IntentId
  externalFillKey : FillKey
  tradeDate : String
  quantity : ℚ
  price : ℚ
  fee : ℚ
  tax : ℚ
  slippage : ℚ
  feeModelVersion : String
  matchingContract : String
  fillFingerprint : Digest FillFingerprint
  paperAccountId : Option String
  executionCycleId : Option String
  deriving DecidableEq

/-- The column `entry_type` of the ledger. -/
inductive EntryType where
  | cashDeposit
  | positionIncrease
  | positionDecrease
  | tradePrincipal
  | commission
  | stampDuty
  | slippage
  deriving DecidableEq

/-- The column `asset` of the ledger. -/
inductive Asset where
  | cash
  | equity
  deriving DecidableEq

/-- The accounts that an entry debits and credits. -/
inductive LedgerAccount where
  | cash
  | tradeClearing
  | position (symbol : String)
  | commissionExpense
  | stampDutyExpense
  | slippageExpense
  deriving DecidableEq

/-- The name of an entry type in the database. -/
def EntryType.name : EntryType → String
  | .cashDeposit => "CASH_DEPOSIT"
  | .positionIncrease => "POSITION_INCREASE"
  | .positionDecrease => "POSITION_DECREASE"
  | .tradePrincipal => "TRADE_PRINCIPAL"
  | .commission => "COMMISSION"
  | .stampDuty => "STAMP_DUTY"
  | .slippage => "SLIPPAGE"

/-- The idempotency key of a ledger entry: a text, or the text
`f"{event_key}{suffix}"`. -/
inductive LedgerKey where
  | text (key : String)
  | event (key : EventKey) (suffix : String)
  deriving DecidableEq

/-- `paper_ledger_entries`.  An opening entry belongs to no intent and to no
fill, and it carries no trade date. -/
structure LedgerEntry where
  sessionId : SessionId
  intentId : Option IntentId
  fillId : Option FillId
  entryType : EntryType
  asset : Asset
  symbol : Option String
  quantity : ℚ
  amount : ℚ
  currency : String
  idempotencyKey : LedgerKey
  tradeDate : Option String
  debitAccount : Option LedgerAccount
  creditAccount : Option LedgerAccount
  paperAccountId : Option String
  accountGeneration : Option Nat
  executionCycleId : Option String
  ledgerSequence : Option Nat
  deriving DecidableEq

/-! ## Read models, decisions and checkpoints -/

/-- `paper_positions`, one row of a session. -/
structure Position where
  symbol : String
  quantity : ℚ
  averagePrice : ℚ
  marketPrice : ℚ
  marketValue : ℚ
  lastBuyDate : Option String
  deriving DecidableEq

/-- `paper_sessions` -/
structure Session where
  id : SessionId
  symbol : String
  assetClass : String
  venue : String
  status : String
  cash : ℚ
  equity : ℚ
  parameters : Parameters
  sourceBacktestId : String
  startDate : Option String
  lastProcessedDate : Option String
  failure : Option String := none
  deriving DecidableEq

/-- `paper_walkforward_runs` -/
structure WalkforwardRun where
  id : RunId
  sessionId : SessionId
  tradeDate : String
  backtestRunId : String
  status : String
  orderFingerprint : Option (Digest (Multiset EventKey)) := none
  reconciliation : Option HistoryReconciliation := none
  failure : Option String := none
  deriving DecidableEq

/-- The `ruleInputs` of a decision. -/
structure RuleInputs where
  tradeDate : String
  symbol : String
  side : String
  quantity : ℚ
  requestedPrice : Option ℚ
  deriving DecidableEq

/-- The `portfolioSnapshot` of a decision. -/
structure PortfolioSnapshot where
  cash : ℚ
  equity : ℚ
  positions : List Position
  deriving DecidableEq

/-- `paper_constraint_decisions`.  The digest of a decision is taken over all
of it, so it is the row itself. -/
structure ConstraintDecision where
  intentId : IntentId
  decision : String
  constraintVersion : String
  ruleCode : Option String
  ruleInputs : RuleInputs
  portfolioSnapshot : PortfolioSnapshot
  referenceDataVersion : String
  rules : List (String × String)
  deriving DecidableEq

/-- `paper_orders` as the v2 path writes it; the row is named by its intent. -/
structure PaperOrder where
  id : IntentId
  sessionId : SessionId
  tradeDate : String
  symbol : String
  side : String
  quantity : ℚ
  orderPrice : ℚ
  fillPrice : Option ℚ
  fee : ℚ
  status : String
  reason : Option String
  deriving DecidableEq

/-- An entry of the `decisions` list of a checkpoint. -/
structure OrderDecision where
  intentId : IntentId
  accepted : Bool
  reason : Option String
  deriving DecidableEq

/-- `RUN_PHASES` -/
inductive RunPhase where
  | intentCapture
  | constraintValidation
  | matching
  | ledger
  | snapshotReport
  | reconciliation
  deriving DecidableEq

/-- The payload of a checkpoint; its digest is taken over all of it. -/
inductive CheckpointPayload where
  | intentCapture (eventKeys : List EventKey)
  | constraintValidation (decisions : List OrderDecision)
  | matching (fillKeys : List FillKey)
  | ledger (projectedOrderIds : List IntentId)
  | snapshotReport (tradeDate : String) (orderFingerprint : Digest (Multiset EventKey))
      (orderIds : List IntentId) (equity : ℚ)
  | reconciliationFailed (ledger : ReconciliationRecord)
  | reconciliationPassed (reconciliation : HistoryReconciliation)
      (intentStates : Finset (IntentId × Option OrderState))
  deriving DecidableEq

/-- `paper_run_checkpoints` -/
structure Checkpoint where
  paperRunId : RunId
  phase : RunPhase
  payload : CheckpointPayload
  deriving DecidableEq

/-- `paper_lean_order_events` -/
structure LeanOrderEvent where
  sessionId : SessionId
  paperRunId : RunId
  backtestRunId : String
  eventKey : EventKey
  tradeDate : String
  event : LeanOrder
  deriving DecidableEq

/-- `paper_portfolio_snapshots` -/
structure Snapshot where
  sessionId : SessionId
  tradeDate : String
  cash : ℚ
  marketValue : ℚ
  equity : ℚ
  positions : List Position
  deriving DecidableEq

/-- `paper_daily_reports` -/
structure DailyReport where
  sessionId : SessionId
  tradeDate : String
  equity : ℚ
  cash : ℚ
  orders : List PaperOrder
  trades : List PaperOrder
  rejects : List PaperOrder
  positions : List Position
  fingerprint : Digest (Multiset EventKey)
  reconciliation : HistoryReconciliation
  backtestRunId : String
  deriving DecidableEq

/-- The columns of `paper_execution_cycles` that `_account_context` reads,
joined with the shadow session of the account. -/
structure CycleContext where
  id : String
  paperAccountId : String
  shadowSessionId : SessionId
  deploymentId : String
  accountGeneration : Nat
  tradingDate : String
  status : String
  paperRunId : Option RunId
  deriving DecidableEq

/-- The database of the Paper v2 services. -/
structure Db where
  sessions : SessionId → Option Session
  positions : SessionId → List Position
  runs : List WalkforwardRun
  intents : List Intent
  transitions : IntentId → List Transition
  decisions : List ConstraintDecision
  fills : List Fill
  ledger : List LedgerEntry
  orders : List PaperOrder
  checkpoints : List Checkpoint
  events : List LeanOrderEvent
  snapshots : List Snapshot
  reports : List DailyReport
  reconciliations : List ReconciliationRecord
  cycles : List CycleContext

/-- A database without a row. -/
def Db.empty : Db where
  sessions := fun _ => none
  positions := fun _ => []
  runs := []
  intents := []
  transitions := fun _ => []
  decisions := []
  fills := []
  ledger := []
  orders := []
  checkpoints := []
  events := []
  snapshots := []
  reports := []
  reconciliations := []
  cycles := []

end LocalPlatform.Paper
