import LocalPlatform.Lib.Monitor
import LocalPlatform.Lib.Rows
import Mathlib.Algebra.Order.Field.Rat
import Mathlib.Data.Prod.Lex
import Mathlib.Data.String.Basic

/-!
# The execution audit of a backtest

`audit_backtest_execution` reads the result of a LEAN run, its order events and its logs, and
answers with a list of gates.

* `filledEvents` selects the events that the audit reads.
* `positionAndCash` is the fold over them that the gates against short positions come from.
* `trendOrderContract` is the check of the orders of the trend template, with the T+1 gate.
* `auditBacktestExecution` puts the gates together.

A number is the rational that `_number` reads from a field, with no rounding.  A text field is
`none` when it is missing.  The texts of the logs, the paths and the digests are left out.
-/

namespace LocalPlatform.Backtest

open Tables

/-! ## Order events -/

/-- The `status` of an order in the result: a code of LEAN or a text. -/
inductive OrderStatus where
  | missing
  | code (value : Int)
  | text (value : String)
  deriving DecidableEq

/-- What is written in the `tag` of an order. -/
inductive OrderTag where
  /-- No tag with the prefix `ASHARE_TREND|`. -/
  | other
  /-- The prefix, and then no JSON. -/
  | invalid
  /-- The prefix and metadata, with the first ten characters of their `signalDate`. -/
  | trend (signalDate : String)
  deriving DecidableEq

/-- An order of the result payload. -/
structure PayloadOrder where
  id : String
  symbol : Option String
  tag : OrderTag
  status : OrderStatus
  quantity : Option ℚ
  price : Option ℚ
  lastFillTime : Option String
  time : Option String
  deriving DecidableEq

structure OrderEvent where
  orderId : String
  symbolValue : Option String
  symbolPermtick : Option String
  symbol : Option String
  status : String
  fillQuantity : Option ℚ
  fillPrice : Option ℚ
  orderFeeAmount : Option ℚ
  utcTime : Option String
  time : Option String
  fillTime : Option String
  deriving DecidableEq

/-- The file `<run>-order-events.json`. -/
inductive EventsFile where
  | missing
  | unreadable
  | events (values : List OrderEvent)
  deriving DecidableEq

/-- `a or b or ... or ""` over texts -/
def firstText (values : List (Option String)) : String :=
  ((values.filterMap id).find? (fun value => value != "")).getD ""

/-- `str(event.get("status") or "").lower() == "filled"` -/
def OrderEvent.isFilled (event : OrderEvent) : Bool := event.status.toLower == "filled"

/-- The statuses of the payload that count as filled. -/
def OrderStatus.isFilled (status : OrderStatus) : Bool :=
  status ∈ [.code 2, .code 3, .text "filled", .text "Filled"]

/-- The event that stands for an order when there is no file of events. -/
def PayloadOrder.asEvent (order : PayloadOrder) : OrderEvent where
  orderId := order.id
  symbolValue := order.symbol
  symbolPermtick := none
  symbol := none
  status := "filled"
  fillQuantity := order.quantity
  fillPrice := order.price
  orderFeeAmount := some 0
  utcTime := none
  time := none
  fillTime := none

/-- `_filled_events` -/
def filledEvents (file : EventsFile) (orders : List PayloadOrder) : List OrderEvent :=
  match file with
  | .events events => events.filter OrderEvent.isFilled
  | .unreadable => []
  | .missing => (orders.filter (fun order => order.status.isFilled)).map PayloadOrder.asEvent

/-! ## Positions and cash -/

/-- The tolerance `1e-9`. -/
def tolerance : ℚ := 1 / 1000000000

def OrderEvent.bookedSymbol (event : OrderEvent) : String :=
  firstText [event.symbolValue, event.symbolPermtick, event.symbol]

/-- `_number(event.get("fillQuantity")) or 0.0` -/
def OrderEvent.quantity (event : OrderEvent) : ℚ := event.fillQuantity.getD 0

def OrderEvent.price (event : OrderEvent) : ℚ := event.fillPrice.getD 0

def OrderEvent.fee (event : OrderEvent) : ℚ := event.orderFeeAmount.getD 0

/-- The variables of the loop of `_position_and_cash`. -/
structure Ledger where
  positions : List (String × ℚ)
  cash : ℚ
  minimumCash : ℚ
  deriving DecidableEq

/-- `positions.get(symbol, 0.0)` -/
def Ledger.position (ledger : Ledger) (symbol : String) : ℚ :=
  ((find Prod.fst ledger.positions symbol).map Prod.snd).getD 0

/-- `positions[symbol] = current` -/
def setPosition (old row : String × ℚ) : String × ℚ := (old.1, row.2)

def Ledger.record (ledger : Ledger) (event : OrderEvent) : Ledger :=
  { positions := upsert Prod.fst setPosition ledger.positions
      (event.bookedSymbol, ledger.position event.bookedSymbol + event.quantity)
    cash := ledger.cash - (event.quantity * event.price + event.fee)
    minimumCash :=
      min ledger.minimumCash (ledger.cash - (event.quantity * event.price + event.fee)) }

structure Oversell where
  orderId : String
  symbol : String
  previousQuantity : ℚ
  fillQuantity : ℚ
  resultingQuantity : ℚ
  deriving DecidableEq

/-- A fill that takes a position which is not negative below zero. -/
def Ledger.oversell (ledger : Ledger) (event : OrderEvent) : Option Oversell :=
  let previous := ledger.position event.bookedSymbol
  let current := previous + event.quantity
  if 0 ≤ previous ∧ current < -tolerance then
    some {
      orderId := event.orderId
      symbol := event.bookedSymbol
      previousQuantity := previous
      fillQuantity := event.quantity
      resultingQuantity := current }
  else none

def ledgerMonitor : Monitor Ledger OrderEvent Oversell where
  step := Ledger.record
  finding := Ledger.oversell

structure PositionReport where
  positions : List (String × ℚ)
  negativePositions : List (String × ℚ)
  oversells : List Oversell
  endingCash : ℚ
  minimumCash : ℚ
  fillCount : Nat
  deriving DecidableEq

def Ledger.start (initialCash : ℚ) : Ledger where
  positions := []
  cash := initialCash
  minimumCash := initialCash

/-- `_position_and_cash` -/
def positionAndCash (events : List OrderEvent) (initialCash : ℚ) : PositionReport :=
  let final := ledgerMonitor.run (Ledger.start initialCash) events
  { positions := final.1.positions
    negativePositions := final.1.positions.filter (fun entry => entry.2 < -tolerance)
    oversells := final.2
    endingCash := final.1.cash
    minimumCash := final.1.minimumCash
    fillCount := events.length }

/-! ## The contract of the trend orders -/

/-- The date that a text starts with, `\d{4}-\d{2}-\d{2}`. -/
def dateHere (text : List Char) : Option String :=
  let head := text.take 10
  if head.length = 10 ∧ (head.zipIdx.all (fun entry =>
      if entry.2 = 4 ∨ entry.2 = 7 then entry.1 == '-' else entry.1.isDigit)) then
    some (String.ofList head)
  else none

def searchDate : List Char → Option String
  | [] => none
  | c :: rest => (dateHere (c :: rest)).or (searchDate rest)

/-- `_event_date` of the first text that is not empty -/
def eventDate (values : List (Option String)) : Option String :=
  searchDate (firstText values).toList

/-- `filled_by_id.get(order_id)`: the last event of an order. -/
def lastEventOf (events : List OrderEvent) (orderId : String) : Option OrderEvent :=
  if orderId = "" then none else events.reverse.find? (fun event => event.orderId == orderId)

/-- The date of a fill, from the event or else from the order. -/
def fillDate (order : PayloadOrder) (event : OrderEvent) : Option String :=
  eventDate [event.utcTime, event.time, event.fillTime, order.lastFillTime, order.time]

/-- The symbol of a fill, from the event or else from the order. -/
def fillSymbol (order : PayloadOrder) (event : OrderEvent) : String :=
  firstText [event.symbolValue, order.symbol]

/-- An order of the trend template with its last event. -/
structure CheckedFill where
  orderId : String
  symbol : String
  signalDate : String
  fillDate : Option String
  quantity : ℚ
  deriving DecidableEq

inductive OrderCheck where
  | skipped
  | invalidTag (orderId : String)
  | checked (fill : CheckedFill)
  deriving DecidableEq

/-- What the loop of `_trend_order_contract` makes of an order. -/
def checkOrder (events : List OrderEvent) (order : PayloadOrder) : OrderCheck :=
  match order.tag with
  | .other => .skipped
  | .invalid => .invalidTag order.id
  | .trend signalDate =>
    match lastEventOf events order.id with
    | none => .skipped
    | some event =>
      .checked {
        orderId := order.id
        symbol := fillSymbol order event
        signalDate := signalDate
        fillDate := fillDate order event
        quantity := event.quantity }

inductive NextOpenViolation where
  | invalidTag (orderId : String)
  | notAfterSignal (orderId symbol signalDate : String) (fillDate : Option String)
  deriving DecidableEq

/-- `not fill_date or not signal_date or fill_date <= signal_date` -/
def CheckedFill.notAfterSignal (fill : CheckedFill) : Bool :=
  match fill.fillDate with
  | none => true
  | some date => fill.signalDate = "" || decide (date ≤ fill.signalDate)

def OrderCheck.nextOpenViolation : OrderCheck → Option NextOpenViolation
  | .skipped => none
  | .invalidTag orderId => some (.invalidTag orderId)
  | .checked fill =>
    if fill.notAfterSignal then
      some (.notAfterSignal fill.orderId fill.symbol fill.signalDate fill.fillDate)
    else none

/-- An entry of `chronological`. -/
structure DatedFill where
  date : String
  symbol : String
  quantity : ℚ
  orderId : String
  deriving DecidableEq

def OrderCheck.datedFill : OrderCheck → Option DatedFill
  | .checked fill => fill.fillDate.map (fun date => ⟨date, fill.symbol, fill.quantity, fill.orderId⟩)
  | _ => none

def OrderCheck.isChecked : OrderCheck → Bool
  | .checked _ => true
  | _ => false

/-- The order of the tuples `(fill_date, symbol, quantity, order_id)`. -/
def DatedFill.rank (fill : DatedFill) : String ×ₗ String ×ₗ ℚ ×ₗ String :=
  toLex (fill.date, toLex (fill.symbol, toLex (fill.quantity, fill.orderId)))

structure TPlusOneViolation where
  orderId : String
  symbol : String
  date : String
  deriving DecidableEq

/-- The second loop of `_trend_order_contract`; the state is `last_buy`. -/
def lastBuyMonitor : Monitor (String → Option String) DatedFill TPlusOneViolation where
  step := fun lastBuy fill =>
    if 0 < fill.quantity then Function.update lastBuy fill.symbol (some fill.date) else lastBuy
  finding := fun lastBuy fill =>
    if fill.quantity < 0 ∧ lastBuy fill.symbol = some fill.date then
      some ⟨fill.orderId, fill.symbol, fill.date⟩
    else none

structure TrendContract where
  checkedOrders : Nat
  nextOpenViolations : List NextOpenViolation
  tPlusOneViolations : List TPlusOneViolation
  deriving DecidableEq

/-- `_trend_order_contract` -/
def trendOrderContract (orders : List PayloadOrder) (events : List OrderEvent) : TrendContract :=
  let checks := orders.map (checkOrder events)
  { checkedOrders := checks.countP OrderCheck.isChecked
    nextOpenViolations := checks.filterMap OrderCheck.nextOpenViolation
    tPlusOneViolations :=
      (lastBuyMonitor.run (fun _ => none)
        (orderBy DatedFill.rank (checks.filterMap OrderCheck.datedFill))).2 }

/-! ## The gates -/

structure Gate where
  name : String
  passed : Bool
  deriving DecidableEq

/-- The parameters of the run that the audit reads. -/
structure AuditParameters where
  assetClass : Option String
  market : Option String
  venue : Option String
  strategyTemplateKey : Option String
  initialCash : Option ℚ
  cash : Option ℚ
  endDate : Option String
  deriving DecidableEq

/-- What `_log_evidence` reads from the logs. -/
structure LogEvidence where
  errorCount : Nat
  completedDate : Option String
  cashAccountConfigured : Bool
  trendNextOpenContract : Bool
  deriving DecidableEq

/-- The fields of the result that the audit reads. -/
structure ResultPayload where
  endEquity : Option ℚ
  drawdown : Option ℚ
  runtimeError : String
  orders : List PayloadOrder
  lastEquityDate : Option String
  deriving DecidableEq

/-- All that the audit of one run reads.  The payload is `none` when it cannot be read. -/
structure AuditInput where
  payload : Option ResultPayload
  eventsFile : EventsFile
  parameters : AuditParameters
  logs : LogEvidence
  /-- `endCoverage.actualLastDate` of the validation before the run. -/
  actualLastDate : Option String
  deriving DecidableEq

def AuditParameters.isChinaEquity (parameters : AuditParameters) : Bool :=
  ((firstText [parameters.assetClass, some "equity"]).toLower == "equity") &&
    ((firstText [parameters.market, parameters.venue]).toLower == "china")

/-- `initialCash or cash or 0` -/
def AuditParameters.startCash (parameters : AuditParameters) : ℚ :=
  (([parameters.initialCash, parameters.cash].filterMap id).find? (fun value => value != 0)).getD 0

structure Audit where
  gates : List Gate
  ledger : Option PositionReport
  contract : Option TrendContract
  deriving DecidableEq

/-- `all(gate["passed"] for gate in gates)` -/
def Audit.passed (audit : Audit) : Bool := audit.gates.all Gate.passed

/-- Whether the audit has a gate and it passed. -/
def Audit.gatePassed (audit : Audit) (name : String) : Bool :=
  audit.gates.any (fun gate => gate.name == name && gate.passed)

/-- The gates of every run. -/
def commonGates (input : AuditInput) (payload : ResultPayload) : List Gate :=
  let completedDate := firstText [input.logs.completedDate, payload.lastEquityDate]
  let expectedEnd := firstText [input.actualLastDate, input.parameters.endDate]
  [⟨"lean_runtime_error", payload.runtimeError == ""⟩,
   ⟨"lean_log_errors", input.logs.errorCount == 0⟩,
   ⟨"result_analysis_complete", payload.endEquity.isSome && payload.drawdown.isSome⟩,
   ⟨"positive_end_equity", payload.endEquity.any (fun equity => 0 < equity)⟩,
   ⟨"drawdown_not_over_100pct", payload.drawdown.any (fun drawdown => drawdown ≤ 1)⟩,
   ⟨"backtest_reached_data_end",
    completedDate != "" && (expectedEnd == "" || decide (expectedEnd ≤ completedDate))⟩]

def chinaGates (input : AuditInput) (ledger : PositionReport) : List Gate :=
  [⟨"ashare_no_short_positions", ledger.negativePositions.isEmpty⟩,
   ⟨"ashare_no_oversell", ledger.oversells.isEmpty⟩,
   ⟨"ashare_cash_account", input.logs.cashAccountConfigured⟩]

def trendGates (input : AuditInput) (contract : TrendContract) : List Gate :=
  [⟨"ashare_next_open_execution",
    input.logs.trendNextOpenContract && contract.nextOpenViolations.isEmpty⟩,
   ⟨"ashare_t_plus_one", contract.tPlusOneViolations.isEmpty⟩]

/-- `audit_backtest_execution` -/
def auditBacktestExecution (input : AuditInput) : Audit :=
  match input.payload with
  | none => ⟨[⟨"result_payload_readable", false⟩], none, none⟩
  | some payload =>
    let events := filledEvents input.eventsFile payload.orders
    let ledger := positionAndCash events input.parameters.startCash
    let common := commonGates input payload
    if input.parameters.isChinaEquity then
      if input.parameters.strategyTemplateKey = some "ashare_trend_pullback_portfolio" then
        let contract := trendOrderContract payload.orders events
        ⟨common ++ chinaGates input ledger ++ trendGates input contract, some ledger, some contract⟩
      else ⟨common ++ chinaGates input ledger, some ledger, none⟩
    else ⟨common, some ledger, none⟩

end LocalPlatform.Backtest
