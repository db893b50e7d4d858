import LocalPlatform.Lib.JsonText
import LocalPlatform.Lib.Rows
import LocalPlatform.Paper.Values
import Mathlib.Data.Prod.Lex

/-!
# Broker reconciliation

`reconcile_broker_history` derives orders from two envelopes of broker records: observations of
orders, and fills.

* Observations are deduplicated by their canonical text, and fills by their `fillId`, where the
  first one seen stays.
* The last observation of an order by time, rank of the status and canonical text is its latest
  one, and its status is corrected by the sum of its fills (`reconciledStatus`).
* `complete` and `economicsProven` are computed from the envelopes, the errors, the orphan fills
  and the fees.

A record is an object of scalars.  Sums are rounded to 28 digits, as the default decimal context
does, and exponents are not bounded.  The fingerprint of the snapshot is left out.
-/

namespace LocalPlatform.Broker

open JsonText Paper Tables

/-! ## Envelopes -/

structure BrokerSourceError where
  source : String
  code : String
  message : String
  retryable : Bool
  deriving DecidableEq

/-- `BrokerQueryEnvelope`; one with source errors cannot be complete. -/
structure BrokerQueryEnvelope where
  adapterId : String
  operation : String
  account : String
  historyStart : Option String
  historyEnd : Option String
  complete : Bool
  records : List Object
  sourceErrors : List BrokerSourceError
  completeness : complete = true → sourceErrors = []

/-! ## Fields -/

/-- `_canonical` -/
def canonical (record : Object) : String := record.json

/-- `bool(value)` -/
def truthy : Scalar → Bool
  | .null => false
  | .bool b => b
  | .number n => parseFloat n.text != some 0
  | .text s => s != ""

/-- `str(value)` -/
def str : Scalar → String
  | .null => "None"
  | .bool b => if b then "True" else "False"
  | .number n => n.text
  | .text s => s

/-- `str(value or default)` -/
def strOr (value : Scalar) (default : String) : String :=
  if truthy value then str value else default

/-- `Decimal(text)` when it is a finite number. -/
def parseDecimal (text : String) : Option ℚ :=
  let body := (strip text).toList.filter (· ≠ '_')
  if body.any Decimals.isSpace then none else parseFloat (String.ofList body)

/-- `_decimal` -/
def decimal (value : Scalar) : ℚ := (parseDecimal (str value)).getD 0

/-- The default decimal context keeps 28 digits. -/
def contextRound (x : ℚ) : ℚ :=
  let unit : ℚ := 10 ^ (Int.log 10 |x| - 27)
  if x = 0 then 0 else roundHalfEven (x / unit) * unit

/-- `broker_order_id` -/
def brokerOrderId (record : Object) : String := strip (strOr (record.get "brokerOrderId") "")

/-- `fill_id` -/
def fillId (record : Object) : String := strip (strOr (record.get "fillId") "")

def eventAtUtc (record : Object) : String := strOr (record.get "eventAtUtc") ""

def statusOf (record : Object) : String := upper (strOr (record.get "status") "UNKNOWN")

def quantityOf (record : Object) : ℚ := decimal (record.get "quantity")

def feeKnown (record : Object) : Bool := record.get "fee" != .null

/-- `_STATUS_RANK` -/
def statusRank (status : String) : Nat :=
  match status with
  | "UNKNOWN" => 0
  | "SUBMITTED" => 10
  | "ACKNOWLEDGED" => 20
  | "PARTIALLY_FILLED" => 30
  | "CANCEL_REQUESTED" => 40
  | "CANCELLED" => 50
  | "CANCELED" => 50
  | "REJECTED" => 60
  | "FILLED" => 70
  | _ => 0

/-- `_TERMINAL_CANCELLED` -/
def terminalCancelled : List String := ["CANCELLED", "CANCELED"]

/-- The key by which the observations of an order are sorted. -/
def eventRank (record : Object) : String ×ₗ Nat ×ₗ String :=
  toLex (eventAtUtc record, toLex (statusRank (statusOf record), canonical record))

/-- The key by which the fills of an order are sorted. -/
def fillRank (record : Object) : String ×ₗ String :=
  toLex (eventAtUtc record, strOr (record.get "fillId") "")

/-! ## Deduplication -/

/-- `unique_order_events` -/
def uniqueOrderEvents (records : List Object) : List Object := uniqueFirst canonical records

/-- The values of `events_by_order`, one after the other. -/
def orderEvents (records : List Object) : List Object :=
  (uniqueOrderEvents records).filter (fun record => brokerOrderId record != "")

def identified (records : List Object) : List Object :=
  records.filter (fun record => fillId record != "")

/-- `anonymous_fills` -/
def anonymousFills (records : List Object) : List Object :=
  records.filter (fun record => fillId record == "")

/-- `unique_fills.values()` -/
def uniqueFills (records : List Object) : List Object := uniqueFirst fillId (identified records)

def fillIdMissing (source : String) : BrokerSourceError where
  source := source
  code := "fill_id_missing"
  message := "broker fill has no stable fillId"
  retryable := false

def conflictingFillDuplicate (source fillId : String) : BrokerSourceError where
  source := source
  code := "conflicting_fill_duplicate"
  message := s!"broker fillId {fillId} has conflicting duplicate observations"
  retryable := false

def brokerOrderIdMissing (source : String) : BrokerSourceError where
  source := source
  code := "broker_order_id_missing"
  message := "broker order observation has no stable brokerOrderId"
  retryable := false

/-- The error of a fill: it has no id, or the first fill with its id is another one. -/
def fillError (fills : BrokerQueryEnvelope) (record : Object) : Option BrokerSourceError :=
  if fillId record = "" then some (fillIdMissing fills.adapterId)
  else if (find fillId (identified fills.records) (fillId record)).map canonical ≠
      some (canonical record) then
    some (conflictingFillDuplicate fills.adapterId (fillId record))
  else none

/-- The error of an observation without an order id. -/
def eventError (orders : BrokerQueryEnvelope) (record : Object) : Option BrokerSourceError :=
  if brokerOrderId record = "" then some (brokerOrderIdMissing orders.adapterId) else none

/-- `deduped_errors` -/
def dedupedErrors (orders fills : BrokerQueryEnvelope) : List BrokerSourceError :=
  uniqueFirst id (orders.sourceErrors ++ fills.sourceErrors ++
    fills.records.filterMap (fillError fills) ++
    (uniqueOrderEvents orders.records).filterMap (eventError orders))

/-! ## Orders -/

/-- The status of an order after its fills. -/
def reconciledStatus (status : String) (orderQuantity fillQuantity : ℚ) : String :=
  if status ∈ terminalCancelled ∧ 0 < fillQuantity then "CANCELLED_PARTIAL"
  else if 0 < orderQuantity ∧ orderQuantity ≤ fillQuantity then "FILLED"
  else if 0 < fillQuantity ∧ status ∉ ["FILLED", "REJECTED"] then "PARTIALLY_FILLED"
  else status

/-- A reconciled order: the fields of the latest observation that are not overwritten, and those
that are. -/
structure ReconciledOrder where
  facts : Object
  status : String
  observedFillQuantity : ℚ
  fills : List Object
  deriving DecidableEq

def lifecycleOf (records : List Object) (orderId : String) : List Object :=
  orderBy eventRank ((orderEvents records).filter (fun record => brokerOrderId record == orderId))

/-- `order_fills` -/
def fillsOf (records : List Object) (orderId : String) : List Object :=
  orderBy fillRank ((uniqueFills records).filter (fun record => brokerOrderId record == orderId))

/-- `fill_quantity` -/
def fillQuantity (fills : List Object) : ℚ :=
  fills.foldl (fun total record => contextRound (total + quantityOf record)) 0

/-- The order of a latest observation and its fills. -/
def orderOf (latest : Object) (orderFills : List Object) : ReconciledOrder where
  facts := latest.without ["status", "observedFillQuantity", "fills"]
  status := reconciledStatus (statusOf latest) (quantityOf latest) (fillQuantity orderFills)
  observedFillQuantity := fillQuantity orderFills
  fills := orderFills

def reconcileOrder (orders fills : List Object) (orderId : String) : Option ReconciledOrder :=
  (lifecycleOf orders orderId).getLast?.map (fun latest => orderOf latest (fillsOf fills orderId))

/-- The keys of `events_by_order`, sorted. -/
def orderIds (records : List Object) : List String :=
  orderBy id (uniqueFirst id ((orderEvents records).map brokerOrderId))

/-- `reconciled_orders` -/
def reconciledOrders (orders fills : List Object) : List ReconciledOrder :=
  (orderIds orders).filterMap (reconcileOrder orders fills)

/-- The keys of `fills_by_order`, sorted. -/
def filledOrderIds (records : List Object) : List String :=
  orderBy id (uniqueFirst id ((uniqueFills records).map brokerOrderId))

/-- `orphan_fills` -/
def orphanFills (orders fills : List Object) : List Object :=
  ((filledOrderIds fills).filter (fun orderId => !(orderIds orders).contains orderId)).flatMap
      (fun orderId => (uniqueFills fills).filter (fun record => brokerOrderId record == orderId)) ++
    anonymousFills fills

/-! ## The snapshot -/

structure BrokerReconciliationSnapshot where
  account : String
  historyStart : Option String
  historyEnd : Option String
  complete : Bool
  economicsProven : Bool
  orders : List ReconciledOrder
  orphanFills : List Object
  rawOrders : List Object
  rawFills : List Object
  sourceErrors : List BrokerSourceError
  deriving DecidableEq

def sameWindow (orders fills : BrokerQueryEnvelope) : Bool :=
  orders.historyStart == fills.historyStart && orders.historyEnd == fills.historyEnd

/-- `complete` -/
def historyComplete (orders fills : BrokerQueryEnvelope) : Bool :=
  orders.complete && fills.complete && sameWindow orders fills &&
    (dedupedErrors orders fills).isEmpty && (orphanFills orders.records fills.records).isEmpty

/-- The snapshot of two envelopes. -/
def snapshotOf (orders fills : BrokerQueryEnvelope) : BrokerReconciliationSnapshot where
  account := orders.account
  historyStart := if sameWindow orders fills then orders.historyStart else none
  historyEnd := if sameWindow orders fills then orders.historyEnd else none
  complete := historyComplete orders fills
  economicsProven := historyComplete orders fills && (uniqueFills fills.records).all feeKnown
  orders := reconciledOrders orders.records fills.records
  orphanFills := orphanFills orders.records fills.records
  rawOrders := orders.records
  rawFills := fills.records
  sourceErrors := dedupedErrors orders fills

/-- The message of the error that the call raises, if any. -/
def rejection (orders fills : BrokerQueryEnvelope) : Option String :=
  if orders.operation ≠ "orders" ∨ fills.operation ≠ "fills" then
    some "reconciliation requires orders and fills envelopes"
  else if orders.account ≠ fills.account then
    some "reconciliation envelopes must belong to one account"
  else none

/-- `reconcile_broker_history` -/
def reconcileBrokerHistory (orders fills : BrokerQueryEnvelope) :
    Except String BrokerReconciliationSnapshot :=
  match rejection orders fills with
  | some message => .error message
  | none => .ok (snapshotOf orders fills)

def Reconcilable (orders fills : BrokerQueryEnvelope) : Prop :=
  orders.operation = "orders" ∧ fills.operation = "fills" ∧ orders.account = fills.account

theorem rejection_eq_none_iff {orders fills : BrokerQueryEnvelope} :
    rejection orders fills = none ↔ Reconcilable orders fills := by
  unfold rejection Reconcilable
  split_ifs with hoperation haccount
  · simp only [false_iff]
    intro h
    cases hoperation with
    | inl hne => exact hne h.1
    | inr hne => exact hne h.2.1
  · simp only [false_iff]
    exact fun h => haccount h.2.2
  · have hboth := not_or.mp hoperation
    simpa using ⟨not_not.mp hboth.1, not_not.mp hboth.2, not_not.mp haccount⟩

theorem reconcileBrokerHistory_eq_ok {orders fills : BrokerQueryEnvelope}
    {snapshot : BrokerReconciliationSnapshot} :
    reconcileBrokerHistory orders fills = .ok snapshot ↔
      Reconcilable orders fills ∧ snapshot = snapshotOf orders fills := by
  rw [reconcileBrokerHistory, ← rejection_eq_none_iff]
  cases rejection orders fills with
  | some message => simp
  | none => simp [eq_comm]

/-! ## Members -/

theorem canonical_injective : Function.Injective canonical := Object.json_injective

theorem eventRank_injective : Function.Injective eventRank := by
  intro a b h
  simp only [eventRank, EmbeddingLike.apply_eq_iff_eq, Prod.mk.injEq] at h
  exact canonical_injective h.2.2

variable {records : List Object} {record : Object}

theorem mem_uniqueOrderEvents : record ∈ uniqueOrderEvents records ↔ record ∈ records :=
  mem_uniqueFirst_of_inj (fun _ _ _ _ h => canonical_injective h)

theorem mem_orderEvents :
    record ∈ orderEvents records ↔ record ∈ records ∧ brokerOrderId record ≠ "" := by
  simp [orderEvents, mem_uniqueOrderEvents]

theorem mem_identified : record ∈ identified records ↔ record ∈ records ∧ fillId record ≠ "" := by
  simp [identified]

theorem mem_anonymousFills :
    record ∈ anonymousFills records ↔ record ∈ records ∧ fillId record = "" := by
  simp [anonymousFills]

theorem mem_of_uniqueFills (h : record ∈ uniqueFills records) :
    record ∈ records ∧ fillId record ≠ "" :=
  mem_identified.mp (mem_of_find (mem_uniqueFirst_iff.mp h))

variable {orderId : String}

theorem mem_orderIds :
    orderId ∈ orderIds records ↔ ∃ record ∈ orderEvents records, brokerOrderId record = orderId := by
  rw [orderIds, mem_orderBy, mem_uniqueFirst_id, List.mem_map]

theorem mem_lifecycleOf :
    record ∈ lifecycleOf records orderId ↔
      record ∈ orderEvents records ∧ brokerOrderId record = orderId := by
  simp [lifecycleOf, mem_orderBy]

theorem mem_fillsOf :
    record ∈ fillsOf records orderId ↔
      record ∈ uniqueFills records ∧ brokerOrderId record = orderId := by
  simp [fillsOf, mem_orderBy]

variable {orders fills : List Object}

theorem mem_reconciledOrders {order : ReconciledOrder} :
    order ∈ reconciledOrders orders fills ↔
      ∃ orderId ∈ orderIds orders, reconcileOrder orders fills orderId = some order :=
  List.mem_filterMap

theorem reconcileOrder_isSome (h : orderId ∈ orderIds orders) :
    ∃ order, reconcileOrder orders fills orderId = some order := by
  obtain ⟨record, hrecord, hid⟩ := mem_orderIds.mp h
  have hmem := mem_lifecycleOf.mpr ⟨hrecord, hid⟩
  cases hlast : (lifecycleOf orders orderId).getLast? with
  | none =>
    rw [List.getLast?_eq_none_iff] at hlast
    rw [hlast] at hmem
    cases hmem
  | some latest => exact ⟨_, by rw [reconcileOrder, hlast, Option.map_some]⟩

theorem reconcileOrder_fills {order : ReconciledOrder}
    (h : reconcileOrder orders fills orderId = some order) :
    order.fills = fillsOf fills orderId := by
  unfold reconcileOrder at h
  obtain ⟨latest, _, rfl⟩ := Option.map_eq_some_iff.mp h
  rfl

theorem mem_filledOrderIds :
    orderId ∈ filledOrderIds records ↔
      ∃ record ∈ uniqueFills records, brokerOrderId record = orderId := by
  rw [filledOrderIds, mem_orderBy, mem_uniqueFirst_id, List.mem_map]

theorem mem_orphanFills :
    record ∈ orphanFills orders fills ↔
      (record ∈ uniqueFills fills ∧ brokerOrderId record ∉ orderIds orders) ∨
        record ∈ anonymousFills fills := by
  rw [orphanFills, List.mem_append, List.mem_flatMap]
  apply or_congr_left
  constructor
  · intro h
    obtain ⟨orderId, hid, hrecord⟩ := h
    simp only [List.mem_filter, beq_iff_eq] at hid hrecord
    rw [hrecord.2]
    exact ⟨hrecord.1, by simpa using hid.2⟩
  · intro h
    refine ⟨brokerOrderId record, List.mem_filter.mpr ⟨?_, by simpa using h.2⟩, ?_⟩
    · exact mem_filledOrderIds.mpr ⟨record, h.1, rfl⟩
    · exact List.mem_filter.mpr ⟨h.1, by simp⟩

/-! ## Conflicts -/

def NoConflicts (records : List Object) : Prop :=
  ∀ a ∈ records, ∀ b ∈ records, fillId a ≠ "" → fillId a = fillId b → canonical a = canonical b

theorem NoConflicts.eq (h : NoConflicts records) {a b : Object} (ha : a ∈ records)
    (hb : b ∈ records) (hid : fillId a ≠ "") (hsame : fillId a = fillId b) : a = b :=
  canonical_injective (h a ha b hb hid hsame)

theorem NoConflicts.mem_uniqueFills (h : NoConflicts records) :
    record ∈ uniqueFills records ↔ record ∈ records ∧ fillId record ≠ "" := by
  rw [uniqueFills, mem_uniqueFirst_of_inj, mem_identified]
  intro a ha b hb hsame
  exact h.eq (mem_identified.mp ha).1 (mem_identified.mp hb).1 (mem_identified.mp ha).2 hsame

theorem NoConflicts.fillError {fills : BrokerQueryEnvelope} (h : NoConflicts fills.records)
    (hmem : record ∈ fills.records) :
    fillError fills record =
      if fillId record = "" then some (fillIdMissing fills.adapterId) else none := by
  unfold Broker.fillError
  split_ifs with hid hfind
  · rfl
  · have hfound : record ∈ uniqueFills fills.records := h.mem_uniqueFills.mpr ⟨hmem, hid⟩
    rw [mem_uniqueFirst_iff.mp hfound] at hfind
    exact absurd rfl hfind
  · rfl

/-! ## Samples -/

/-- A fill of one order. -/
def sampleFill (fillId quantity : String) : Object where
  fields := [("brokerOrderId", .text "order-1"), ("eventAtUtc", .text "2026-09-01T02:00:00Z"),
    ("fee", .text "1.00"), ("fillId", .text fillId), ("quantity", .text quantity)]
  sorted := by
    simp only [List.pairwise_cons, List.mem_cons, forall_eq_or_imp]
    decide +kernel

/-- An observation of that order. -/
def sampleOrder (status quantity : String) : Object where
  fields := [("brokerOrderId", .text "order-1"), ("eventAtUtc", .text "2026-09-01T01:00:00Z"),
    ("quantity", .text quantity), ("status", .text status)]
  sorted := by
    simp only [List.pairwise_cons, List.mem_cons, forall_eq_or_imp]
    decide +kernel

/-- An envelope of one day. -/
def sampleEnvelope (operation : String) (records : List Object) : BrokerQueryEnvelope where
  adapterId := "recorded"
  operation := operation
  account := "recorded:1"
  historyStart := some "2026-09-01"
  historyEnd := some "2026-09-01"
  complete := true
  records := records
  sourceErrors := []
  completeness := fun _ => rfl

end LocalPlatform.Broker
