import LocalPlatform.Paper.Lifecycle

/-!
# Capture of LEAN orders

The first phase of `_process_v2_lean_intents`: every order event of a run
becomes an intent.  Two identities guard `paper_order_intents`.

* The idempotency key is a digest over the session, the run, the LEAN order
  identifier and the normalized order.  `record_intent` looks it up and
  returns the stored intent when it finds one.
* The event key is a digest over the content of the event, without the LEAN
  order identifier.  Nothing looks it up: it is only a unique constraint.

`recordIntent` can therefore do three things: skip, fail on the event key, or
create an intent and its first transition, in two transactions.  The three
lemmas `recordIntent_existing`, `recordIntent_conflict` and
`recordIntent_created` are all that later proofs know about it.
-/

namespace LocalPlatform.Paper

open Transaction

/-! ## Orders -/

/-- The child backtest of a run.  `strategyFingerprint` is what
`_strategy_fingerprint` reads from its record. -/
structure Child where
  id : String
  strategyFingerprint : Option String
  deriving DecidableEq

/-- `str(order.get("time") or order.get("lastFillTime") or "")` -/
def LeanOrder.eventTime (order : LeanOrder) : String :=
  firstText [order.time, order.lastFillTime]

/-- `float(order.get("price") or order.get("fillPrice") or 0)` -/
def LeanOrder.eventPrice (order : LeanOrder) : ℚ := firstNumber [order.price, order.fillPrice]

/-- `_order_event_key` -/
def orderEventKey (order : LeanOrder) : EventKey where
  payload :=
    { time := order.eventTime
      symbol := firstText [order.symbol]
      side := upper (firstText [order.side])
      quantity := round8 (firstNumber [order.quantity])
      price := round8 order.eventPrice
      status := lower (firstText [order.status]) }

/-- `_order_trade_date` -/
def orderTradeDate (order : LeanOrder) : String :=
  if 10 ≤ order.eventTime.length then String.ofList (order.eventTime.toList.take 10) else ""

/-- `str(order.get("orderId") or order.get("id") or order.get("order_id") or event_key)` -/
def leanOrderKey (order : LeanOrder) : LeanOrderKey :=
  match textOrNone (firstText [order.orderId.map LeanId.str, order.id.map LeanId.str,
    order.order_id.map LeanId.str]) with
  | some id => .given id
  | none => .event (orderEventKey order)

/-! ## `record_intent` -/

/-- The arguments of `record_intent`. -/
structure IntentRequest where
  sessionId : SessionId
  paperRunId : RunId
  backtestRunId : String
  eventKey : EventKey
  tradeDate : String
  symbol : String
  side : String
  quantity : ℚ
  requestedPrice : Option ℚ
  rawIntent : LeanOrder
  attempt : Nat := 1
  leanOrderId : Option LeanOrderKey := none
  projectSnapshotId : Option String := none
  projectSnapshotHash : Option String := none
  strategyFingerprint : Option String := none
  orderType : String := "market"
  limitPrice : Option ℚ := none
  stopPrice : Option ℚ := none
  signalTime : Option String := none
  requestedExecutionTime : Option String := none
  datasetVersion : Option String := none
  universeVersion : Option String := none
  constraintVersion : String := "paper-constraints-v2"
  account : AccountContext := {}

/-- `lean_order_id or event_key` -/
def IntentRequest.leanOrder (request : IntentRequest) : LeanOrderKey :=
  match request.leanOrderId with
  | none => .event request.eventKey
  | some (.given id) => if id = "" then .event request.eventKey else .given id
  | some (.event key) => .event key

/-- The idempotency key of a request. -/
def IntentRequest.identity (request : IntentRequest) : Digest IntentIdentity where
  payload :=
    { sessionId := request.sessionId
      tradeDate := request.tradeDate
      projectSnapshotHash := firstText
        [request.projectSnapshotHash, request.projectSnapshotId, some "missing"]
      logicalPaperRunId := request.paperRunId
      leanOrderId := request.leanOrder
      normalizedOrder :=
        { symbol := upper request.symbol
          side := lower request.side
          quantity := |request.quantity|
          orderType := lower request.orderType
          limitPrice := request.limitPrice
          stopPrice := request.stopPrice
          signalTime := request.signalTime
          requestedExecutionTime := request.requestedExecutionTime } }

/-- The account columns of a cycle. -/
def CycleContext.account (cycle : CycleContext) : AccountContext where
  paperAccountId := some cycle.paperAccountId
  deploymentId := some cycle.deploymentId
  executionCycleId := some cycle.id
  accountGeneration := some cycle.accountGeneration

/-- `_account_context`: the cycle of the run, or else the latest active cycle
of the account behind the session on that date. -/
def accountContext (db : Db) (sessionId : SessionId) (paperRunId : RunId)
    (tradeDate : String) : AccountContext :=
  match db.cycles.find? (fun cycle => cycle.paperRunId == some paperRunId) with
  | some cycle => cycle.account
  | none =>
    match (db.cycles.filter (fun cycle => cycle.shadowSessionId == sessionId &&
        cycle.tradingDate == tradeDate &&
        (cycle.status == "running" || cycle.status == "finalizing"))).getLast? with
    | some cycle => cycle.account
    | none => {}

/-- `given or found`, column by column. -/
def AccountContext.resolve (given found : AccountContext) : AccountContext where
  paperAccountId := (given.paperAccountId.filter (· ≠ "")) <|> found.paperAccountId
  deploymentId := (given.deploymentId.filter (· ≠ "")) <|> found.deploymentId
  executionCycleId := (given.executionCycleId.filter (· ≠ "")) <|> found.executionCycleId
  accountGeneration := (given.accountGeneration.filter (· ≠ 0)) <|> found.accountGeneration

/-- The row that `record_intent` inserts. -/
def IntentRequest.row (request : IntentRequest) (db : Db) : Intent where
  id := db.intents.length
  sessionId := request.sessionId
  paperRunId := request.paperRunId
  backtestRunId := request.backtestRunId
  eventKey := request.eventKey
  idempotencyKey := request.identity
  correlationId := s!"{request.sessionId}:{request.paperRunId}"
  attempt := request.attempt
  tradeDate := request.tradeDate
  symbol := request.symbol
  side := request.side
  quantity := request.quantity
  requestedPrice := request.requestedPrice
  rawIntent := request.rawIntent
  leanOrderId := request.leanOrder
  projectSnapshotId := request.projectSnapshotId
  projectSnapshotHash := request.projectSnapshotHash
  strategyFingerprint := request.strategyFingerprint
  orderType := lower request.orderType
  limitPrice := request.limitPrice
  stopPrice := request.stopPrice
  signalTime := request.signalTime
  requestedExecutionTime := request.requestedExecutionTime
  datasetVersion := request.datasetVersion
  universeVersion := request.universeVersion
  constraintVersion := request.constraintVersion
  account := request.account.resolve
    (accountContext db request.sessionId request.paperRunId request.tradeDate)

/-- The stored intent of a session with an idempotency key. -/
def findIntent (db : Db) (sessionId : SessionId) (key : Digest IntentIdentity) : Option Intent :=
  db.intents.find? (fun intent => intent.sessionId == sessionId && intent.idempotencyKey == key)

/-- Whether a session has an intent with an event key. -/
def eventKeyUsed (db : Db) (sessionId : SessionId) (key : EventKey) : Bool :=
  db.intents.any (fun intent => intent.sessionId == sessionId && intent.eventKey == key)

/-- The first transaction of `record_intent`.  The flag says whether the intent
is new.  `unique(session_id, idempotency_key)` cannot fail after the lookup. -/
def insertIntent (request : IntentRequest) (db : Db) : Except PaperError ((Intent × Bool) × Db) :=
  match findIntent db request.sessionId request.identity with
  | some existing => .ok ((existing, false), db)
  | none =>
    if eventKeyUsed db request.sessionId request.eventKey then
      .error (.integrityError "unique(session_id, event_key)")
    else
      let row := request.row db
      .ok ((row, true), { db with intents := db.intents ++ [row] })

/-- `record_intent` -/
def recordIntent (request : IntentRequest) : TxM Db PaperError Intent := do
  let (intent, created) ← TxM.tx (insertIntent request)
  if created then
    let _ ← TxM.tx (appendTransition intent.id "INTENT_CREATED" "intent_captured"
      "intent_created" (.captured request.eventKey))
    TxM.read (fun db => .ok ((getIntent db intent.id).getD intent))
  else
    pure intent

/-! ## The capture loop -/

/-- An entry of the list `captured`. -/
structure Captured where
  intent : Intent
  order : LeanOrder
  eventKey : EventKey
  price : ℚ
  deriving DecidableEq

/-- The call of `record_intent` for one order of a run. -/
def intentRequest (session : Session) (paperRunId : RunId) (child : Child)
    (order : LeanOrder) : IntentRequest where
  sessionId := session.id
  paperRunId := paperRunId
  backtestRunId := child.id
  eventKey := orderEventKey order
  tradeDate := orderTradeDate order
  symbol := upper (firstText [order.symbol, some session.symbol])
  side := lower (firstText [order.side])
  quantity := |firstNumber [order.quantity]|
  requestedPrice := some order.eventPrice
  rawIntent := order
  attempt := 1
  leanOrderId := some (leanOrderKey order)
  projectSnapshotId := session.parameters.textOrNone "strategySnapshotDir"
  projectSnapshotHash := session.parameters.textOrNone "strategySnapshotHash" <|>
    session.parameters.textOrNone "parameterHash"
  strategyFingerprint := child.strategyFingerprint
  orderType := firstText [order.orderType, order.type, some "market"]
  limitPrice := order.limitPrice
  stopPrice := order.stopPrice
  signalTime := textOrNone (firstText [order.signalTime, order.time])
  requestedExecutionTime := textOrNone (firstText [order.requestedExecutionTime, order.time])
  datasetVersion := session.parameters.textOrNone "datasetVersion" <|>
    session.parameters.textOrNone "dataset_version"
  universeVersion := session.parameters.textOrNone "universeVersion" <|>
    session.parameters.textOrNone "universe_version"

/-- One round of the capture loop. -/
def captureOrder (session : Session) (paperRunId : RunId) (child : Child) (order : LeanOrder) :
    TxM Db PaperError Captured := do
  let intent ← recordIntent (intentRequest session paperRunId child order)
  pure { intent := intent, order := order, eventKey := orderEventKey order,
         price := order.eventPrice }

def captureOrders (session : Session) (paperRunId : RunId) (child : Child)
    (orders : List LeanOrder) : TxM Db PaperError (List Captured) :=
  TxM.forEach (captureOrder session paperRunId child) orders

/-! ## What `record_intent` can do -/

/-- An intent is named by its row number, and its transitions are a history. -/
structure IntentsOk (db : Db) : Prop where
  ids : ∀ n (h : n < db.intents.length), db.intents[n].id = n
  histories : HistoriesOk db

theorem intentsOk_empty : IntentsOk Db.empty := by
  refine ⟨?_, fun _ => historyOk_nil, ?_⟩
  · intro n h
    exact absurd h (Nat.not_lt_zero n)
  · intro i h
    exact absurd rfl h

variable {db : Db}

theorem IntentsOk.getIntent_eq (h : IntentsOk db) (i : IntentId) :
    getIntent db i = db.intents[i]? := by
  cases hfind : getIntent db i with
  | none =>
    rcases Nat.lt_or_ge i db.intents.length with hlt | hge
    · have hmiss := (List.find?_eq_none.mp hfind) db.intents[i] (List.getElem_mem hlt)
      rw [h.ids i hlt] at hmiss
      simp at hmiss
    · rw [List.getElem?_eq_none hge]
  | some intent =>
    obtain ⟨n, hn, hget⟩ := List.mem_iff_getElem.mp (List.mem_of_find?_eq_some hfind)
    have hid : n = i := by
      rw [← h.ids n hn, hget]
      exact getIntent_id hfind
    subst hid
    rw [List.getElem?_eq_getElem hn, hget]

theorem IntentsOk.transitions_fresh (h : IntentsOk db) : db.transitions db.intents.length = [] := by
  by_contra hrows
  have hstored := h.histories.stored _ hrows
  rw [h.getIntent_eq, List.getElem?_eq_none (Nat.le_refl _)] at hstored
  cases hstored

/-- The database after the first transaction of `record_intent`. -/
def Db.addIntent (db : Db) (request : IntentRequest) : Db :=
  { db with intents := db.intents ++ [request.row db] }

/-- The first transition of the intent that a request creates. -/
def firstTransition (request : IntentRequest) (db : Db) : Transition :=
  nextTransition (db.addIntent request) (request.row db) .intentCreated "intent_captured"
    "intent_created" (.captured request.eventKey)

/-- The database after both transactions of `record_intent`. -/
def Db.capture (db : Db) (request : IntentRequest) : Db :=
  (db.addIntent request).addTransition db.intents.length (firstTransition request db)

@[simp] theorem addIntent_intents (db : Db) (request : IntentRequest) :
    (db.addIntent request).intents = db.intents ++ [request.row db] := rfl

@[simp] theorem addIntent_transitions (db : Db) (request : IntentRequest) :
    (db.addIntent request).transitions = db.transitions := rfl

@[simp] theorem capture_intents (db : Db) (request : IntentRequest) :
    (db.capture request).intents = db.intents ++ [request.row db] := rfl

theorem IntentsOk.addIntent (h : IntentsOk db) (request : IntentRequest) :
    IntentsOk (db.addIntent request) := by
  have hids : ∀ n (hn : n < (db.addIntent request).intents.length),
      (db.addIntent request).intents[n].id = n := by
    intro n hn
    simp only [addIntent_intents, List.length_append, List.length_singleton] at hn ⊢
    rcases Nat.lt_or_ge n db.intents.length with hlt | hge
    · rw [List.getElem_append_left hlt]
      exact h.ids n hlt
    · have hlast : n = db.intents.length := by omega
      subst hlast
      simp [IntentRequest.row]
  refine ⟨hids, h.histories.history, ?_⟩
  intro i hrows
  obtain ⟨intent, hintent⟩ := Option.isSome_iff_exists.mp (h.histories.stored i hrows)
  rw [getIntent, addIntent_intents, List.find?_append, show db.intents.find? _ = some intent
    from hintent]
  rfl

theorem addIntent_getIntent (h : IntentsOk db) (request : IntentRequest) :
    getIntent (db.addIntent request) db.intents.length = some (request.row db) := by
  rw [(h.addIntent request).getIntent_eq]
  simp

theorem appendTransition_captured (h : IntentsOk db) (request : IntentRequest) :
    appendTransition (request.row db).id "INTENT_CREATED" "intent_captured" "intent_created"
        (.captured request.eventKey) (db.addIntent request) =
      .ok (firstTransition request db, db.capture request) := by
  have hrows := h.transitions_fresh
  have hlatest : currentState (db.addIntent request) db.intents.length = none := by
    simp [currentState, latestTransition, hrows]
  show appendTransition db.intents.length (OrderState.name .intentCreated) _ _ _ _ = _
  refine appendTransition_fresh (addIntent_getIntent h request) ?_ ?_
  · intro r hr
    rw [addIntent_transitions, hrows] at hr
    cases hr
  · rw [hlatest]
    exact List.mem_singleton_self _

theorem IntentsOk.capture (h : IntentsOk db) (request : IntentRequest) :
    IntentsOk (db.capture request) :=
  ⟨(h.addIntent request).ids,
    appendTransition_historiesOk (h.addIntent request).histories
      (appendTransition_captured h request)⟩

variable {request : IntentRequest}

theorem recordIntent_existing {intent : Intent}
    (h : findIntent db request.sessionId request.identity = some intent) :
    TxM.Skips (recordIntent request) db intent := by
  have hinsert : insertIntent request db = .ok ((intent, false), db) := by
    simp only [insertIntent, h]
  have hrun : TxM.tx (insertIntent request) db =
      { commits := [db], state := db, value := .ok (intent, false) } := by
    simp only [TxM.tx, hinsert]
  unfold TxM.Skips recordIntent
  rw [TxM.bind_ok (a := (intent, false)) (by rw [hrun]), hrun]
  exact ⟨rfl, rfl⟩

theorem recordIntent_conflict (hnew : findIntent db request.sessionId request.identity = none)
    (hused : eventKeyUsed db request.sessionId request.eventKey = true) :
    recordIntent request db =
      { commits := [], state := db,
        value := .error (.integrityError "unique(session_id, event_key)") } := by
  have hrun : TxM.tx (insertIntent request) db =
      { commits := [], state := db,
        value := .error (.integrityError "unique(session_id, event_key)") } := by
    simp only [TxM.tx, insertIntent, hnew, hused, if_pos]
  unfold recordIntent
  rw [TxM.bind_error (by rw [hrun]), hrun]

theorem recordIntent_created (hdb : IntentsOk db)
    (hnew : findIntent db request.sessionId request.identity = none)
    (hfree : eventKeyUsed db request.sessionId request.eventKey = false) :
    recordIntent request db =
      { commits := [db.addIntent request, db.capture request], state := db.capture request,
        value := .ok (request.row db) } := by
  have hinsert : TxM.tx (insertIntent request) db =
      { commits := [db.addIntent request], state := db.addIntent request,
        value := .ok (request.row db, true) } := by
    simp only [TxM.tx, insertIntent, hnew, hfree, Bool.false_eq_true, if_false]
    rfl
  have hfirst : TxM.tx (appendTransition (request.row db).id "INTENT_CREATED" "intent_captured"
      "intent_created" (.captured request.eventKey)) (db.addIntent request) =
      { commits := [db.capture request], state := db.capture request,
        value := .ok (firstTransition request db) } := by
    simp only [TxM.tx, appendTransition_captured hdb]
  have hget : getIntent (db.capture request) (request.row db).id = some (request.row db) :=
    addIntent_getIntent hdb request
  unfold recordIntent
  rw [TxM.bind_ok (a := (request.row db, true)) (by rw [hinsert]), hinsert]
  simp only [if_true]
  rw [TxM.bind_ok (a := firstTransition request db) (by rw [hfirst]), hfirst]
  simp only [TxM.read, hget, Option.getD_some, List.append_nil, List.singleton_append]

/-! ## Orders with distinct identifiers -/

section CaptureLoop

variable (session : Session) (paperRunId : RunId) (child : Child)

theorem intentRequest_leanOrder (order : LeanOrder) :
    (intentRequest session paperRunId child order).leanOrder = leanOrderKey order := by
  simp only [IntentRequest.leanOrder, intentRequest, leanOrderKey, textOrNone]
  split_ifs with hempty
  · rfl
  · simp only [hempty, if_false]

variable {session paperRunId child} {order : LeanOrder}

theorem intentRequest_identity_ne {order' : LeanOrder}
    (h : leanOrderKey order ≠ leanOrderKey order') :
    (intentRequest session paperRunId child order).identity ≠
      (intentRequest session paperRunId child order').identity := by
  intro heq
  apply h
  have hkeys := congrArg (fun d => d.payload.leanOrderId) heq
  simpa only [IntentRequest.identity, intentRequest_leanOrder] using hkeys

variable (session paperRunId child) in
/-- The stored intent of an order, if the order is captured. -/
def capturedIntent (db : Db) (order : LeanOrder) : Option Intent :=
  findIntent db session.id (intentRequest session paperRunId child order).identity

variable (session paperRunId child) in
def uncaptured (db : Db) (orders : List LeanOrder) : List LeanOrder :=
  orders.filter (fun order => (capturedIntent session paperRunId child db order).isNone)

variable (session paperRunId child) in
/-- The event keys of the orders not captured yet are pairwise different, and
no intent of the session carries one of them. -/
def EventKeysFree (db : Db) (orders : List LeanOrder) : Prop :=
  ((uncaptured session paperRunId child db orders).map orderEventKey).Nodup ∧
    ∀ order ∈ uncaptured session paperRunId child db orders,
      eventKeyUsed db session.id (orderEventKey order) = false

theorem capturedIntent_capture (db : Db) (request : IntentRequest) (order : LeanOrder) :
    capturedIntent session paperRunId child (db.capture request) order =
      (capturedIntent session paperRunId child db order).or
        (if request.sessionId = session.id ∧
            request.identity = (intentRequest session paperRunId child order).identity
          then some (request.row db) else none) := by
  simp only [capturedIntent, findIntent, capture_intents, List.find?_append, List.find?_cons,
    List.find?_nil]
  congr 1
  split_ifs with hsame
  · have hrow : ((request.row db).sessionId == session.id &&
        (request.row db).idempotencyKey ==
          (intentRequest session paperRunId child order).identity) = true := by
      simpa [IntentRequest.row] using hsame
    rw [hrow]
  · have hrow : ((request.row db).sessionId == session.id &&
        (request.row db).idempotencyKey ==
          (intentRequest session paperRunId child order).identity) = false := by
      simpa [IntentRequest.row] using hsame
    rw [hrow]

variable {db : Db}

theorem capturedIntent_self (h : capturedIntent session paperRunId child db order = none) :
    capturedIntent session paperRunId child
        (db.capture (intentRequest session paperRunId child order)) order =
      some ((intentRequest session paperRunId child order).row db) := by
  rw [capturedIntent_capture, h, if_pos ⟨rfl, rfl⟩, Option.none_or]

theorem capturedIntent_other (db : Db) {order' : LeanOrder}
    (h : leanOrderKey order ≠ leanOrderKey order') :
    capturedIntent session paperRunId child
        (db.capture (intentRequest session paperRunId child order)) order' =
      capturedIntent session paperRunId child db order' := by
  rw [capturedIntent_capture, if_neg, Option.or_none]
  rintro ⟨-, hidentity⟩
  exact intentRequest_identity_ne h hidentity

theorem eventKeyUsed_capture (db : Db) (order : LeanOrder) (key : EventKey) :
    eventKeyUsed (db.capture (intentRequest session paperRunId child order)) session.id key =
      (eventKeyUsed db session.id key || orderEventKey order == key) := by
  simp [eventKeyUsed, IntentRequest.row, intentRequest]

variable {orders : List LeanOrder}

theorem uncaptured_capture (db : Db) (h : ∀ other ∈ orders, leanOrderKey order ≠ leanOrderKey other) :
    uncaptured session paperRunId child
        (db.capture (intentRequest session paperRunId child order)) orders =
      uncaptured session paperRunId child db orders := by
  apply List.filter_congr
  intro other hother
  rw [capturedIntent_other db (h other hother)]

theorem eventKeysFree_cons_existing (h : (capturedIntent session paperRunId child db order).isSome) :
    EventKeysFree session paperRunId child db (order :: orders) ↔
      EventKeysFree session paperRunId child db orders := by
  have hskip : uncaptured session paperRunId child db (order :: orders) =
      uncaptured session paperRunId child db orders := by
    rw [uncaptured, List.filter_cons_of_neg (by simp [Option.isNone_iff_eq_none,
      Option.isSome_iff_ne_none.mp h])]
    rfl
  simp only [EventKeysFree, hskip]

theorem eventKeysFree_cons_new (hids : ∀ other ∈ orders, leanOrderKey order ≠ leanOrderKey other)
    (hnew : capturedIntent session paperRunId child db order = none) :
    EventKeysFree session paperRunId child db (order :: orders) ↔
      eventKeyUsed db session.id (orderEventKey order) = false ∧
        EventKeysFree session paperRunId child
          (db.capture (intentRequest session paperRunId child order)) orders := by
  have hcons : uncaptured session paperRunId child db (order :: orders) =
      order :: uncaptured session paperRunId child db orders := by
    rw [uncaptured, List.filter_cons_of_pos (by simp [hnew])]
    rfl
  simp only [EventKeysFree, hcons, uncaptured_capture db hids,
    List.map_cons, List.nodup_cons, List.forall_mem_cons, eventKeyUsed_capture,
    Bool.or_eq_false_iff, beq_eq_false_iff_ne, List.mem_map, not_exists, not_and]
  constructor
  · rintro ⟨⟨hdiff, hnodup⟩, hfree, hrest⟩
    exact ⟨hfree, hnodup, fun other hother =>
      ⟨hrest other hother, fun hsame => hdiff other hother hsame.symm⟩⟩
  · rintro ⟨hfree, hnodup, hrest⟩
    exact ⟨⟨fun other hother hsame => (hrest other hother).2 hsame.symm, hnodup⟩, hfree,
      fun other hother => (hrest other hother).1⟩

/-- The entry of `captured` for an order and its intent. -/
def capturedItem (order : LeanOrder) (intent : Intent) : Captured where
  intent := intent
  order := order
  eventKey := orderEventKey order
  price := order.eventPrice

theorem captureOrder_existing {intent : Intent}
    (h : capturedIntent session paperRunId child db order = some intent) :
    TxM.Skips (captureOrder session paperRunId child order) db (capturedItem order intent) := by
  have hskip : TxM.Skips (recordIntent (intentRequest session paperRunId child order)) db intent :=
    recordIntent_existing h
  exact hskip.bind ⟨rfl, rfl⟩

theorem captureOrder_conflict (hnew : capturedIntent session paperRunId child db order = none)
    (hused : eventKeyUsed db session.id (orderEventKey order) = true) :
    (captureOrder session paperRunId child order db).value =
      .error (.integrityError "unique(session_id, event_key)") := by
  have hrecord : recordIntent (intentRequest session paperRunId child order) db = _ :=
    recordIntent_conflict hnew hused
  rw [captureOrder, TxM.bind_error (by rw [hrecord])]

theorem captureOrder_created (hdb : IntentsOk db)
    (hnew : capturedIntent session paperRunId child db order = none)
    (hfree : eventKeyUsed db session.id (orderEventKey order) = false) :
    (captureOrder session paperRunId child order db).value =
        .ok (capturedItem order ((intentRequest session paperRunId child order).row db)) ∧
      (captureOrder session paperRunId child order db).state =
        db.capture (intentRequest session paperRunId child order) := by
  have hrecord : recordIntent (intentRequest session paperRunId child order) db = _ :=
    recordIntent_created hdb hnew hfree
  rw [captureOrder, TxM.bind_ok (by rw [hrecord]), hrecord]
  exact ⟨rfl, rfl⟩

theorem captureOrders_returns_iff (orders : List LeanOrder) :
    ∀ db : Db, IntentsOk db → (orders.map leanOrderKey).Nodup →
      ((∃ captured, (captureOrders session paperRunId child orders db).value = .ok captured) ↔
        EventKeysFree session paperRunId child db orders) := by
  induction orders with
  | nil =>
    intro db _ _
    simp [captureOrders, TxM.forEach, TxM.pure_run, EventKeysFree, uncaptured]
  | cons order orders ih =>
    intro db hdb hids
    obtain ⟨hne, hnodup⟩ := List.nodup_cons.mp hids
    have hids' : ∀ other ∈ orders, leanOrderKey order ≠ leanOrderKey other := by
      intro other hother heq
      exact hne (heq ▸ List.mem_map_of_mem (f := leanOrderKey) hother)
    simp only [captureOrders, TxM.forEach_cons_ok_iff]
    cases hcaptured : capturedIntent session paperRunId child db order with
    | some intent =>
      have hskip := captureOrder_existing hcaptured
      rw [eventKeysFree_cons_existing (by rw [hcaptured]; rfl),
        ← ih db hdb hnodup, hskip.1, hskip.2]
      constructor
      · rintro ⟨_, _, rest, -, hrest, -⟩
        exact ⟨rest, hrest⟩
      · rintro ⟨rest, hrest⟩
        exact ⟨_, _, rest, rfl, hrest, rfl⟩
    | none =>
      rw [eventKeysFree_cons_new hids' hcaptured]
      cases hused : eventKeyUsed db session.id (orderEventKey order) with
      | true =>
        simp [captureOrder_conflict hcaptured hused]
      | false =>
        obtain ⟨hvalue, hstate⟩ := captureOrder_created hdb hcaptured hused
        rw [← ih _ (hdb.capture _) hnodup, hvalue, hstate]
        constructor
        · rintro ⟨_, _, rest, -, hrest, -⟩
          exact ⟨rfl, rest, hrest⟩
        · rintro ⟨-, rest, hrest⟩
          exact ⟨_, _, rest, rfl, hrest, rfl⟩

theorem capturedIntent_append {db' : Db} {rows : List Intent} {intent : Intent}
    (hrows : db'.intents = db.intents ++ rows)
    (h : capturedIntent session paperRunId child db order = some intent) :
    capturedIntent session paperRunId child db' order = some intent := by
  rw [capturedIntent, findIntent] at h ⊢
  rw [hrows, List.find?_append, h, Option.some_or]

theorem captureOrders_items (orders : List LeanOrder) :
    ∀ (db : Db) (captured : List Captured), IntentsOk db →
      (captureOrders session paperRunId child orders db).value = .ok captured →
      let after := (captureOrders session paperRunId child orders db).state
      IntentsOk after ∧ (∃ rows, after.intents = db.intents ++ rows) ∧
        List.Forall₂ (fun order item =>
          ∃ intent, capturedIntent session paperRunId child after order = some intent ∧
            item = capturedItem order intent) orders captured := by
  induction orders with
  | nil =>
    intro db captured hdb h
    have hnil : captured = [] := (Except.ok.inj h).symm
    subst hnil
    exact ⟨hdb, ⟨[], by simp [captureOrders, TxM.forEach, TxM.pure_run]⟩, .nil⟩
  | cons order orders ih =>
    intro db captured hdb h
    obtain ⟨item, rest, hitem, hrest, rfl⟩ := TxM.forEach_cons_ok_iff.mp h
    intro after
    have hafter : after = (captureOrders session paperRunId child orders
        (captureOrder session paperRunId child order db).state).state :=
      TxM.forEach_cons_state hitem
    rw [hafter]
    cases hcaptured : capturedIntent session paperRunId child db order with
    | some intent =>
      have hskip := captureOrder_existing hcaptured
      rw [hskip.1] at hitem
      rw [hskip.2] at hrest ⊢
      obtain ⟨hok, ⟨rows, hrows⟩, hitems⟩ := ih db rest hdb hrest
      refine ⟨hok, ⟨rows, hrows⟩, .cons ⟨intent, ?_, (Except.ok.inj hitem).symm⟩ hitems⟩
      exact capturedIntent_append hrows hcaptured
    | none =>
      cases hused : eventKeyUsed db session.id (orderEventKey order) with
      | true =>
        rw [captureOrder_conflict hcaptured hused] at hitem
        cases hitem
      | false =>
        obtain ⟨hvalue, hstate⟩ := captureOrder_created hdb hcaptured hused
        rw [hvalue] at hitem
        rw [hstate] at hrest ⊢
        obtain ⟨hok, ⟨rows, hrows⟩, hitems⟩ := ih _ rest (hdb.capture _) hrest
        refine ⟨hok, ⟨(intentRequest session paperRunId child order).row db :: rows, ?_⟩,
          .cons ⟨_, ?_, (Except.ok.inj hitem).symm⟩ hitems⟩
        · rw [hrows, capture_intents, List.append_assoc, List.singleton_append]
        · exact capturedIntent_append hrows
            (capturedIntent_self hcaptured)

theorem captureOrders_length (orders : List LeanOrder) :
    ∀ (db : Db) (captured : List Captured), IntentsOk db → (orders.map leanOrderKey).Nodup →
      (captureOrders session paperRunId child orders db).value = .ok captured →
      (captureOrders session paperRunId child orders db).state.intents.length =
        db.intents.length + (uncaptured session paperRunId child db orders).length := by
  induction orders with
  | nil =>
    intro db captured _ _ _
    simp [captureOrders, TxM.forEach, TxM.pure_run, uncaptured]
  | cons order orders ih =>
    intro db captured hdb hids h
    obtain ⟨hne, hnodup⟩ := List.nodup_cons.mp hids
    have hids' : ∀ other ∈ orders, leanOrderKey order ≠ leanOrderKey other := by
      intro other hother heq
      exact hne (heq ▸ List.mem_map_of_mem (f := leanOrderKey) hother)
    obtain ⟨item, rest, hitem, hrest, rfl⟩ := TxM.forEach_cons_ok_iff.mp h
    have hafter : (captureOrders session paperRunId child (order :: orders) db).state =
        (captureOrders session paperRunId child orders
          (captureOrder session paperRunId child order db).state).state :=
      TxM.forEach_cons_state hitem
    rw [hafter]
    cases hcaptured : capturedIntent session paperRunId child db order with
    | some intent =>
      have hskip := captureOrder_existing hcaptured
      rw [hskip.2] at hrest ⊢
      rw [ih db rest hdb hnodup hrest, uncaptured, uncaptured,
        List.filter_cons_of_neg (by simp [hcaptured])]
    | none =>
      cases hused : eventKeyUsed db session.id (orderEventKey order) with
      | true =>
        rw [captureOrder_conflict hcaptured hused] at hitem
        cases hitem
      | false =>
        obtain ⟨hvalue, hstate⟩ := captureOrder_created hdb hcaptured hused
        rw [hstate] at hrest ⊢
        rw [ih _ rest (hdb.capture _) hnodup hrest,
          uncaptured_capture db hids', capture_intents,
          List.length_append, List.length_singleton, uncaptured, uncaptured,
          List.filter_cons_of_pos (by simp [hcaptured]), List.length_cons]
        omega

variable (session paperRunId child) in
/-- Every order of the list has an intent of its own, and a second pass over
the list returns the same intents and writes nothing. -/
structure CapturesEach (db : Db) (orders : List LeanOrder) (captured : List Captured) : Prop where
  returns : (captureOrders session paperRunId child orders db).value = .ok captured
  inOrder : captured.map Captured.order = orders
  distinct : (captured.map Captured.intent).Nodup
  stored : ∀ item ∈ captured,
    item.intent ∈ (captureOrders session paperRunId child orders db).state.intents
  created : (captureOrders session paperRunId child orders db).state.intents.length =
    db.intents.length + (uncaptured session paperRunId child db orders).length
  replay : TxM.Skips (captureOrders session paperRunId child orders)
    (captureOrders session paperRunId child orders db).state captured

theorem capturedIntent_mem {intent : Intent}
    (h : capturedIntent session paperRunId child db order = some intent) :
    intent ∈ db.intents ∧
      intent.idempotencyKey = (intentRequest session paperRunId child order).identity := by
  have hkey := List.find?_some h
  simp only [Bool.and_eq_true, beq_iff_eq] at hkey
  exact ⟨List.mem_of_find?_eq_some h, hkey.2⟩

theorem captureOrders_capturesEach {captured : List Captured} (hdb : IntentsOk db)
    (hids : (orders.map leanOrderKey).Nodup)
    (h : (captureOrders session paperRunId child orders db).value = .ok captured) :
    CapturesEach session paperRunId child db orders captured := by
  have hlength := captureOrders_length orders db captured hdb hids h
  obtain ⟨-, -, hitems⟩ := captureOrders_items orders db captured hdb h
  have horders : captured.map Captured.order = orders := by
    have hsame : List.Forall₂ (fun order item => item.order = order) orders captured :=
      hitems.imp (by rintro order _ ⟨intent, -, rfl⟩; rfl)
    rw [← List.forall₂_eq_eq_eq, List.forall₂_map_left_iff]
    exact hsame.flip
  have hitem : ∀ item ∈ captured, capturedIntent session paperRunId child
      (captureOrders session paperRunId child orders db).state item.order = some item.intent := by
    intro item hmem
    obtain ⟨n, hn, rfl⟩ := List.mem_iff_getElem.mp hmem
    obtain ⟨intent, hintent, heq⟩ := hitems.get (hitems.length_eq ▸ hn) hn
    simp only [List.get_eq_getElem] at hintent heq
    rw [heq]
    exact hintent
  refine ⟨h, horders, ?_, ?_, ?_, ?_⟩
  · -- Two entries with one intent would have one idempotency key.
    rw [← horders, List.map_map] at hids
    rw [List.Nodup, List.pairwise_map] at hids ⊢
    refine hids.imp_of_mem ?_
    intro a b ha hb hne heq
    apply intentRequest_identity_ne hne
    rw [← (capturedIntent_mem (hitem a ha)).2,
      ← (capturedIntent_mem (hitem b hb)).2, heq]
  · intro item hmem
    exact (capturedIntent_mem (hitem item hmem)).1
  · exact hlength
  · apply TxM.skips_forEach
    refine hitems.imp ?_
    rintro order _ ⟨intent, hintent, rfl⟩
    exact captureOrder_existing hintent

variable (session paperRunId child) in
/-- For orders with distinct LEAN identifiers, the loop captures each of them
once, and a replay creates nothing, exactly when the event keys are free. -/
theorem captureOrders_capturesEach_iff (db : Db) (orders : List LeanOrder) (hdb : IntentsOk db)
    (hids : (orders.map leanOrderKey).Nodup) :
    (∃ captured, CapturesEach session paperRunId child db orders captured) ↔
      EventKeysFree session paperRunId child db orders := by
  rw [← captureOrders_returns_iff orders db hdb hids]
  constructor
  · rintro ⟨captured, h⟩
    exact ⟨captured, h.returns⟩
  · rintro ⟨captured, h⟩
    exact ⟨captured, captureOrders_capturesEach hdb hids h⟩

end CaptureLoop

/-! ## Two orders with one content -/

/-- A session without parameters. -/
def plainSession : Session where
  id := "session"
  symbol := "600000"
  assetClass := "equity"
  venue := "china"
  status := "running"
  cash := 1000
  equity := 1000
  parameters := []
  sourceBacktestId := "source"
  startDate := some "2024-01-03"
  lastProcessedDate := none

/-- A buy of one hundred shares at ten, under a LEAN identifier. -/
def plainBuy (id : ℤ) (price : ℚ) : LeanOrder where
  time := some "2024-01-03T09:30:00Z"
  symbol := some "600000"
  side := some "buy"
  quantity := some 100
  price := some price
  status := some "filled"
  orderId := some (.num id)

/-- A sell of some shares, under a LEAN identifier. -/
def plainSell (id : ℤ) (quantity : ℚ) : LeanOrder where
  time := some "2024-01-04T09:30:00Z"
  symbol := some "600000"
  side := some "sell"
  quantity := some quantity
  price := some 10
  status := some "filled"
  orderId := some (.num id)

/-- The buys of one run at two prices are both captured. -/
theorem capture_two_prices :
    (∃ captured, CapturesEach plainSession "run" ⟨"child", none⟩ Db.empty
      [plainBuy 1 10, plainBuy 2 11] captured) ↔
      EventKeysFree plainSession "run" ⟨"child", none⟩ Db.empty [plainBuy 1 10, plainBuy 2 11] :=
  captureOrders_capturesEach_iff _ _ _ Db.empty _ intentsOk_empty (by decide +kernel)

/-- Two orders that LEAN numbers 1 and 2, with one content: the second one
violates the unique constraint on the event key. -/
theorem capture_same_content_raises :
    ([plainBuy 1 10, plainBuy 2 10].map leanOrderKey).Nodup ∧
      ¬ ∃ captured, CapturesEach plainSession "run" ⟨"child", none⟩ Db.empty
        [plainBuy 1 10, plainBuy 2 10] captured := by
  refine ⟨by decide +kernel, ?_⟩
  rintro ⟨captured, h⟩
  have hraises : (captureOrders plainSession "run" ⟨"child", none⟩
      [plainBuy 1 10, plainBuy 2 10] Db.empty).value =
        .error (.integrityError "unique(session_id, event_key)") := by
    decide +kernel
  rw [h.returns] at hraises
  cases hraises

end LocalPlatform.Paper
