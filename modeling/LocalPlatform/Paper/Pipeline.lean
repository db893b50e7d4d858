import LocalPlatform.Paper.Risk

/-!
# The processing of captured orders

`_process_v2_lean_intents` and the transactions it is made of.  The function
opens the ledger, refreshes the read model, captures the orders, takes each
captured intent through validation and matching, and completes a checkpoint
after each phase.

* The small transactions come first.
* `processIntent` is one round of the loop.  An intent that has left
  `INTENT_CREATED` is resumed: its stored order is read back.  Any other is
  validated and then rejected, expired or filled.
* The inversion lemmas say what each transaction can do to the database.  What
  a round does at each of its commits is said in terms of them.
-/

namespace LocalPlatform.Paper

open Transaction

/-! ## Transactions -/

/-- `get_session(id) or session` -/
def getSession (session : Session) (db : Db) : Session := (db.sessions session.id).getD session

/-- The row that `_apply_v2_ledger_projection` inserts for a position. -/
def ProjectedPosition.row (item : ProjectedPosition) : Position where
  symbol := item.symbol
  quantity := item.quantity
  averagePrice := item.averagePrice
  marketPrice := item.averagePrice
  marketValue := item.quantity * item.averagePrice
  lastBuyDate := item.lastBuyDate

/-- The database with the read model of a session written from a projection. -/
def Db.refresh (db : Db) (sessionId : SessionId) (projection : LedgerProjection) : Db :=
  { db with
    positions := Function.update db.positions sessionId
      (projection.positions.map ProjectedPosition.row)
    sessions := Function.update db.sessions sessionId
      ((db.sessions sessionId).map (fun session => { session with cash := projection.cash })) }

/-- `_apply_v2_ledger_projection` -/
def applyLedgerProjection (sessionId : SessionId) (db : Db) :
    Except PaperError (LedgerProjection × Db) :=
  (ledgerProjection sessionId db).map (fun projection =>
    (projection, db.refresh sessionId projection))

/-- The database with one more constraint decision. -/
def Db.addDecision (db : Db) (row : ConstraintDecision) : Db :=
  { db with decisions := db.decisions ++ [row] }

/-- `record_constraint_decision`, for the decisions `ACCEPT` and `REJECT` that
the pipeline makes. -/
def recordConstraintDecision (row : ConstraintDecision) (db : Db) :
    Except PaperError (ConstraintDecision × Db) :=
  match db.decisions.find? (fun decision => decision.intentId == row.intentId) with
  | some existing =>
    if existing = row then .ok (existing, db)
    else .error (.valueError "Constraint decision drift detected for immutable intent.")
  | none => .ok (row, db.addDecision row)

def findOrder (db : Db) (intentId : IntentId) : Option PaperOrder :=
  db.orders.find? (fun order => order.id == intentId)

def Db.addOrder (db : Db) (order : PaperOrder) : Db := { db with orders := db.orders ++ [order] }

/-- The row that `_project_v2_order` inserts. -/
def orderRow (sessionId : SessionId) (intent : Intent) (status : String) (reason : Option String)
    (price fee : ℚ) : PaperOrder where
  id := intent.id
  sessionId := sessionId
  tradeDate := intent.tradeDate
  symbol := intent.symbol
  side := intent.side
  quantity := if status = "filled" then intent.quantity else 0
  orderPrice := price
  fillPrice := if status = "filled" then some price else none
  fee := if status = "filled" then fee else 0
  status := status
  reason := reason

/-- `_project_v2_order` -/
def projectOrder (row : PaperOrder) (db : Db) : Except PaperError (PaperOrder × Db) :=
  match findOrder db row.id with
  | some existing => .ok (existing, db)
  | none => .ok (row, db.addOrder row)

/-- The name of a phase in the database. -/
def RunPhase.name : RunPhase → String
  | .intentCapture => "intent_capture"
  | .constraintValidation => "constraint_validation"
  | .matching => "matching"
  | .ledger => "ledger"
  | .snapshotReport => "snapshot_report"
  | .reconciliation => "reconciliation"

def findCheckpoint (db : Db) (paperRunId : RunId) (phase : RunPhase) : Option Checkpoint :=
  db.checkpoints.find? (fun row => row.paperRunId == paperRunId && row.phase == phase)

def Db.addCheckpoint (db : Db) (row : Checkpoint) : Db :=
  { db with checkpoints := db.checkpoints ++ [row] }

/-- `complete_checkpoint` -/
def completeCheckpoint (paperRunId : RunId) (phase : RunPhase) (payload : CheckpointPayload)
    (db : Db) : Except PaperError (Checkpoint × Db) :=
  match findCheckpoint db paperRunId phase with
  | some existing =>
    if existing.payload = payload then .ok (existing, db)
    else .error (.valueError s!"Checkpoint payload drift detected for {phase.name}.")
  | none =>
    let row := { paperRunId := paperRunId, phase := phase, payload := payload }
    .ok (row, db.addCheckpoint row)

/-! ## One round of the loop -/

/-- What a round adds to `decisions`, `projected_orders` and `fill_keys`. -/
structure Processed where
  decision : OrderDecision
  order : PaperOrder
  fillKeys : List FillKey
  deriving DecidableEq

def intentFills (db : Db) (intentId : IntentId) : List Fill :=
  db.fills.filter (fun fill => fill.intentId == intentId)

/-- The branch for an intent that has left `INTENT_CREATED`. -/
def resumeIntent (state : Option OrderState) (intent : Intent) (db : Db) :
    Except PaperError Processed :=
  match findOrder db intent.id with
  | none =>
    let name := (state.map OrderState.name).getD "None"
    .error (.valueError s!"Intent {intent.id} is {name} without a Paper order projection.")
  | some projected =>
    .ok { decision := { intentId := intent.id, accepted := decide (projected.status ≠ "rejected"),
                        reason := projected.reason }
          order := projected
          fillKeys := if projected.status = "filled"
            then (intentFills db intent.id).map Fill.externalFillKey else [] }

/-- The arguments of `record_constraint_decision`. -/
def decisionRow (session : Session) (intent : Intent) (reason : Option String) (db : Db) :
    ConstraintDecision where
  intentId := intent.id
  decision := if reason.isSome then "REJECT" else "ACCEPT"
  constraintVersion := firstText [some intent.constraintVersion, some "paper-constraints-v2"]
  ruleCode := reason
  ruleInputs :=
    { tradeDate := intent.tradeDate
      symbol := intent.symbol
      side := intent.side
      quantity := intent.quantity
      requestedPrice := intent.requestedPrice }
  portfolioSnapshot :=
    { cash := session.cash
      equity := session.equity
      positions := listPositions db session.id }
  referenceDataVersion := firstText
    [intent.datasetVersion, session.parameters.textOrNone "source", some "UNVERSIONED"]
  rules := [(reason.getD "all_rules_passed", if reason.isSome then "REJECT" else "ACCEPT")]

/-- The checks and the stored decision: the refreshed session and the reason of a
rejection. -/
def decideConstraints (market : Market) (session : Session) (item : Captured) :
    TxM Db PaperError (Session × Option String) := do
  let session ← TxM.read (fun db => .ok (getSession session db))
  let reason ← TxM.read (leanIntentRejection market session item.order item.intent.tradeDate)
  let row ← TxM.read (fun db => .ok (decisionRow session item.intent reason db))
  let _ ← TxM.tx (recordConstraintDecision row)
  pure (session, reason)

/-- From `VALIDATION_PENDING` to the stored decision. -/
def validateIntent (market : Market) (session : Session) (item : Captured) :
    TxM Db PaperError (Session × Option String) := do
  let _ ← TxM.tx (appendTransition item.intent.id "VALIDATION_PENDING"
    "constraint_validation_started" "validation_pending" .empty)
  decideConstraints market session item

/-- The branch of a rejected order. -/
def rejectIntent (session : Session) (item : Captured) (reason : String) :
    TxM Db PaperError Processed := do
  let _ ← TxM.tx (appendTransition item.intent.id "REJECTED" "constraint_rejected"
    "constraint_result" (.reason (some reason)))
  let order ← TxM.tx (projectOrder
    (orderRow session.id item.intent "rejected" (some reason) item.price 0))
  pure { decision := { intentId := item.intent.id, accepted := false, reason := some reason }
         order := order
         fillKeys := [] }

/-- The branch of an accepted order without a match price. -/
def expireIntent (session : Session) (item : Captured) (reason : String) :
    TxM Db PaperError Processed := do
  let _ ← TxM.tx (appendTransition item.intent.id "EXPIRED" "paper_match_no_fill"
    "matching_result" (.reason (some reason)))
  let order ← TxM.tx (projectOrder
    (orderRow session.id item.intent "expired" (some reason) item.price 0))
  pure { decision := { intentId := item.intent.id, accepted := true, reason := some reason }
         order := order
         fillKeys := [] }

/-- The arguments of `record_fill_and_ledger`. -/
def fillRequest (session : Session) (item : Captured) (price : ℚ) (charges : FeeBreakdown) :
    FillRequest where
  intentId := item.intent.id
  externalFillKey := .event item.eventKey
  tradeDate := item.intent.tradeDate
  quantity := .ofFloat item.intent.quantity
  price := .ofFloat price
  fee := .ofFloat (charges.commission + charges.statutory)
  tax := .ofFloat charges.tax
  slippage := .ofFloat 0
  feeModelVersion := "paper-fees-v2"
  matchingContract := "next_open-v1"
  currency := if session.venue = "hongkong" then "HKD" else "CNY"

/-- The end of a fill: its transitions and its order. -/
def completeFill (session : Session) (item : Captured) (price : ℚ) (charges : FeeBreakdown) :
    TxM Db PaperError Processed := do
  let _ ← TxM.tx (appendTransition item.intent.id "FILLED" "lean_fill_recorded" "filled"
    (.fill (.event item.eventKey) item.intent.quantity price
      (charges.commission + charges.statutory) charges.tax 0 "next_open-v1"))
  let order ← TxM.tx (projectOrder
    (orderRow session.id item.intent "filled" none price charges.total))
  let _ ← TxM.tx (appendTransition item.intent.id "RECONCILIATION_PENDING" "ledger_projected"
    "reconciliation_pending" .empty)
  pure { decision := { intentId := item.intent.id, accepted := true, reason := none }
         order := order
         fillKeys := [.event item.eventKey] }

/-- The branch of an accepted order with a match price. -/
def fillIntent (session : Session) (item : Captured) (price : ℚ) :
    TxM Db PaperError Processed := do
  let charges ← TxM.read (fun _ => feeBreakdown item.intent.quantity price item.intent.side session)
  let _ ← TxM.tx (recordFillAndLedger (fillRequest session item price charges))
  let _ ← TxM.tx (applyLedgerProjection session.id)
  completeFill session item price charges

/-- The branch of an accepted order. -/
def matchIntent (market : Market) (session : Session) (item : Captured) :
    TxM Db PaperError Processed := do
  let _ ← TxM.tx (appendTransition item.intent.id "ACCEPTED" "constraint_accepted"
    "constraint_result" .empty)
  let _ ← TxM.tx (appendTransition item.intent.id "MATCHING" "lean_match_submitted"
    "matching" .empty)
  match deterministicMatchPrice market session item.intent with
  | .error reason => expireIntent session item reason
  | .ok price => fillIntent session item price

/-- The rounds of an intent that is still `INTENT_CREATED`. -/
def decideIntent (market : Market) (session : Session) (item : Captured) :
    TxM Db PaperError Processed := do
  let (session, reason) ← validateIntent market session item
  match reason with
  | some reason => rejectIntent session item reason
  | none => matchIntent market session item

/-- One round of the loop over the captured intents. -/
def processIntent (market : Market) (session : Session) (item : Captured) :
    TxM Db PaperError Processed := do
  let state ← TxM.read (fun db => .ok (currentState db item.intent.id))
  if state ≠ some .intentCreated then TxM.read (resumeIntent state item.intent)
  else decideIntent market session item

/-! ## The whole function -/

/-- The arguments of `ensure_opening_ledger`. -/
def openingRequest (session : Session) (db : Db) : OpeningRequest where
  sessionId := session.id
  cash := session.cash
  positions := listPositions db session.id
  currency := if session.venue = "hongkong" then "HKD" else "CNY"

/-- The opening and the first refresh of the read model. -/
def openSession (session : Session) : TxM Db PaperError Session := do
  let opening ← TxM.read (fun db => .ok (openingRequest session db))
  let _ ← TxM.tx (ensureOpeningLedger opening)
  let _ ← TxM.tx (applyLedgerProjection session.id)
  TxM.read (fun db => .ok (getSession session db))

/-- The three checkpoints after the loop. -/
def completeProcessing (paperRunId : RunId) (processed : List Processed) :
    TxM Db PaperError Unit := do
  let _ ← TxM.tx (completeCheckpoint paperRunId .constraintValidation
    (.constraintValidation (processed.map Processed.decision)))
  let _ ← TxM.tx (completeCheckpoint paperRunId .matching
    (.matching (processed.flatMap Processed.fillKeys)))
  let _ ← TxM.tx (completeCheckpoint paperRunId .ledger
    (.ledger (processed.map (fun p => p.order.id))))
  pure ()

/-- The result of `_process_v2_lean_intents`. -/
structure ProcessedOrders where
  orders : List PaperOrder
  intents : List Intent
  deriving DecidableEq

/-- `_process_v2_lean_intents` -/
def processV2LeanIntents (market : Market) (session : Session) (paperRunId : RunId)
    (child : Child) (orders : List LeanOrder) : TxM Db PaperError ProcessedOrders := do
  let session ← openSession session
  let captured ← captureOrders session paperRunId child orders
  let _ ← TxM.tx (completeCheckpoint paperRunId .intentCapture
    (.intentCapture (captured.map Captured.eventKey)))
  let processed ← TxM.forEach (processIntent market session) captured
  let _ ← completeProcessing paperRunId processed
  pure { orders := processed.map Processed.order, intents := captured.map Captured.intent }

/-! ## What the transactions can do -/

theorem applyLedgerProjection_ok {sessionId : SessionId} {projection : LedgerProjection}
    {db db' : Db} (h : applyLedgerProjection sessionId db = .ok (projection, db')) :
    ledgerProjection sessionId db = .ok projection ∧ db' = db.refresh sessionId projection := by
  unfold applyLedgerProjection at h
  cases hprojection : ledgerProjection sessionId db with
  | error e =>
    rw [hprojection] at h
    cases h
  | ok found =>
    rw [hprojection] at h
    obtain ⟨rfl, rfl⟩ := ok_inj h
    exact ⟨rfl, rfl⟩

theorem recordConstraintDecision_cases {row found : ConstraintDecision} {db db' : Db}
    (h : recordConstraintDecision row db = .ok (found, db')) :
    db' = db ∨ db' = db.addDecision row := by
  unfold recordConstraintDecision at h
  split at h
  · split_ifs at h
    exact Or.inl (ok_inj h).2.symm
  · exact Or.inr (ok_inj h).2.symm

theorem projectOrder_cases {row found : PaperOrder} {db db' : Db}
    (h : projectOrder row db = .ok (found, db')) :
    (findOrder db row.id = some found ∧ db' = db) ∨
      (findOrder db row.id = none ∧ found = row ∧ db' = db.addOrder row) := by
  unfold projectOrder at h
  split at h
  · rename_i existing hfound
    obtain ⟨rfl, rfl⟩ := ok_inj h
    exact Or.inl ⟨hfound, rfl⟩
  · rename_i hnone
    obtain ⟨rfl, rfl⟩ := ok_inj h
    exact Or.inr ⟨hnone, rfl, rfl⟩

theorem completeCheckpoint_cases {paperRunId : RunId} {phase : RunPhase}
    {payload : CheckpointPayload} {row : Checkpoint} {db db' : Db}
    (h : completeCheckpoint paperRunId phase payload db = .ok (row, db')) :
    (findCheckpoint db paperRunId phase = some row ∧ row.payload = payload ∧ db' = db) ∨
      (findCheckpoint db paperRunId phase = none ∧ row = ⟨paperRunId, phase, payload⟩ ∧
        db' = db.addCheckpoint row) := by
  unfold completeCheckpoint at h
  split at h
  · rename_i existing hfound
    split_ifs at h with hsame
    obtain ⟨rfl, rfl⟩ := ok_inj h
    exact Or.inl ⟨hfound, hsame, rfl⟩
  · rename_i hnone
    obtain ⟨rfl, rfl⟩ := ok_inj h
    exact Or.inr ⟨hnone, rfl, rfl⟩

end LocalPlatform.Paper
