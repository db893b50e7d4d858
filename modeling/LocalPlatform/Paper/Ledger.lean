import LocalPlatform.Lib.CostBasis
import LocalPlatform.Paper.Capture
import Mathlib.Data.List.Sort

/-!
# The Paper ledger

`ensure_opening_ledger` and `record_fill_and_ledger` are the two writers of
`paper_ledger_entries`, and `ledger_projection` folds the entries of a session
back into cash and positions.

* Every insert goes through `insertEntry`, which enforces the two unique
  constraints of the table.  A transaction whose insert fails writes nothing.
* `insertNext` numbers the entries of an account while it inserts them.
* The writers have one inversion lemma each, `ensureOpeningLedger_cases` and
  `recordFillAndLedger_cases`: a call that returns found its rows stored, or
  appended them all.
* The projection of a symbol is the `run` of the moves of that symbol at
  weighted average cost, and `ledgerProjection_position` says so.
-/

namespace LocalPlatform.Paper

open CostBasis

/-! ## Inserting entries -/

/-- Whether two entries agree on `unique(session_id, idempotency_key)`. -/
def LedgerEntry.sameKey (row entry : LedgerEntry) : Bool :=
  row.sessionId == entry.sessionId && row.idempotencyKey == entry.idempotencyKey

/-- Whether two entries agree on `uq_paper_account_ledger_sequence`, where a
missing column agrees with nothing. -/
def LedgerEntry.sameSequence (row entry : LedgerEntry) : Bool :=
  row.paperAccountId.isSome && row.accountGeneration.isSome && row.ledgerSequence.isSome &&
    row.paperAccountId == entry.paperAccountId &&
    row.accountGeneration == entry.accountGeneration &&
    row.ledgerSequence == entry.ledgerSequence

/-- `insert into paper_ledger_entries` -/
def insertEntry (ledger : List LedgerEntry) (entry : LedgerEntry) :
    Except PaperError (List LedgerEntry) :=
  if ledger.any (fun row => row.sameKey entry) then
    .error (.integrityError "unique(session_id, idempotency_key)")
  else if ledger.any (fun row => row.sameSequence entry) then
    .error (.integrityError "uq_paper_account_ledger_sequence")
  else .ok (ledger ++ [entry])

def LedgerEntry.withSequence (entry : LedgerEntry) (sequence : Option Nat) : LedgerEntry :=
  { entry with ledgerSequence := sequence }

/-- `sequence += 1`, then an insert that carries the sequence of a tagged
entry. -/
def insertNext (tagged : Bool) (state : Nat × List LedgerEntry) (entry : LedgerEntry) :
    Except PaperError (Nat × List LedgerEntry) :=
  let sequence := state.1 + 1
  (insertEntry state.2 (entry.withSequence (if tagged then some sequence else none))).map
    (fun ledger => (sequence, ledger))

/-- The entries as `insertNext` stores them, after a sequence number. -/
def numbered (tagged : Bool) (sequence : Nat) (entries : List LedgerEntry) : List LedgerEntry :=
  entries.mapIdx (fun i entry =>
    entry.withSequence (if tagged then some (sequence + i + 1) else none))

/-! ## Openings -/

/-- The arguments of `ensure_opening_ledger`. -/
structure OpeningRequest where
  sessionId : SessionId
  cash : ℚ
  positions : List Position
  currency : String := "CNY"
  paperAccountId : Option String := none
  accountGeneration : Option Nat := none
  executionCycleId : Option String := none
  ledgerSequence : Nat := 0

/-- `paper_account_id` is neither missing nor empty. -/
def isTagged (paperAccountId : Option String) : Bool := paperAccountId.any (· ≠ "")

/-- The opening cash entry. -/
def OpeningRequest.cashEntry (request : OpeningRequest) : LedgerEntry where
  sessionId := request.sessionId
  intentId := none
  fillId := none
  entryType := .cashDeposit
  asset := .cash
  symbol := none
  quantity := 0
  amount := request.cash
  currency := request.currency
  idempotencyKey := .text "opening:cash"
  tradeDate := none
  debitAccount := none
  creditAccount := none
  paperAccountId := request.paperAccountId
  accountGeneration := request.accountGeneration
  executionCycleId := request.executionCycleId
  ledgerSequence := none

/-- The entry of an opening position, valued at its average price or, without
one, at its market price. -/
def OpeningRequest.positionEntry (request : OpeningRequest) (position : Position) :
    LedgerEntry where
  sessionId := request.sessionId
  intentId := none
  fillId := none
  entryType := .positionIncrease
  asset := .equity
  symbol := some (upper position.symbol)
  quantity := position.quantity
  amount := position.quantity * firstNumber [some position.averagePrice, some position.marketPrice]
  currency := request.currency
  idempotencyKey := .text s!"opening:position:{upper position.symbol}"
  tradeDate := none
  debitAccount := none
  creditAccount := none
  paperAccountId := request.paperAccountId
  accountGeneration := request.accountGeneration
  executionCycleId := request.executionCycleId
  ledgerSequence := none

/-- One round of the loop over the opening positions. -/
def insertOpeningPosition (request : OpeningRequest) (state : Nat × List LedgerEntry)
    (position : Position) : Except PaperError (Nat × List LedgerEntry) :=
  if position.quantity = 0 then .ok state
  else if upper position.symbol = "" then
    .error (.valueError "Opening position is missing a symbol.")
  else insertNext (isTagged request.paperAccountId) state (request.positionEntry position)

def isOpeningCash (sessionId : SessionId) (entry : LedgerEntry) : Bool :=
  entry.sessionId == sessionId && entry.asset == .cash && entry.entryType == .cashDeposit &&
    entry.tradeDate.isNone

/-- `ensure_opening_ledger` -/
def ensureOpeningLedger (request : OpeningRequest) (db : Db) : Except PaperError (Unit × Db) :=
  if db.ledger.any (isOpeningCash request.sessionId) then .ok ((), db)
  else
    match insertNext (isTagged request.paperAccountId) (request.ledgerSequence, db.ledger)
        request.cashEntry with
    | .error e => .error e
    | .ok state =>
      match request.positions.foldlM (insertOpeningPosition request) state with
      | .error e => .error e
      | .ok state => .ok ((), { db with ledger := state.2 })

/-! ## Fills -/

/-- The arguments of `record_fill_and_ledger`. -/
structure FillRequest where
  intentId : IntentId
  externalFillKey : FillKey
  tradeDate : String
  quantity : Decimal
  price : Decimal
  fee : Decimal
  tax : Decimal := { value := 0, text := "0" }
  slippage : Decimal := { value := 0, text := "0" }
  feeModelVersion : String := "paper-fees-v1"
  matchingContract : String := "next_open-v1"
  currency : String := "CNY"
  paperAccountId : Option String := none
  accountGeneration : Option Nat := none
  executionCycleId : Option String := none

/-- The account columns that a fill resolves. -/
def FillRequest.context (request : FillRequest) (intent : Intent) : AccountContext :=
  AccountContext.resolve
    { paperAccountId := request.paperAccountId
      deploymentId := none
      executionCycleId := request.executionCycleId
      accountGeneration := request.accountGeneration }
    intent.account

/-- The account context has its generation and its cycle, if it has an account. -/
def AccountContext.isComplete (context : AccountContext) : Bool :=
  !isTagged context.paperAccountId ||
    (context.accountGeneration.isSome && context.executionCycleId.any (· ≠ ""))

/-- The row of `paper_order_fills`. -/
def FillRequest.fill (request : FillRequest) (context : AccountContext) (id : FillId) : Fill where
  id := id
  intentId := request.intentId
  externalFillKey := request.externalFillKey
  tradeDate := request.tradeDate
  quantity := request.quantity.value
  price := request.price.value
  fee := request.fee.value
  tax := request.tax.value
  slippage := request.slippage.value
  feeModelVersion := request.feeModelVersion
  matchingContract := request.matchingContract
  fillFingerprint :=
    { payload :=
        { intentId := request.intentId
          tradeDate := request.tradeDate
          quantity := request.quantity.text
          price := request.price.text
          fee := request.fee.text
          tax := request.tax.text
          slippage := request.slippage.text
          feeModelVersion := request.feeModelVersion
          matchingContract := request.matchingContract } }
  paperAccountId := context.paperAccountId
  executionCycleId := context.executionCycleId

/-- `f"{external_fill_key}:{entry_type}"` -/
def fillLedgerKey (key : FillKey) (entryType : EntryType) : LedgerKey :=
  match key with
  | .event event => .event event s!":fill:{entryType.name}"
  | .text text => .text s!"{text}:{entryType.name}"

/-- One entry of a fill. -/
def fillEntry (intent : Intent) (fill : Fill) (context : AccountContext) (currency : String)
    (entryType : EntryType) (asset : Asset) (symbol : Option String) (quantity amount : ℚ)
    (debitAccount creditAccount : LedgerAccount) : LedgerEntry where
  sessionId := intent.sessionId
  intentId := some fill.intentId
  fillId := some fill.id
  entryType := entryType
  asset := asset
  symbol := symbol
  quantity := quantity
  amount := amount
  currency := currency
  idempotencyKey := fillLedgerKey fill.externalFillKey entryType
  tradeDate := some fill.tradeDate
  debitAccount := some debitAccount
  creditAccount := some creditAccount
  paperAccountId := context.paperAccountId
  accountGeneration := context.accountGeneration
  executionCycleId := context.executionCycleId
  ledgerSequence := none

/-- The three to five entries of a fill. -/
def fillEntries (intent : Intent) (fill : Fill) (context : AccountContext) (currency : String) :
    List LedgerEntry :=
  let entry := fillEntry intent fill context currency
  let principal := fill.quantity * fill.price
  (if intent.side = "buy" then
    [entry .positionIncrease .equity (some intent.symbol) fill.quantity principal
        (.position intent.symbol) .tradeClearing,
      entry .tradePrincipal .cash none 0 (-principal) .tradeClearing .cash]
  else
    [entry .positionDecrease .equity (some intent.symbol) (-fill.quantity) principal
        .tradeClearing (.position intent.symbol),
      entry .tradePrincipal .cash none 0 principal .cash .tradeClearing]) ++
  [entry .commission .cash none 0 (-fill.fee) .commissionExpense .cash] ++
  (if fill.tax ≠ 0 then [entry .stampDuty .cash none 0 (-fill.tax) .stampDutyExpense .cash]
    else []) ++
  (if fill.slippage ≠ 0 then
    [entry .slippage .cash none 0 (-fill.slippage) .slippageExpense .cash] else [])

/-- The sequence numbers of an account generation, in the order of the ledger. -/
def accountSequences (paperAccountId : Option String) (accountGeneration : Option Nat)
    (ledger : List LedgerEntry) : List Nat :=
  ledger.filterMap (fun entry =>
    if entry.paperAccountId = paperAccountId ∧ entry.accountGeneration = accountGeneration
    then entry.ledgerSequence else none)

/-- `max(ledger_sequence)` of an account generation, or zero. -/
def maxSequence (context : AccountContext) (ledger : List LedgerEntry) : Nat :=
  (accountSequences context.paperAccountId context.accountGeneration ledger).foldl max 0

/-- The sequence number that the entries of a fill start after. -/
def fillSequence (context : AccountContext) (ledger : List LedgerEntry) : Nat :=
  if isTagged context.paperAccountId then maxSequence context ledger else 0

/-- The stored fill of an intent with an external key. -/
def findFill (db : Db) (intentId : IntentId) (key : FillKey) : Option Fill :=
  db.fills.find? (fun fill => fill.intentId == intentId && fill.externalFillKey == key)

/-- `record_fill_and_ledger` -/
def recordFillAndLedger (request : FillRequest) (db : Db) : Except PaperError (Fill × Db) :=
  match getIntent db request.intentId with
  | none => .error (.keyError "Paper order intent not found.")
  | some intent =>
    let state := currentState db request.intentId
    if state ≠ some .matching ∧ state ≠ some .partiallyFilled then
      let name := (state.map OrderState.name).getD "null"
      .error (.valueError s!"Paper fill requires MATCHING state, got {name}.")
    else
      let context := request.context intent
      if context.isComplete = false then
        .error (.valueError "Account ledger context is incomplete.")
      else
        match findFill db request.intentId request.externalFillKey with
        | some existing => .ok (existing, db)
        | none =>
          let fill := request.fill context db.fills.length
          if db.fills.any (fun row => row.fillFingerprint == fill.fillFingerprint) then
            .error (.integrityError "idx_paper_fills_fingerprint")
          else
            match (fillEntries intent fill context request.currency).foldlM
                (insertNext (isTagged context.paperAccountId))
                (fillSequence context db.ledger, db.ledger) with
            | .error e => .error e
            | .ok state => .ok (fill, { db with fills := db.fills ++ [fill], ledger := state.2 })

/-! ## `ledger_projection` -/

/-- An item of the dictionary `positions` of `ledger_projection`. -/
structure ProjectedPosition where
  symbol : String
  quantity : ℚ
  averagePrice : ℚ
  lastBuyDate : Option String
  deriving DecidableEq

/-- The item that `setdefault` puts under a new symbol. -/
def newItem (symbol : String) : ProjectedPosition where
  symbol := symbol
  quantity := 0
  averagePrice := 0
  lastBuyDate := none

/-- The tolerance of `ledger_projection`. -/
def ledgerDust : ℚ := 1 / 10 ^ 9

/-- The body of the loop over the entries, for the item of the entry. -/
def projectItem (item : ProjectedPosition) (quantity amount : ℚ)
    (fillTradeDate : Option String) : Except PaperError ProjectedPosition :=
  if 0 < quantity then
    let newQuantity := item.quantity + quantity
    .ok { symbol := item.symbol
          quantity := newQuantity
          averagePrice := if newQuantity ≠ 0 then
            ((item.quantity * item.averagePrice) + amount) / newQuantity else 0
          lastBuyDate := (fillTradeDate.filter (· ≠ "")).or item.lastBuyDate }
  else if quantity < 0 then
    let left := item.quantity + quantity
    if left < -ledgerDust then
      .error (.valueError s!"Ledger projects a negative position for {item.symbol}.")
    else if |left| ≤ ledgerDust then .ok (newItem item.symbol)
    else .ok { item with quantity := left }
  else .ok item

/-- The trade date of the fill that an entry belongs to. -/
def fillTradeDate (db : Db) (entry : LedgerEntry) : Option String :=
  entry.fillId.bind (fun id => (db.fills.find? (fun fill => fill.id == id)).map Fill.tradeDate)

/-- The result of `ledger_projection`. -/
structure LedgerProjection where
  cash : ℚ
  positions : List ProjectedPosition
  entryCount : Nat
  deriving DecidableEq

def sessionEntries (db : Db) (sessionId : SessionId) : List LedgerEntry :=
  db.ledger.filter (fun entry => entry.sessionId == sessionId)

/-- The entries of a session that move a position. -/
def positionEntries (db : Db) (sessionId : SessionId) : List LedgerEntry :=
  (sessionEntries db sessionId).filter (fun entry =>
    entry.asset == .equity && entry.symbol.any (· ≠ ""))

def LedgerEntry.symbolKey (entry : LedgerEntry) : String := entry.symbol.getD ""

/-- The dictionary `positions` after the loop over the entries. -/
def projectionItems (db : Db) (sessionId : SessionId) :
    Except PaperError (String → ProjectedPosition) :=
  runKeyed
    (fun item entry => projectItem item entry.quantity entry.amount (fillTradeDate db entry))
    LedgerEntry.symbolKey newItem (positionEntries db sessionId)

def projectionSymbols (db : Db) (sessionId : SessionId) : List String :=
  ((positionEntries db sessionId).map LedgerEntry.symbolKey).dedup.insertionSort (· ≤ ·)

/-- `ledger_projection` -/
def ledgerProjection (sessionId : SessionId) (db : Db) : Except PaperError LedgerProjection :=
  (projectionItems db sessionId).map (fun items =>
    { cash := (((sessionEntries db sessionId).filter (fun entry => entry.asset == .cash)).map
        LedgerEntry.amount).sum
      positions := ((projectionSymbols db sessionId).map items).filter
        (fun item => 0 < item.quantity)
      entryCount := (sessionEntries db sessionId).length })

/-! ## What the writers can do -/

variable {entry : LedgerEntry}

theorem insertEntry_ok {ledger ledger' : List LedgerEntry}
    (h : insertEntry ledger entry = .ok ledger') : ledger' = ledger ++ [entry] := by
  unfold insertEntry at h
  split_ifs at h
  exact (Except.ok.inj h).symm

theorem insertNext_ok {tagged : Bool} {state state' : Nat × List LedgerEntry}
    (h : insertNext tagged state entry = .ok state') :
    state' = (state.1 + 1,
      state.2 ++ [entry.withSequence (if tagged then some (state.1 + 1) else none)]) := by
  simp only [insertNext] at h
  cases hinsert : insertEntry state.2
      (entry.withSequence (if tagged then some (state.1 + 1) else none)) with
  | error e =>
    rw [hinsert] at h
    cases h
  | ok ledger =>
    rw [hinsert] at h
    rw [← insertEntry_ok hinsert]
    exact (Except.ok.inj h).symm

theorem numbered_cons (tagged : Bool) (sequence : Nat) (entry : LedgerEntry)
    (entries : List LedgerEntry) :
    numbered tagged sequence (entry :: entries) =
      entry.withSequence (if tagged then some (sequence + 1) else none) ::
        numbered tagged (sequence + 1) entries := by
  simp only [numbered, List.mapIdx_cons, Nat.add_zero]
  congr 2
  funext i entry
  rw [show sequence + (i + 1) + 1 = sequence + 1 + i + 1 by omega]

theorem numbered_map {β : Type} (f : LedgerEntry → β)
    (hf : ∀ entry number, f (LedgerEntry.withSequence entry number) = f entry)
    (tagged : Bool) (entries : List LedgerEntry) :
    ∀ sequence, (numbered tagged sequence entries).map f = entries.map f := by
  induction entries with
  | nil =>
    intro sequence
    rfl
  | cons entry entries ih =>
    intro sequence
    rw [numbered_cons, List.map_cons, List.map_cons, ih, hf]

theorem mem_numbered {tagged : Bool} {sequence : Nat} {entries : List LedgerEntry}
    (h : entry ∈ numbered tagged sequence entries) :
    ∃ plain ∈ entries, ∃ number, entry = plain.withSequence number := by
  obtain ⟨i, hi, rfl⟩ := List.mem_mapIdx.mp h
  exact ⟨entries[i], List.getElem_mem hi, _, rfl⟩

theorem insertNext_foldlM_ok {tagged : Bool} (entries : List LedgerEntry) :
    ∀ {state state' : Nat × List LedgerEntry},
      entries.foldlM (insertNext tagged) state = .ok state' →
        state' = (state.1 + entries.length, state.2 ++ numbered tagged state.1 entries) := by
  induction entries with
  | nil =>
    intro state state' h
    rw [← Except.ok.inj h]
    simp [numbered]
  | cons entry entries ih =>
    intro state state' h
    rw [List.foldlM_cons] at h
    cases hstep : insertNext tagged state entry with
    | error e =>
      rw [hstep] at h
      cases h
    | ok middle =>
      rw [hstep] at h
      have hrest := ih h
      rw [insertNext_ok hstep] at hrest
      rw [hrest, numbered_cons, List.length_cons]
      simp only [List.append_assoc, List.singleton_append, Prod.mk.injEq, and_true]
      omega

/-- The entries of an opening, before they are numbered. -/
def OpeningRequest.entries (request : OpeningRequest) : List LedgerEntry :=
  request.cashEntry ::
    (request.positions.filter (fun position => position.quantity ≠ 0)).map request.positionEntry

theorem insertOpeningPosition_foldlM_ok (request : OpeningRequest) (positions : List Position) :
    ∀ {state state' : Nat × List LedgerEntry},
      positions.foldlM (insertOpeningPosition request) state = .ok state' →
        ((positions.filter (fun position => position.quantity ≠ 0)).map
          request.positionEntry).foldlM (insertNext (isTagged request.paperAccountId)) state =
            .ok state' := by
  induction positions with
  | nil =>
    intro state state' h
    exact h
  | cons position positions ih =>
    intro state state' h
    rw [List.foldlM_cons, insertOpeningPosition] at h
    by_cases hzero : position.quantity = 0
    · rw [if_pos hzero] at h
      rw [List.filter_cons_of_neg (by simpa using hzero)]
      exact ih h
    · rw [if_neg hzero] at h
      rw [List.filter_cons_of_pos (by simpa using hzero), List.map_cons, List.foldlM_cons]
      split_ifs at h with hsymbol
      · cases h
      · cases hstep : insertNext (isTagged request.paperAccountId) state
            (request.positionEntry position) with
        | error e =>
          rw [hstep] at h
          cases h
        | ok middle =>
          rw [hstep] at h
          exact ih h

def Db.addOpening (db : Db) (request : OpeningRequest) : Db :=
  { db with
    ledger := db.ledger ++ numbered (isTagged request.paperAccountId) request.ledgerSequence
      request.entries }

theorem ensureOpeningLedger_cases {request : OpeningRequest} {db db' : Db} {u : Unit}
    (h : ensureOpeningLedger request db = .ok (u, db')) :
    (db.ledger.any (isOpeningCash request.sessionId) = true ∧ db' = db) ∨
      (db.ledger.any (isOpeningCash request.sessionId) = false ∧ db' = db.addOpening request) := by
  unfold ensureOpeningLedger at h
  split_ifs at h with hmarker
  · exact Or.inl ⟨hmarker, (Prod.mk.inj (Except.ok.inj h)).2.symm⟩
  · refine Or.inr ⟨by simpa using hmarker, ?_⟩
    split at h
    · cases h
    · rename_i state hcash
      split at h
      · cases h
      · rename_i state' hpositions
        have hall : request.entries.foldlM (insertNext (isTagged request.paperAccountId))
            (request.ledgerSequence, db.ledger) = .ok state' := by
          rw [OpeningRequest.entries, List.foldlM_cons, hcash]
          exact insertOpeningPosition_foldlM_ok request request.positions hpositions
        rw [insertNext_foldlM_ok _ hall] at h
        exact (Prod.mk.inj (Except.ok.inj h)).2.symm

/-- The database after a new fill. -/
def Db.addFill (db : Db) (intent : Intent) (fill : Fill) (context : AccountContext)
    (currency : String) : Db :=
  { db with
    fills := db.fills ++ [fill]
    ledger := db.ledger ++ numbered (isTagged context.paperAccountId)
      (fillSequence context db.ledger) (fillEntries intent fill context currency) }

theorem mem_fillEntries {intent : Intent} {fill : Fill} {context : AccountContext}
    {currency : String} (h : entry ∈ fillEntries intent fill context currency) :
    entry.fillId = some fill.id ∧ entry.paperAccountId = context.paperAccountId ∧
      entry.accountGeneration = context.accountGeneration ∧
      entry.executionCycleId = context.executionCycleId ∧ entry.sessionId = intent.sessionId := by
  simp only [fillEntries, List.mem_append] at h
  rcases h with ((h | h) | h) | h
  · split_ifs at h <;> simp only [List.mem_cons, List.not_mem_nil, or_false] at h <;>
      rcases h with rfl | rfl <;> exact ⟨rfl, rfl, rfl, rfl, rfl⟩
  · rw [List.mem_singleton.mp h]
    exact ⟨rfl, rfl, rfl, rfl, rfl⟩
  · split_ifs at h
    · rw [List.mem_singleton.mp h]
      exact ⟨rfl, rfl, rfl, rfl, rfl⟩
    · cases h
  · split_ifs at h
    · rw [List.mem_singleton.mp h]
      exact ⟨rfl, rfl, rfl, rfl, rfl⟩
    · cases h

theorem recordFillAndLedger_cases {request : FillRequest} {db db' : Db} {fill : Fill}
    (h : recordFillAndLedger request db = .ok (fill, db')) :
    ∃ intent, getIntent db request.intentId = some intent ∧
      (findFill db request.intentId request.externalFillKey = some fill ∧ db' = db ∨
        findFill db request.intentId request.externalFillKey = none ∧
          fill = request.fill (request.context intent) db.fills.length ∧
          (request.context intent).isComplete = true ∧
          db' = db.addFill intent fill (request.context intent) request.currency) := by
  unfold recordFillAndLedger at h
  split at h
  · cases h
  rename_i intent hintent
  refine ⟨intent, hintent, ?_⟩
  simp only at h
  split at h
  · cases h
  split at h
  · cases h
  rename_i hcomplete
  split at h
  · rename_i existing hfound
    obtain ⟨rfl, rfl⟩ := Prod.mk.inj (Except.ok.inj h)
    exact Or.inl ⟨hfound, rfl⟩
  · rename_i hnew
    split at h
    · cases h
    · split at h
      · cases h
      · rename_i state hinsert
        obtain ⟨rfl, rfl⟩ := Prod.mk.inj (Except.ok.inj h)
        refine Or.inr ⟨hnew, rfl, by simpa using hcomplete, ?_⟩
        rw [insertNext_foldlM_ok _ hinsert]
        rfl

/-! ## What the projection reads -/

def entryMove (db : Db) (entry : LedgerEntry) : Move ℚ String where
  quantity := entry.quantity
  cost := entry.amount
  day := (fillTradeDate db entry).filter (· ≠ "")

/-- The moves of a symbol in the ledger of a session. -/
def symbolMoves (db : Db) (sessionId : SessionId) (symbol : String) : List (Move ℚ String) :=
  ((positionEntries db sessionId).filter (fun entry => entry.symbolKey = symbol)).map
    (entryMove db)

/-- A holding as an item of the projection. -/
def holdingItem (symbol : String) (holding : Holding ℚ String) : ProjectedPosition where
  symbol := symbol
  quantity := holding.quantity
  averagePrice := holding.average
  lastBuyDate := holding.lastBuy

theorem projectItem_eq (symbol : String) (holding : Holding ℚ String) (db : Db)
    (entry : LedgerEntry) :
    projectItem (holdingItem symbol holding) entry.quantity entry.amount
        (fillTradeDate db entry) =
      match step ledgerDust holding (entryMove db entry) with
      | some next => .ok (holdingItem symbol next)
      | none => .error (.valueError s!"Ledger projects a negative position for {symbol}.") := by
  by_cases hbuy : 0 < entry.quantity
  · rw [step_buy (show 0 < (entryMove db entry).quantity from hbuy), projectItem, if_pos hbuy]
    by_cases hzero : holding.quantity + entry.quantity = 0
    · simp [holdingItem, Holding.buy, entryMove, hzero]
    · simp [holdingItem, Holding.buy, entryMove, hzero]
  by_cases hsell : entry.quantity < 0
  · rw [projectItem, if_neg hbuy, if_pos hsell]
    by_cases hover : holding.quantity + entry.quantity < -ledgerDust
    · simp only [step, entryMove, holdingItem, hbuy, hsell, hover, if_true, if_false]
    · rw [step_sell (show (entryMove db entry).quantity < 0 from hsell) (not_lt.mp hover)]
      simp only [holdingItem, hover, if_false, Holding.sell, entryMove]
      by_cases hdust : |holding.quantity + entry.quantity| ≤ ledgerDust
      · simp only [hdust, if_true]
        rfl
      · simp only [hdust, if_false]
  · simp only [projectItem, step, entryMove, hbuy, hsell, if_false]

theorem projectItem_foldlM (symbol : String) (db : Db) (entries : List LedgerEntry) :
    ∀ holding : Holding ℚ String,
      entries.foldlM (fun item entry =>
          projectItem item entry.quantity entry.amount (fillTradeDate db entry))
        (holdingItem symbol holding) =
      match run ledgerDust holding (entries.map (entryMove db)) with
      | some final => .ok (holdingItem symbol final)
      | none => .error (.valueError s!"Ledger projects a negative position for {symbol}.") := by
  induction entries with
  | nil =>
    intro holding
    rfl
  | cons entry entries ih =>
    intro holding
    rw [List.foldlM_cons, projectItem_eq, List.map_cons, run_cons]
    cases step ledgerDust holding (entryMove db entry) with
    | none => rfl
    | some next => exact ih next

def sessionCash (sessionId : SessionId) (ledger : List LedgerEntry) : ℚ :=
  (ledger.map (fun entry =>
    if entry.sessionId = sessionId ∧ entry.asset = .cash then entry.amount else 0)).sum

def LedgerProjection.position? (projection : LedgerProjection) (symbol : String) :
    Option ProjectedPosition :=
  projection.positions.find? (fun item => item.symbol == symbol)

def LedgerProjection.quantity (projection : LedgerProjection) (symbol : String) : ℚ :=
  ((projection.position? symbol).map ProjectedPosition.quantity).getD 0

theorem sum_map_ite {α : Type} (p : α → Bool) (f : α → ℚ) (l : List α) :
    ((l.filter p).map f).sum = (l.map (fun a => if p a then f a else 0)).sum := by
  induction l with
  | nil => rfl
  | cons a l ih =>
    by_cases hp : p a
    · simp [List.filter_cons_of_pos hp, hp, ih]
    · simp [List.filter_cons_of_neg hp, hp, ih]

variable {sessionId : SessionId}

theorem projectionItems_eq {db : Db} {items : String → ProjectedPosition}
    (h : projectionItems db sessionId = .ok items) (symbol : String) :
    ∃ holding, run ledgerDust .empty (symbolMoves db sessionId symbol) = some holding ∧
      items symbol = holdingItem symbol holding := by
  have hitem := runKeyed_ok _ h symbol
  rw [show newItem symbol = holdingItem symbol Holding.empty from rfl, projectItem_foldlM,
    show ((positionEntries db sessionId).filter (fun entry => entry.symbolKey = symbol)).map
      (entryMove db) = symbolMoves db sessionId symbol from rfl] at hitem
  cases hrun : run ledgerDust Holding.empty (symbolMoves db sessionId symbol) with
  | none =>
    rw [hrun] at hitem
    cases hitem
  | some holding =>
    rw [hrun] at hitem
    exact ⟨holding, rfl, (Except.ok.inj hitem).symm⟩

theorem symbolMoves_eq_nil {db : Db} {symbol : String} (h : symbol ∉ projectionSymbols db sessionId)
    : symbolMoves db sessionId symbol = [] := by
  rw [projectionSymbols, List.mem_insertionSort, List.mem_dedup] at h
  rw [symbolMoves, List.map_eq_nil_iff, List.filter_eq_nil_iff]
  intro entry hentry hkey
  exact h (List.mem_map.mpr ⟨entry, hentry, by simpa using hkey⟩)

theorem find?_items {items : String → ProjectedPosition} (symbols : List String)
    (hsymbol : ∀ s, (items s).symbol = s) (symbol : String) :
    ((symbols.map items).filter (fun item => 0 < item.quantity)).find?
        (fun item => item.symbol == symbol) =
      if symbol ∈ symbols ∧ 0 < (items symbol).quantity then some (items symbol) else none := by
  induction symbols with
  | nil => simp
  | cons s symbols ih =>
    rw [List.map_cons]
    by_cases hpos : 0 < (items s).quantity
    · rw [List.filter_cons_of_pos (by simpa using hpos), List.find?_cons, hsymbol]
      by_cases hs : s = symbol
      · subst hs
        simp [hpos]
      · rw [show (s == symbol) = false by simpa using hs]
        simp only [ih, List.mem_cons, Ne.symm hs, false_or]
    · rw [List.filter_cons_of_neg (by simpa using hpos), ih]
      by_cases hs : s = symbol
      · subst hs
        simp [hpos]
      · simp only [List.mem_cons, Ne.symm hs, false_or]

theorem ledgerProjection_ok {db : Db} {projection : LedgerProjection}
    (h : ledgerProjection sessionId db = .ok projection) :
    projection.cash = sessionCash sessionId db.ledger ∧
      ∀ symbol, ∃ holding,
        run ledgerDust .empty (symbolMoves db sessionId symbol) = some holding ∧
        projection.position? symbol =
          if 0 < holding.quantity then some (holdingItem symbol holding) else none := by
  unfold ledgerProjection at h
  cases hitems : projectionItems db sessionId with
  | error e =>
    rw [hitems] at h
    cases h
  | ok items =>
    rw [hitems] at h
    have hprojection := Except.ok.inj h
    subst hprojection
    constructor
    · simp only [sessionEntries, List.filter_filter, sessionCash, sum_map_ite]
      congr 1
      apply List.map_congr_left
      intro entry _
      simp [and_comm]
    · intro symbol
      obtain ⟨holding, hrun, hitem⟩ := projectionItems_eq hitems symbol
      refine ⟨holding, hrun, ?_⟩
      have hsymbol : ∀ s, (items s).symbol = s := by
        intro s
        obtain ⟨_, _, hs⟩ := projectionItems_eq hitems s
        rw [hs]
        rfl
      rw [LedgerProjection.position?, find?_items _ hsymbol, hitem]
      by_cases hmem : symbol ∈ projectionSymbols db sessionId
      · simp only [hmem, true_and, holdingItem]
      · rw [symbolMoves_eq_nil hmem, run_nil] at hrun
        rw [← Option.some.inj hrun, if_neg (by simp [hmem])]
        exact (if_neg (lt_irrefl 0)).symm

theorem ledgerProjection_total {db : Db} (h : ∀ symbol, ∃ holding,
      run ledgerDust .empty (symbolMoves db sessionId symbol) = some holding) :
    ∃ projection, ledgerProjection sessionId db = .ok projection := by
  have htotal : ∃ items, projectionItems db sessionId = .ok items := by
    apply runKeyed_total
    intro symbol
    obtain ⟨holding, hrun⟩ := h symbol
    rw [symbolMoves] at hrun
    refine ⟨holdingItem symbol holding, ?_⟩
    rw [show newItem symbol = holdingItem symbol Holding.empty from rfl, projectItem_foldlM, hrun]
  obtain ⟨items, hitems⟩ := htotal
  rw [ledgerProjection, hitems]
  exact ⟨_, rfl⟩

end LocalPlatform.Paper
