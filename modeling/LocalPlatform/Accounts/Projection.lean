import LocalPlatform.Lib.DatedLog
import LocalPlatform.Paper.Ledger

/-!
# Projections of a Paper account

`create_account` opens an account with one ledger entry and a checkpoint of it,
and `rebuild_projection` of `paper_accounts.py` values the ledger of the
account at a date.

* A rebuild reads the entries whose cycle traded on or before the date, and
  compares their digest with the checkpoint of their greatest sequence number.
* The market data service is a parameter, `MarketData`.  It may have no quote.
* The sums of a rebuild do not depend on the order of its entries, so the
  `order by` of its query is absent.  The digest is taken over numbers instead
  of their texts with eight decimals, which are a function of them.
* The result of a rebuild is the record it stores; `get_overview` reads it back.
-/

namespace LocalPlatform.Accounts

open Paper Transaction DatedLogs

/-! ## Tables -/

/-- `paper_accounts` -/
structure PaperAccount where
  id : String
  shadowSessionId : SessionId
  name : String
  status : String
  marketScope : String
  baseCurrency : String
  initialCash : ℚ
  benchmarkSymbol : String
  currentGeneration : Nat
  deriving DecidableEq

/-- The payload of a checkpoint digest. -/
structure CheckpointState where
  paperAccountId : String
  generation : Nat
  cash : ℚ
  positions : List (String × ℚ)
  sourceLedgerSequence : Nat
  deriving DecidableEq

/-- `paper_account_checkpoints` -/
structure AccountCheckpoint where
  paperAccountId : String
  generation : Nat
  sourceLedgerSequence : Nat
  digest : Digest CheckpointState
  deriving DecidableEq

/-- A row of `paper_account_position_projections`. -/
structure RebuildRow where
  symbol : String
  quantity : ℚ
  averageCost : ℚ
  price : ℚ
  marketValue : ℚ
  unrealizedPnl : ℚ
  quoteDate : String
  deriving DecidableEq

/-- `paper_account_projections` -/
structure AccountProjection where
  generation : Nat
  cash : ℚ
  marketValue : ℚ
  totalEquity : ℚ
  unrealizedPnl : ℚ
  cumulativeReturn : ℚ
  benchmarkReturn : ℚ
  excessReturn : ℚ
  positionCount : Nat
  grossExposure : ℚ
  quoteDataTimestamp : Option String
  sourceLedgerSequence : Nat
  sourceCheckpointDigest : Digest CheckpointState
  healthStatus : String
  deriving DecidableEq

/-- The database of the account services: the tables of the Paper pipeline and
those of the accounts. -/
structure AccountDb where
  paper : Db
  accounts : String → Option PaperAccount
  checkpoints : List AccountCheckpoint
  positions : String → Nat → List RebuildRow
  projections : String → Option AccountProjection

/-- A database without an account. -/
def AccountDb.empty : AccountDb where
  paper := Db.empty
  accounts := fun _ => none
  checkpoints := []
  positions := fun _ _ => []
  projections := fun _ => none

/-- A certified close. -/
structure Quote where
  close : ℚ
  tradeDate : String
  deriving DecidableEq

/-- `close_price` and `market_benchmark_return`, which raise
`MarketDataUnavailable` where they return nothing. -/
structure MarketData where
  closePrice : String → String → Option Quote
  benchmarkReturn : String → String → String → Option ℚ

/-- Every quote and every benchmark return is there. -/
def MarketData.Available (market : MarketData) : Prop :=
  (∀ symbol date, market.closePrice symbol date ≠ none) ∧
    ∀ symbol start stop, market.benchmarkReturn symbol start stop ≠ none

/-- What the account services raise.  The last three are
`CanonicalStateDivergence` with its three messages. -/
inductive AccountError where
  | paper (error : PaperError)
  | marketDataUnavailable (symbol : String)
  | canonicalStateDivergence (accountId : String) (generation sequence : Nat)
  | ledgerContextMissing (accountId cycleId : String)
  | benchmarkProjectionMissing (accountId cycleId : String)
  deriving DecidableEq

/-! ## `create_account` -/

/-- The payload of `create_account`, with the identifiers it draws. -/
structure AccountRequest where
  accountId : String
  sessionId : SessionId
  name : String
  market : String
  currency : String := "CNY"
  initialCash : ℚ
  benchmark : String := "000300"

/-- `insert_account_opening_ledger_entry` -/
def accountOpeningEntry (sessionId : SessionId) (accountId : String) (initialCash : ℚ)
    (currency : String) : LedgerEntry where
  sessionId := sessionId
  intentId := none
  fillId := none
  entryType := .cashDeposit
  asset := .cash
  symbol := none
  quantity := 0
  amount := initialCash
  currency := currency
  idempotencyKey := .text s!"account:{accountId}:generation:1:opening:cash"
  tradeDate := none
  debitAccount := none
  creditAccount := none
  paperAccountId := some accountId
  accountGeneration := some 1
  executionCycleId := none
  ledgerSequence := some 1

/-- The shadow session of an account. -/
def shadowSession (request : AccountRequest) (market : String) : Session where
  id := request.sessionId
  symbol := upper (strip request.benchmark)
  assetClass := "equity"
  venue := market
  status := "created"
  cash := 0
  equity := 0
  parameters := [("paperAccountId", .text request.accountId), ("accountGeneration", .num 1)]
  sourceBacktestId := ""
  startDate := none
  lastProcessedDate := none

/-- The digest of the opening checkpoint. -/
def openingDigest (accountId : String) (initialCash : ℚ) : Digest CheckpointState where
  payload :=
    { paperAccountId := accountId
      generation := 1
      cash := initialCash
      positions := []
      sourceLedgerSequence := 1 }

/-- `_market` -/
def accountMarket (market : String) : Except AccountError String :=
  let normalized := lower (strip (if market = "" then "china" else market))
  if normalized = "china" then .ok normalized
  else .error (.paper (.valueError
    "Paper Accounts v1 supports certified China A-share daily data only."))

/-- The checks of `create_account`, which return the market. -/
def checkAccount (request : AccountRequest) : Except AccountError String :=
  if strip request.name = "" then .error (.paper (.valueError "Account name is required."))
  else
    match accountMarket request.market with
    | .error e => .error e
    | .ok market =>
      if upper request.currency ≠ "CNY" then
        .error (.paper (.valueError "China A-share Paper Accounts require CNY base currency."))
      else if request.initialCash ≤ 0 then
        .error (.paper (.valueError "Amount must be a positive finite decimal."))
      else .ok market

/-- The row of a new account. -/
def AccountRequest.account (request : AccountRequest) (market : String) : PaperAccount where
  id := request.accountId
  shadowSessionId := request.sessionId
  name := strip request.name
  status := "draft"
  marketScope := market
  baseCurrency := upper request.currency
  initialCash := round8 request.initialCash
  benchmarkSymbol := upper (strip request.benchmark)
  currentGeneration := 1

/-- The projection of a new account. -/
def AccountRequest.projection (request : AccountRequest) : AccountProjection where
  generation := 1
  cash := round8 request.initialCash
  marketValue := 0
  totalEquity := round8 request.initialCash
  unrealizedPnl := 0
  cumulativeReturn := 0
  benchmarkReturn := 0
  excessReturn := 0
  positionCount := 0
  grossExposure := 0
  quoteDataTimestamp := none
  sourceLedgerSequence := 1
  sourceCheckpointDigest := openingDigest request.accountId (round8 request.initialCash)
  healthStatus := "healthy"

def AccountRequest.openingEntry (request : AccountRequest) : LedgerEntry :=
  accountOpeningEntry request.sessionId request.accountId (round8 request.initialCash)
    (upper request.currency)

/-- The opening checkpoint of a new account. -/
def AccountRequest.openingCheckpoint (request : AccountRequest) : AccountCheckpoint where
  paperAccountId := request.accountId
  generation := 1
  sourceLedgerSequence := 1
  digest := openingDigest request.accountId (round8 request.initialCash)

/-- `create_account` -/
def createAccount (request : AccountRequest) (db : AccountDb) :
    Except AccountError (PaperAccount × AccountDb) :=
  match checkAccount request with
  | .error e => .error e
  | .ok market =>
    match insertEntry db.paper.ledger request.openingEntry with
    | .error e => .error (.paper e)
    | .ok ledger =>
      .ok (request.account market,
        { db with
          paper := { db.paper with
            sessions := Function.update db.paper.sessions request.sessionId
              (some (shadowSession request market))
            ledger := ledger }
          accounts := Function.update db.accounts request.accountId (some (request.account market))
          checkpoints := db.checkpoints ++ [request.openingCheckpoint]
          projections := Function.update db.projections request.accountId
            (some request.projection) })

variable {db : AccountDb} {account : PaperAccount}

theorem createAccount_ok {request : AccountRequest} {db' : AccountDb}
    (h : createAccount request db = .ok (account, db')) :
    account.currentGeneration = 1 ∧ db'.accounts request.accountId = some account ∧
      db'.paper.ledger = db.paper.ledger ++ [request.openingEntry] ∧
      db'.paper.cycles = db.paper.cycles ∧
      db'.checkpoints = db.checkpoints ++ [request.openingCheckpoint] := by
  unfold createAccount at h
  split at h
  · cases h
  · split at h
    · cases h
    · rename_i ledger hinsert
      obtain ⟨rfl, rfl⟩ := ok_inj h
      exact ⟨rfl, Function.update_self .., insertEntry_ok hinsert, rfl, rfl⟩

/-! ## `rebuild_projection` -/

def accountEntries (db : Db) (accountId : String) (generation : Nat) : List LedgerEntry :=
  db.ledger.filter (fun entry =>
    entry.paperAccountId == some accountId && entry.accountGeneration == some generation)

def findCycle (db : Db) (id : String) : Option CycleContext :=
  db.cycles.find? (fun cycle => cycle.id == id)

/-- `ledger.execution_cycle_id is null or cycle.trading_date<=?` -/
def inCut (db : Db) (valuationDate : String) (entry : LedgerEntry) : Bool :=
  match entry.executionCycleId with
  | none => true
  | some id => (findCycle db id).any (fun cycle => cycle.tradingDate ≤ valuationDate)

def rebuildEntries (db : Db) (accountId : String) (generation : Nat) (valuationDate : String) :
    List LedgerEntry :=
  (accountEntries db accountId generation).filter (inCut db valuationDate)

/-- `min(trading_date)` of the cycles of an account generation up to a date. -/
def firstCycleDate (db : Db) (accountId : String) (generation : Nat) (valuationDate : String) :
    Option String :=
  ((db.cycles.filter (fun cycle => cycle.paperAccountId == accountId &&
    cycle.accountGeneration == generation && cycle.tradingDate ≤ valuationDate &&
    cycle.status != "skipped" && cycle.status != "failed")).map CycleContext.tradingDate).min?

def movesPosition (entry : LedgerEntry) : Bool :=
  entry.asset == .equity && entry.symbol.any (· ≠ "")

/-- `positions[symbol] = positions.get(symbol, 0) + quantity` -/
def addQuantity (positions : String → ℚ) (entry : LedgerEntry) : String → ℚ :=
  Function.update positions entry.symbolKey
    (positions entry.symbolKey + round8 entry.quantity)

/-- `costs[symbol] = costs.get(symbol, 0) + amount`, of an increase. -/
def addCost (costs : String → ℚ) (entry : LedgerEntry) : String → ℚ :=
  if 0 < round8 entry.quantity then
    Function.update costs entry.symbolKey (costs entry.symbolKey + round8 entry.amount)
  else costs

/-- The dictionary `positions` after the loop. -/
def heldQuantities (entries : List LedgerEntry) : String → ℚ :=
  (entries.filter movesPosition).foldl addQuantity (fun _ => 0)

/-- The dictionary `costs` after the loop. -/
def heldCosts (entries : List LedgerEntry) : String → ℚ :=
  (entries.filter movesPosition).foldl addCost (fun _ => 0)

def heldSymbols (entries : List LedgerEntry) : List String :=
  ((((entries.filter movesPosition).map LedgerEntry.symbolKey).dedup).insertionSort
    (· ≤ ·)).filter (fun symbol => heldQuantities entries symbol ≠ 0)

def entriesCash (entries : List LedgerEntry) : ℚ :=
  ((entries.filter (fun entry => entry.asset == .cash)).map
    (fun entry => round8 entry.amount)).sum

/-- `int(item.get("ledger_sequence") or 0)` -/
def entryNumber (entry : LedgerEntry) : Nat := entry.ledgerSequence.getD 0

/-- The digest of the entries. -/
def entriesDigest (accountId : String) (generation : Nat) (entries : List LedgerEntry) :
    Digest CheckpointState where
  payload :=
    { paperAccountId := accountId
      generation := generation
      cash := entriesCash entries
      positions := (heldSymbols entries).map (fun symbol =>
        (symbol, heldQuantities entries symbol))
      sourceLedgerSequence := top entryNumber entries }

/-- The row of a held symbol. -/
def rebuildRow (market : MarketData) (valuationDate : String) (entries : List LedgerEntry)
    (symbol : String) : Except AccountError RebuildRow :=
  match market.closePrice symbol valuationDate with
  | none => .error (.marketDataUnavailable symbol)
  | some quote =>
    let quantity := heldQuantities entries symbol
    let price := round8 quote.close
    let value := quantity * price
    .ok
      { symbol := symbol
        quantity := quantity
        averageCost := heldCosts entries symbol / quantity
        price := price
        marketValue := value
        unrealizedPnl := value - heldCosts entries symbol
        quoteDate := quote.tradeDate }

/-- What a rebuild computes. -/
structure Rebuild where
  rows : List RebuildRow
  projection : AccountProjection
  deriving DecidableEq

/-- The benchmark return of a rebuild: from the first cycle on, or the one
stored before. -/
def benchmarkValue (market : MarketData) (account : PaperAccount) (start : Option String)
    (prior : Option AccountProjection) (valuationDate : String) : Except AccountError ℚ :=
  match start with
  | some start =>
    match market.benchmarkReturn account.benchmarkSymbol start valuationDate with
    | some value => .ok (round8 value)
    | none => .error (.marketDataUnavailable account.benchmarkSymbol)
  | none => .ok (round8 ((prior.map AccountProjection.benchmarkReturn).getD 0))

/-- The part of `rebuild_projection` between its reads and its writes. -/
def computeRebuild (market : MarketData) (accountId : String) (account : PaperAccount)
    (entries : List LedgerEntry) (start : Option String) (prior : Option AccountProjection)
    (valuationDate : String) : Except AccountError Rebuild := do
  let rows ← (heldSymbols entries).mapM (rebuildRow market valuationDate entries)
  let benchmark ← benchmarkValue market account start prior valuationDate
  let marketValue := (rows.map RebuildRow.marketValue).sum
  let cash := entriesCash entries
  let equity := cash + marketValue
  let initial := round8 account.initialCash
  let cumulative := if initial ≠ 0 then equity / initial - 1 else 0
  pure
    { rows := rows
      projection :=
        { generation := account.currentGeneration
          cash := cash
          marketValue := marketValue
          totalEquity := equity
          unrealizedPnl := (rows.map RebuildRow.unrealizedPnl).sum
          cumulativeReturn := cumulative
          benchmarkReturn := benchmark
          excessReturn := cumulative - benchmark
          positionCount := rows.length
          grossExposure := if equity ≠ 0 then marketValue / equity else 0
          quoteDataTimestamp := ((rows.map RebuildRow.quoteDate).filter (· ≠ "")).max?
          sourceLedgerSequence := top entryNumber entries
          sourceCheckpointDigest := entriesDigest accountId account.currentGeneration entries
          healthStatus := "healthy" } }

/-- The checkpoint of an account generation at a sequence number. -/
def findCheckpoint (db : AccountDb) (accountId : String) (generation sequence : Nat) :
    Option AccountCheckpoint :=
  db.checkpoints.find? (fun row => row.paperAccountId == accountId &&
    row.generation == generation && row.sourceLedgerSequence == sequence)

/-- `update paper_account_projections set health_status=?` -/
def AccountDb.setHealth (db : AccountDb) (accountId status : String) : AccountDb :=
  { db with
    projections := Function.update db.projections accountId
      ((db.projections accountId).map (fun row => { row with healthStatus := status })) }

/-- `update paper_accounts set status=?` -/
def AccountDb.setStatus (db : AccountDb) (accountId status : String) : AccountDb :=
  { db with
    accounts := Function.update db.accounts accountId
      ((db.accounts accountId).map (fun row => { row with status := status })) }

/-- The last transaction of a rebuild. -/
def storeRebuild (accountId : String) (generation : Nat) (rebuild : Rebuild) (isNew : Bool)
    (db : AccountDb) : AccountDb :=
  { db with
    positions := Function.update db.positions accountId
      (Function.update (db.positions accountId) generation rebuild.rows)
    checkpoints := db.checkpoints ++
      (if isNew then
        [{ paperAccountId := accountId
           generation := generation
           sourceLedgerSequence := rebuild.projection.sourceLedgerSequence
           digest := rebuild.projection.sourceCheckpointDigest }]
      else [])
    projections := Function.update db.projections accountId (some rebuild.projection) }

/-- `_account_row` -/
def getAccount (accountId : String) (db : AccountDb) : Except AccountError PaperAccount :=
  match db.accounts accountId with
  | some account => .ok account
  | none => .error (.paper (.keyError "Paper account not found."))

/-- The writes of `rebuild_projection`: what was computed is compared with the
checkpoint of its sequence number, and stored. -/
def commitRebuild (accountId : String) (generation : Nat) :
    Except AccountError Rebuild → TxM AccountDb AccountError Rebuild
  | .error e => do
    let _ ← TxM.tx (fun db => .ok ((), db.setHealth accountId "degraded"))
    TxM.fail e
  | .ok rebuild => do
    let sequence := rebuild.projection.sourceLedgerSequence
    let existing ← TxM.read (fun db => .ok (findCheckpoint db accountId generation sequence))
    if existing.any (fun row => row.digest ≠ rebuild.projection.sourceCheckpointDigest) then do
      let _ ← TxM.tx (fun db => .ok ((),
        (db.setStatus accountId "error").setHealth accountId "error"))
      TxM.fail (.canonicalStateDivergence accountId generation sequence)
    else
      TxM.tx (fun db => .ok (rebuild,
        storeRebuild accountId generation rebuild existing.isNone db))

/-- `rebuild_projection` at a valuation date. -/
def rebuildProjection (market : MarketData) (accountId valuationDate : String)
    (benchmarkStartDate : Option String) : TxM AccountDb AccountError Rebuild := do
  let account ← TxM.read (getAccount accountId)
  let computed ← TxM.read (fun db => .ok (computeRebuild market accountId account
    (rebuildEntries db.paper accountId account.currentGeneration valuationDate)
    (benchmarkStartDate <|>
      firstCycleDate db.paper accountId account.currentGeneration valuationDate)
    (db.projections accountId) valuationDate))
  commitRebuild accountId account.currentGeneration computed

/-! ## What a rebuild can do -/

/-- The parts of a rebuild that its entries determine. -/
structure IsRebuildOf (accountId : String) (generation : Nat) (entries : List LedgerEntry)
    (rebuild : Rebuild) : Prop where
  cash : rebuild.projection.cash = entriesCash entries
  quantities : rebuild.rows.map (fun row => (row.symbol, row.quantity)) =
    (heldSymbols entries).map (fun symbol => (symbol, heldQuantities entries symbol))
  sequence : rebuild.projection.sourceLedgerSequence = top entryNumber entries
  digest : rebuild.projection.sourceCheckpointDigest = entriesDigest accountId generation entries

variable {market : MarketData} {valuationDate : String} {entries : List LedgerEntry}

theorem rebuildRow_ok {symbol : String} {row : RebuildRow}
    (h : rebuildRow market valuationDate entries symbol = .ok row) :
    row.symbol = symbol ∧ row.quantity = heldQuantities entries symbol ∧
      row.averageCost = heldCosts entries symbol / heldQuantities entries symbol ∧
      row.unrealizedPnl =
        heldQuantities entries symbol * row.price - heldCosts entries symbol := by
  unfold rebuildRow at h
  split at h
  · cases h
  · rw [← Except.ok.inj h]
    exact ⟨rfl, rfl, rfl, rfl⟩

theorem rebuildRows_ok (symbols : List String) :
    ∀ {rows : List RebuildRow},
      symbols.mapM (rebuildRow market valuationDate entries) = .ok rows →
        List.Forall₂ (fun symbol row =>
          rebuildRow market valuationDate entries symbol = .ok row) symbols rows := by
  induction symbols with
  | nil =>
    intro rows h
    rw [List.mapM_nil] at h
    rw [← Except.ok.inj h]
    exact .nil
  | cons symbol symbols ih =>
    intro rows h
    rw [List.mapM_cons] at h
    cases hrow : rebuildRow market valuationDate entries symbol with
    | error e =>
      rw [hrow] at h
      cases h
    | ok row =>
      cases hrest : symbols.mapM (rebuildRow market valuationDate entries) with
      | error e =>
        rw [hrow, hrest] at h
        cases h
      | ok rest =>
        rw [hrow, hrest] at h
        rw [← Except.ok.inj h]
        exact .cons hrow (ih hrest)

variable {accountId : String} {start : Option String} {prior : Option AccountProjection}
  {rebuild : Rebuild}

theorem computeRebuild_ok
    (h : computeRebuild market accountId account entries start prior valuationDate =
      .ok rebuild) :
    IsRebuildOf accountId account.currentGeneration entries rebuild ∧
      List.Forall₂ (fun symbol row =>
        rebuildRow market valuationDate entries symbol = .ok row)
          (heldSymbols entries) rebuild.rows := by
  unfold computeRebuild at h
  cases hrows : (heldSymbols entries).mapM (rebuildRow market valuationDate entries) with
  | error e =>
    rw [hrows] at h
    cases h
  | ok rows =>
    cases hbenchmark : benchmarkValue market account start prior valuationDate with
    | error e =>
      rw [hrows, hbenchmark] at h
      cases h
    | ok benchmark =>
      rw [hrows, hbenchmark] at h
      have hrebuild := Except.ok.inj h
      subst hrebuild
      have hforall := rebuildRows_ok _ hrows
      refine ⟨⟨rfl, ?_, rfl, rfl⟩, hforall⟩
      rw [← List.forall₂_eq_eq_eq, List.forall₂_map_left_iff, List.forall₂_map_right_iff]
      refine hforall.flip.imp ?_
      intro row symbol hrow
      obtain ⟨hsymbol, hquantity, -, -⟩ := rebuildRow_ok hrow
      rw [hsymbol, hquantity]

variable {e : AccountError}

theorem rebuildRow_error {symbol : String}
    (h : rebuildRow market valuationDate entries symbol = .error e) :
    (∃ symbol, e = .marketDataUnavailable symbol) ∧ ¬ market.Available := by
  unfold rebuildRow at h
  split at h
  · rename_i hquote
    exact ⟨⟨symbol, (Except.error.inj h).symm⟩, fun havailable => havailable.1 _ _ hquote⟩
  · cases h

theorem rebuildRows_error (symbols : List String) : ∀ {e : AccountError},
    symbols.mapM (rebuildRow market valuationDate entries) = .error e →
      (∃ symbol, e = .marketDataUnavailable symbol) ∧ ¬ market.Available := by
  induction symbols with
  | nil =>
    intro e h
    cases h
  | cons symbol symbols ih =>
    intro e h
    rw [List.mapM_cons] at h
    cases hrow : rebuildRow market valuationDate entries symbol with
    | error e' =>
      rw [hrow] at h
      rw [← Except.error.inj h]
      exact rebuildRow_error hrow
    | ok row =>
      cases hrest : symbols.mapM (rebuildRow market valuationDate entries) with
      | error e' =>
        rw [hrow, hrest] at h
        rw [← Except.error.inj h]
        exact ih hrest
      | ok rest =>
        rw [hrow, hrest] at h
        cases h

theorem benchmarkValue_error
    (h : benchmarkValue market account start prior valuationDate = .error e) :
    (∃ symbol, e = .marketDataUnavailable symbol) ∧ ¬ market.Available := by
  unfold benchmarkValue at h
  split at h
  · split at h
    · cases h
    · rename_i hreturn
      exact ⟨⟨_, (Except.error.inj h).symm⟩, fun havailable => havailable.2 _ _ _ hreturn⟩
  · cases h

theorem computeRebuild_error
    (h : computeRebuild market accountId account entries start prior valuationDate = .error e) :
    (∃ symbol, e = .marketDataUnavailable symbol) ∧ ¬ market.Available := by
  unfold computeRebuild at h
  cases hrows : (heldSymbols entries).mapM (rebuildRow market valuationDate entries) with
  | error e' =>
    rw [hrows] at h
    rw [← Except.error.inj h]
    exact rebuildRows_error _ hrows
  | ok rows =>
    cases hbenchmark : benchmarkValue market account start prior valuationDate with
    | error e' =>
      rw [hrows, hbenchmark] at h
      rw [← Except.error.inj h]
      exact benchmarkValue_error hbenchmark
    | ok benchmark =>
      rw [hrows, hbenchmark] at h
      cases h

theorem rebuildProjection_run (h : db.accounts accountId = some account) :
    rebuildProjection market accountId valuationDate start db =
      commitRebuild accountId account.currentGeneration
        (computeRebuild market accountId account
          (rebuildEntries db.paper accountId account.currentGeneration valuationDate)
          (start <|> firstCycleDate db.paper accountId account.currentGeneration valuationDate)
          (db.projections accountId) valuationDate) db := by
  have haccount : (TxM.read (getAccount accountId) db).value = .ok account := by
    simp only [TxM.read, getAccount, h]
  unfold rebuildProjection
  rw [TxM.bind_ok haccount, TxM.bind_ok rfl]
  rfl

theorem commitRebuild_error (accountId : String) (generation : Nat) (e : AccountError)
    (db : AccountDb) :
    (commitRebuild accountId generation (.error e) db).value = .error e ∧
      (commitRebuild accountId generation (.error e) db).state =
        db.setHealth accountId "degraded" :=
  ⟨rfl, rfl⟩

variable {generation : Nat}

theorem findCheckpoint_storeRebuild (h : ∀ row, findCheckpoint db accountId generation
      rebuild.projection.sourceLedgerSequence = some row →
        row.digest = rebuild.projection.sourceCheckpointDigest) :
    ∀ row, findCheckpoint (storeRebuild accountId generation rebuild
      (findCheckpoint db accountId generation
        rebuild.projection.sourceLedgerSequence).isNone db) accountId generation
          rebuild.projection.sourceLedgerSequence = some row →
            row.digest = rebuild.projection.sourceCheckpointDigest := by
  intro row hrow
  cases hfind : findCheckpoint db accountId generation
      rebuild.projection.sourceLedgerSequence with
  | some stored =>
    rw [hfind] at hrow
    rw [findCheckpoint, storeRebuild, List.find?_append] at hrow
    rw [findCheckpoint] at hfind
    rw [hfind, Option.some_or] at hrow
    rw [← Option.some.inj hrow]
    exact h stored hfind
  | none =>
    rw [hfind] at hrow
    rw [findCheckpoint, storeRebuild, List.find?_append] at hrow
    rw [findCheckpoint] at hfind
    rw [hfind, Option.none_or] at hrow
    simp only [Option.isNone_none, if_true, List.find?_cons, beq_self_eq_true,
      Bool.and_self, Option.some.injEq] at hrow
    rw [← hrow]

theorem wp_commitRebuild_error {I : AccountDb → Prop}
    {Q : Except AccountError Rebuild → AccountDb → Prop}
    (hcommit : I (db.setHealth accountId "degraded"))
    (hpost : Q (.error e) (db.setHealth accountId "degraded")) :
    TxM.wp I (commitRebuild accountId generation (.error e)) Q db := by
  refine ⟨?_, hpost⟩
  intro t ht
  rw [List.mem_singleton.mp ht]
  exact hcommit

theorem commitRebuild_run (h : ∀ row, findCheckpoint db accountId generation
      rebuild.projection.sourceLedgerSequence = some row →
        row.digest = rebuild.projection.sourceCheckpointDigest) :
    commitRebuild accountId generation (.ok rebuild) db =
      TxM.tx (fun db => .ok (rebuild, storeRebuild accountId generation rebuild
        (findCheckpoint db accountId generation
          rebuild.projection.sourceLedgerSequence).isNone db)) db := by
  have hagrees : (findCheckpoint db accountId generation
      rebuild.projection.sourceLedgerSequence).any
        (fun row => row.digest ≠ rebuild.projection.sourceCheckpointDigest) = false := by
    cases hrow : findCheckpoint db accountId generation
        rebuild.projection.sourceLedgerSequence with
    | none => rfl
    | some row => simp [h row hrow]
  rw [commitRebuild, TxM.bind_ok rfl]
  simp only [TxM.read, hagrees, Bool.false_eq_true, if_false]
  rfl

theorem commitRebuild_agrees (h : ∀ row, findCheckpoint db accountId generation
      rebuild.projection.sourceLedgerSequence = some row →
        row.digest = rebuild.projection.sourceCheckpointDigest) :
    (commitRebuild accountId generation (.ok rebuild) db).value = .ok rebuild ∧
      (commitRebuild accountId generation (.ok rebuild) db).state =
        storeRebuild accountId generation rebuild
          (findCheckpoint db accountId generation
            rebuild.projection.sourceLedgerSequence).isNone db := by
  rw [commitRebuild_run h]
  exact ⟨rfl, rfl⟩

end LocalPlatform.Accounts
