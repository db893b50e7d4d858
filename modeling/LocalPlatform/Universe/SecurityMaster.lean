import LocalPlatform.Universe.Membership

/-!
# The security master

The writers of `securities` and `instruments`.

* `import_security_master` reads records and writes each of them by itself, or all of them in bulk.
* `upsert_security` writes a security, and the instrument of it through `upsert_instrument`.
* `upsert_market_daily_bars` and `upsert_market_daily_bars_batch` write the instruments of the bars
  that they store.

The statement of `upsert_instrument` and the one of the bulk import merge an instrument in
different ways (`Instrument.merge`, `Instrument.mergeBulk`).

An instrument id is the four parts that `instrument_id` joins, none of which holds a colon where
the symbol is that of an A-share.  Timestamps, the bars themselves and the certification of their
source are left out.
-/

namespace LocalPlatform.Universe

open Paper Tables

/-! ## Securities -/

/-- A row of `securities` with its concepts. -/
structure StoredSecurity extends Security where
  concepts : List String
  deriving DecidableEq

/-- The `on conflict` clause for `securities`, of both imports. -/
def StoredSecurity.merge (old excluded : StoredSecurity) : StoredSecurity where
  toSecurity := old.toSecurity.merge excluded.toSecurity
  concepts := excluded.concepts

/-! ## Instruments -/

/-- `instrument_id` -/
structure InstrumentId where
  assetClass : String
  market : String
  venue : String
  symbol : String
  deriving DecidableEq

def instrumentId (assetClass market symbol : String) (venue : Option String) : InstrumentId where
  assetClass := lower assetClass
  market := lower market
  venue := lower (firstText [venue, some market])
  symbol := upper symbol

/-- The columns that a call of `upsert_instrument` fills in where it gives them. -/
structure Contract where
  currency : Option String
  baseCurrency : Option String
  quoteCurrency : Option String
  underlyingSymbol : Option String
  expiryDate : Option String
  lotSize : Option ℚ
  tickSize : Option ℚ
  contractMultiplier : Option ℚ
  marginRate : Option ℚ
  deriving DecidableEq

def Contract.coalesce (old excluded : Contract) : Contract where
  currency := excluded.currency.or old.currency
  baseCurrency := excluded.baseCurrency.or old.baseCurrency
  quoteCurrency := excluded.quoteCurrency.or old.quoteCurrency
  underlyingSymbol := excluded.underlyingSymbol.or old.underlyingSymbol
  expiryDate := excluded.expiryDate.or old.expiryDate
  lotSize := excluded.lotSize.or old.lotSize
  tickSize := excluded.tickSize.or old.tickSize
  contractMultiplier := excluded.contractMultiplier.or old.contractMultiplier
  marginRate := excluded.marginRate.or old.marginRate

def noContract : Contract where
  currency := none
  baseCurrency := none
  quoteCurrency := none
  underlyingSymbol := none
  expiryDate := none
  lotSize := none
  tickSize := none
  contractMultiplier := none
  marginRate := none

def shareContract : Contract :=
  { noContract with currency := some "CNY", lotSize := some 100, tickSize := some (1 / 100) }

/-- The metadata that a security gives its instrument. -/
structure SecurityMetadata where
  sourceStatus : String
  isSt : Bool
  industry : Option String
  concepts : List String
  deriving DecidableEq

/-- A row of `instruments`. -/
structure Instrument where
  id : InstrumentId
  name : Option String
  exchange : Option String
  listedDate : Option String
  delistedDate : Option String
  status : String
  contract : Contract
  metadata : Option SecurityMetadata
  source : String
  deriving DecidableEq

def earlier : Option String → Option String → Option String
  | none, excluded => excluded
  | some old, none => some old
  | some old, some excluded => if old ≤ excluded then some old else some excluded

/-- `excluded.name = excluded.symbol and instruments.name <> instruments.symbol` -/
def Instrument.keepsName (old excluded : Instrument) : Prop :=
  excluded.name = some excluded.id.symbol ∧ old.name ≠ none ∧ old.name ≠ some old.id.symbol

instance (old excluded : Instrument) : Decidable (old.keepsName excluded) :=
  inferInstanceAs (Decidable (_ ∧ _ ∧ _))

/-- The `on conflict` clause of `upsert_instrument`. -/
def Instrument.merge (old excluded : Instrument) : Instrument where
  id := old.id
  name := if old.keepsName excluded then old.name else excluded.name.or old.name
  exchange := excluded.exchange.or old.exchange
  listedDate := earlier old.listedDate excluded.listedDate
  delistedDate := excluded.delistedDate
  status := excluded.status
  contract := old.contract.coalesce excluded.contract
  metadata := excluded.metadata
  source := excluded.source

/-- The `on conflict` clause of the bulk import. -/
def Instrument.mergeBulk (old excluded : Instrument) : Instrument where
  id := old.id
  name := if old.keepsName excluded then old.name else excluded.name
  exchange := excluded.exchange
  listedDate := earlier old.listedDate excluded.listedDate
  delistedDate := excluded.delistedDate.or old.delistedDate
  status := if excluded.delistedDate = none ∧ old.delistedDate ≠ none then old.status
    else excluded.status
  contract := old.contract
  metadata := excluded.metadata
  source := excluded.source

/-- The instrument of a security, as both imports write it. -/
def StoredSecurity.instrument (security : StoredSecurity) : Instrument where
  id := instrumentId "equity" "china" security.symbol (some "china")
  name := some (firstText [some security.name, some security.symbol])
  exchange := some (firstText [some security.exchange, some (inferExchange security.symbol)])
  listedDate := some security.listedDate
  delistedDate := security.delistedDate
  status := if security.status = "delisted" then "delisted" else "active"
  contract := shareContract
  metadata := some
    { sourceStatus := security.status
      isSt := security.isSt
      industry := security.industry
      concepts := security.concepts }
  source := "securities"

/-- The instrument that the bars of a symbol are stored under. -/
def barsInstrument (assetClass market symbol source : String) (venue : Option String) :
    Instrument where
  id := instrumentId assetClass market symbol venue
  name := some (upper symbol)
  exchange := none
  listedDate := none
  delistedDate := none
  status := "active"
  contract := noContract
  metadata := none
  source := source

/-! ## Writes -/

structure MasterDb where
  securities : List StoredSecurity
  instruments : List Instrument
  memberships : List UniverseMembership
  deriving DecidableEq

def MasterDb.putSecurity (db : MasterDb) (security : StoredSecurity) : MasterDb :=
  { db with
    securities := upsert (fun row : StoredSecurity => row.symbol) StoredSecurity.merge db.securities
      security }

/-- `upsert_instrument` -/
def MasterDb.upsertInstrument (db : MasterDb) (instrument : Instrument) : MasterDb :=
  { db with instruments := upsert Instrument.id Instrument.merge db.instruments instrument }

/-- `upsert_universe_membership` -/
def MasterDb.upsertMembership (db : MasterDb) (row : UniverseMembership) : MasterDb :=
  { db with
    memberships := upsert UniverseMembership.key (fun _ excluded => excluded) db.memberships
      row.stored }

/-- The arguments of `upsert_security`. -/
structure SecurityCall where
  symbol : String
  name : Option String
  exchange : Option String
  listedDate : String
  delistedDate : Option String
  status : String
  isSt : Bool
  industry : Option String
  concepts : Option (List String)

def SecurityCall.security (call : SecurityCall) : StoredSecurity where
  symbol := call.symbol
  name := firstText [call.name, some call.symbol]
  exchange := firstText [call.exchange, some (inferExchange call.symbol)]
  listedDate := call.listedDate
  delistedDate := call.delistedDate
  status := call.status
  isSt := call.isSt
  industry := call.industry
  concepts := call.concepts.getD []

/-- `upsert_security`: the security, and then its instrument. -/
def MasterDb.upsertSecurity (db : MasterDb) (security : StoredSecurity) : MasterDb :=
  (db.putSecurity security).upsertInstrument security.instrument

/-! ## Records -/

/-- A record of the import.  The lists hold the values under the names that are tried in turn. -/
structure SecurityRecord where
  symbols : List (Option String)
  listedDate : RawDate IsoDate
  delistedDate : RawDate IsoDate
  statuses : List (Option String)
  names : List (Option String)
  exchanges : List (Option String)
  isSt : Bool
  industry : Option String
  concepts : Option (List String)
  source : Option String
  announceDate : RawDate IsoDate
  effectiveDate : RawDate IsoDate

def isShare (symbol : String) : Bool := isDigits symbol && symbol.length == 6

/-- `_symbol` -/
def shareSymbol (symbols : List (Option String)) : Except String String :=
  let raw := firstText symbols
  if raw = "" then .error "symbol is required."
  else
    let value := String.ofList ((upper (strip raw)).toList.takeWhile (· ≠ '.'))
    if isShare value then .ok value else .error s!"A-share symbol must be 6 digits: '{raw}'."

/-- `_date` -/
def isoDateOf (field : String) : RawDate IsoDate → Except String IsoDate
  | .missing => .error s!"{field} is required."
  | .day date => .ok date
  | .invalid text => .error s!"Invalid {field}: '{text}'; expected YYYY-MM-DD or YYYYMMDD."

/-- `_optional_date` -/
def optionalIsoDate : RawDate IsoDate → Except String (Option IsoDate)
  | .missing => .ok none
  | value => (isoDateOf "date" value).map some

/-- `_status` -/
def securityStatus (statuses : List (Option String)) : String :=
  let raw := lower (strip (firstText (statuses ++ [some "listed"])))
  match raw with
  | "l" => "listed"
  | "list" => "listed"
  | "上市" => "listed"
  | "normal" => "listed"
  | "d" => "delisted"
  | "delist" => "delisted"
  | "退市" => "delisted"
  | "p" => "pending"
  | "pending" => "pending"
  | "暂停上市" => "suspended"
  | "s" => "suspended"
  | "" => "listed"
  | raw => raw

/-- What the import reads of a record for the security. -/
def SecurityRecord.call (record : SecurityRecord) : Except String SecurityCall := do
  let symbol ← shareSymbol record.symbols
  let listedDate ← isoDateOf "listed_date" record.listedDate
  let delistedDate ← optionalIsoDate record.delistedDate
  let status := securityStatus record.statuses
  return {
    symbol := symbol
    name := some (firstText (record.names ++ [some symbol]))
    exchange := some (firstText (record.exchanges ++ [some (inferExchange symbol)]))
    listedDate := listedDate.text
    delistedDate := delistedDate.map IsoDate.text
    status := if delistedDate.isSome ∧ status = "listed" then "delisted" else status
    isSt := record.isSt
    industry := record.industry
    concepts := record.concepts }

structure ImportRequest where
  records : List SecurityRecord
  source : String
  universeCode : String
  batchId : String

/-- What the import reads of a record for the membership. -/
def ImportRequest.membership (request : ImportRequest) (record : SecurityRecord)
    (call : SecurityCall) : Except String UniverseMembership := do
  let announceDate ← optionalIsoDate record.announceDate
  let effectiveDate ← optionalIsoDate record.effectiveDate
  return {
    universeCode := upper request.universeCode
    symbol := call.symbol
    startDate := call.listedDate
    endDate := call.delistedDate
    announceDate := some ((announceDate.map IsoDate.text).getD call.listedDate)
    effectiveDate := some ((effectiveDate.map IsoDate.text).getD call.listedDate)
    weight := none
    source := firstText [record.source, some request.source]
    batchId := some request.batchId }

/-! ## Imports -/

/-- The loop of `import_security_master`; what was written before an error stays. -/
def ImportRequest.loop (request : ImportRequest) : List SecurityRecord → MasterDb →
    MasterDb × Except String Unit
  | [], db => (db, .ok ())
  | record :: records, db =>
    match record.call with
    | .error message => (db, .error message)
    | .ok call =>
      -- the security is committed before the dates of the membership are read
      let db := db.upsertSecurity call.security
      match request.membership record call with
      | .error message => (db, .error message)
      | .ok membership => request.loop records (db.upsertMembership membership)

/-- The parameters of a record for the bulk import. -/
def ImportRequest.parameters (request : ImportRequest) (record : SecurityRecord) :
    Except String (StoredSecurity × UniverseMembership) := do
  let call ← record.call
  let membership ← request.membership record call
  return (call.security, membership)

/-- The three statements of the bulk import, in one transaction. -/
def MasterDb.executeBulk (db : MasterDb) (rows : List (StoredSecurity × UniverseMembership)) :
    MasterDb where
  securities := (rows.map Prod.fst).foldl
    (upsert (fun row : StoredSecurity => row.symbol) StoredSecurity.merge) db.securities
  instruments := (rows.map (fun row => row.1.instrument)).foldl
    (upsert Instrument.id Instrument.mergeBulk) db.instruments
  memberships := (rows.map Prod.snd).foldl
    (upsert UniverseMembership.key (fun _ excluded => excluded)) db.memberships

/-- `import_security_master` -/
def importSecurityMaster (request : ImportRequest) (bulk : Bool) (db : MasterDb) :
    MasterDb × Except String Unit :=
  if bulk ∧ request.records ≠ [] then
    match request.records.mapM request.parameters with
    | .error message => (db, .error message)
    | .ok rows => (db.executeBulk rows, .ok ())
  else request.loop request.records db

/-! ## Bars -/

/-- A row of bars, as far as its symbol goes. -/
structure BarRow where
  symbol : Option String
  code : Option String
  tsCode : Option String

structure BarsCall where
  rows : List BarRow
  symbol : Option String
  assetClass : String
  market : String
  venue : Option String
  source : String

/-- `first_symbol` -/
def BarsCall.firstSymbol (call : BarsCall) : String :=
  match call.rows with
  | [] => ""
  | row :: _ => firstText [call.symbol, some (upper (firstText [row.symbol, row.code, row.tsCode]))]

/-- The instrument that `upsert_market_daily_bars` writes, if it writes one. -/
def BarsCall.instrument? (call : BarsCall) : Option Instrument :=
  if call.firstSymbol = "" then none
  else some (barsInstrument call.assetClass call.market call.firstSymbol call.source call.venue)

/-- `upsert_market_daily_bars` -/
def upsertMarketDailyBars (call : BarsCall) (db : MasterDb) : MasterDb :=
  match call.instrument? with
  | none => db
  | some instrument => db.upsertInstrument instrument

def BarsCall.batchSymbols (call : BarsCall) : List String :=
  orderBy id (uniqueFirst id
    ((call.rows.map (fun row => upper (row.symbol.getD ""))).filter (· ≠ "")))

/-- `upsert_market_daily_bars_batch` writes the instruments that are not there. -/
def upsertMarketDailyBarsBatch (call : BarsCall) (db : MasterDb) : MasterDb :=
  let instruments := call.batchSymbols.map (fun symbol =>
    barsInstrument call.assetClass call.market symbol call.source call.venue)
  (instruments.filter (fun instrument => (find Instrument.id db.instruments instrument.id).isNone)).foldl
    MasterDb.upsertInstrument db

end LocalPlatform.Universe
