import LocalPlatform.DataSync.Replay

/-!
# Coverage watermarks

A dataset is synchronised instrument by instrument, or session by session for the whole market.
This module plans a synchronisation as `_sync_daily`, `_sync_instrument_dataset_fast` and
`_sync_market_raw_by_trade_date` do, and writes what is committed of it.

* A `Request` has what a function is called with and what it reads besides the watermarks.
* An `Outcome` says what is committed of the planned work: any of the instruments, or the first
  pending sessions up to a failure.  Flushes that follow each other are one.
* Both dates of a watermark are always written.
-/

namespace LocalPlatform.DataSync.Coverage

open Dates Tables DataSync.Replay

/-! ## Rows -/

/-- What is used of a row of `securities`. -/
structure Security where
  symbol : String
  /-- The status is `listed`. -/
  isListed : Bool
  listedDate : Option Date
  delistedDate : Option Date

/-- A row of `provider_dataset_watermarks`, for the dataset. -/
structure Watermark where
  scope : String
  coverageStart : Date
  coverageEnd : Date
  deriving DecidableEq

inductive WorkItem where
  | instrument (symbol : String) (first last : Date)
  | tradeDate (date : Date)
  deriving DecidableEq

/-- A committed work item, with the run that it is of. -/
structure Committed where
  runId : String
  item : WorkItem
  deriving DecidableEq

structure World where
  watermarks : List Watermark
  committed : List Committed

/-! ## Writes -/

/-- The `on conflict` clause of `_set_coverage_watermark`. -/
def Watermark.merge (old excluded : Watermark) : Watermark :=
  { old with
    coverageStart := min excluded.coverageStart old.coverageStart
    coverageEnd := excluded.coverageEnd }

/-- The `on conflict` clause of `_advance_sparse_market_watermarks`. -/
def Watermark.advance (old excluded : Watermark) : Watermark :=
  { old with
    coverageStart := min excluded.coverageStart old.coverageStart
    coverageEnd := max excluded.coverageEnd old.coverageEnd }

/-- A planned request for an instrument. -/
structure Entry where
  symbol : String
  first : Date
  last : Date

/-- `_persist_instrument_batch_metadata`, for one entry. -/
def persistInstrument (runId : String) (s : World) (entry : Entry) : World where
  watermarks :=
    if entry.first ≤ entry.last then
      upsert Watermark.scope Watermark.merge s.watermarks ⟨entry.symbol, entry.first, entry.last⟩
    else s.watermarks
  committed := s.committed ++ [⟨runId, .instrument entry.symbol entry.first entry.last⟩]

/-- The end of a scope that is behind is moved. -/
def Watermark.reach (last : Date) (watermark : Watermark) : Watermark :=
  if watermark.coverageEnd < last then { watermark with coverageEnd := last } else watermark

/-- `_persist_trade_date_batch_metadata` -/
def persistTradeDates (runId : String) (s : World) (dates : List Date) : World :=
  match dates.getLast? with
  | none => s
  | some last =>
    { watermarks := s.watermarks.map (Watermark.reach last)
      committed := s.committed ++ dates.map (fun date => ⟨runId, .tradeDate date⟩) }

/-- A session of the whole market: `_set_coverage_watermark` on the scope `global`. -/
def persistGlobal (runId : String) (s : World) (date : Date) : World where
  watermarks := upsert Watermark.scope Watermark.merge s.watermarks ⟨"global", date, date⟩
  committed := s.committed ++ [⟨runId, .tradeDate date⟩]

def unknownListing : Date := ⟨1990, 1, 1, by decide⟩

def firstSession : Date := ⟨1990, 12, 19, by decide⟩

/-- The securities that have a watermark in `_advance_sparse_market_watermarks`. -/
def advanced (securities : List Security) (coverageEnd : Date) : List Security :=
  securities.filter (fun security =>
    security.isListed ∧ security.listedDate.getD unknownListing ≤ coverageEnd)

/-- `_advance_sparse_market_watermarks` -/
def advanceSparse (securities : List Security) (coverageEnd : Date) (s : World) : World :=
  { s with
    watermarks := (advanced securities coverageEnd).foldl (fun watermarks security =>
      upsert Watermark.scope Watermark.advance watermarks
        ⟨security.symbol, security.listedDate.getD unknownListing, coverageEnd⟩) s.watermarks }

/-! ## Planning -/

/-- The functions that synchronise a dataset. -/
inductive Function where
  | daily
  /-- `_sync_instrument_dataset_fast` -/
  | fast
  /-- `_sync_market_raw_by_trade_date` -/
  | marketRaw
  deriving DecidableEq

structure Request where
  function : Function
  runId : String
  endDate : Date
  fullRefresh : Bool
  minimumStart : Option Date
  retryFailedOnly : Bool
  /-- The instruments with an open failure. -/
  retrySymbols : List String
  securities : List Security
  keyed : Unique Security.symbol securities
  /-- The run has work items that are not sessions. -/
  resumedSymbolWork : Bool
  /-- The provider has an endpoint for all instruments of a session. -/
  dateEndpoint : Bool
  /-- The latest bar or raw date of an instrument. -/
  latest : String → Option Date
  /-- The latest raw date of the dataset. -/
  latestRaw : Option Date
  root : Root

namespace Request

variable (request : Request) (s : World)

def active : List Security := request.securities.filter Security.isListed

/-- `_coverage_watermarks`, not read in a full refresh. -/
def coverage (symbol : String) : Option Date :=
  if request.fullRefresh then none
  else (find Watermark.scope s.watermarks symbol).map Watermark.coverageEnd

/-- `market_start_after` -/
def marketStartAfter : Option Date :=
  incrementalStartAfter request.root
    (request.active.filterMap (fun security => request.coverage s security.symbol)).min?

/-- `uncovered_active` -/
def uncovered : List Security :=
  request.active.filter (fun security => (request.coverage s security.symbol).isNone)

/-- `uncovered_started_after_frontier` -/
def uncoveredStartedAfter : Bool :=
  (request.marketStartAfter s).any (fun frontier =>
    (request.uncovered s).all (fun security => security.listedDate.any (frontier < ·)))

/-- The first date of a full refresh by sessions. -/
def fullStart : Option Date :=
  (request.active.map (fun security =>
    max (security.listedDate.getD firstSession) (request.minimumStart.getD firstSession))).min?

/-- What both kinds of synchronisation by sessions ask. -/
def dateMode : Bool :=
  request.dateEndpoint ∧ ¬ request.resumedSymbolWork ∧ request.active ≠ [] ∧
    ¬ (request.function = .fast ∧ request.retryFailedOnly)

/-- `date_mode_start_after` -/
def dateModeStartAfter (settings : Settings) (calendar : TradeCalendar) :
    Except ReplayError (Option Date) :=
  if request.dateMode ∧ request.fullRefresh then
    match request.fullStart.bind Date.previous with
    | some day => .ok (some day)
    | none => .error .overflow
  else if request.dateMode ∧ (request.marketStartAfter s).isSome ∧
      ((latestPublishedBronzeDate request.root).isSome ∨ request.uncovered s = [] ∨
        request.uncoveredStartedAfter s) then
    incrementalReplayStartAfter settings calendar request.root (request.marketStartAfter s)
      request.endDate
  else .ok none

/-- The first date of a request of `_sync_daily`, if the day after the latest bar is a date. -/
def dailyFirst (security : Security) : Option Date :=
  match if request.fullRefresh then none else request.latest security.symbol with
  | some latest => latest.next
  | none =>
    let listed := security.listedDate.getD unknownListing
    some (match request.minimumStart with
      | some minimum => max listed minimum
      | none => listed)

/-- The first date of a request of `_sync_instrument_dataset_fast`. -/
def fastFirst (security : Security) : Option Date :=
  let persisted := (request.coverage s security.symbol).or (request.latest security.symbol)
  let start :=
    match if request.fullRefresh then none else persisted with
    | some latest => latest.next
    | none => some (security.listedDate.getD unknownListing)
  match request.minimumStart with
  | some minimum => start.map (max · minimum)
  | none => start

def entry (security : Security) : Option Entry :=
  (if request.function = .daily then request.dailyFirst security
    else request.fastFirst s security).map (fun first =>
      ⟨security.symbol, first, match security.delistedDate with
        | some delisted => min request.endDate delisted
        | none => request.endDate⟩)

def selected : List Security :=
  if request.function = .fast ∧ request.retryFailedOnly then
    request.securities.filter (fun security => security.symbol ∈ request.retrySymbols)
  else request.securities

/-- The start of `_sync_market_raw_by_trade_date`. -/
def marketRawStartAfter (settings : Settings) (calendar : TradeCalendar) :
    Except ReplayError (Option Date) :=
  let replay :=
    if request.fullRefresh then .ok none
    else incrementalReplayStartAfter settings calendar request.root
      (incrementalStartAfter request.root request.latestRaw) request.endDate
  match replay with
  | .ok none =>
    match (request.minimumStart.getD unknownListing).previous with
    | some day => .ok (some day)
    | none => .error .overflow
  | replay => replay

end Request

inductive Plan where
  /-- A date overflows. -/
  | raises
  | instruments (entries : List Entry)
  | sessions (startAfter : Date)

def Request.plan (settings : Settings) (calendar : TradeCalendar) (request : Request)
    (s : World) : Plan :=
  let startAfter :=
    if request.function = .marketRaw then request.marketRawStartAfter settings calendar
    else request.dateModeStartAfter s settings calendar
  match startAfter with
  | .error _ => .raises
  | .ok (some day) => .sessions day
  | .ok none =>
    match request.selected.mapM (request.entry s) with
    | some entries => .instruments entries
    | none => .raises

/-! ## A synchronisation -/

structure Outcome where
  /-- The instruments that are committed. -/
  symbols : List String
  /-- The number of pending sessions that are committed. -/
  count : ℕ
  /-- The function comes to its end. -/
  finished : Bool

structure Synchronisation where
  request : Request
  outcome : Outcome

/-- The sessions that this run has not committed yet. -/
def pending (calendar : TradeCalendar) (request : Request) (s : World) (startAfter : Date) :
    List Date :=
  (calendar.sessions request.endDate).filter (fun date =>
    startAfter < date ∧ ⟨request.runId, .tradeDate date⟩ ∉ s.committed)

/-- How far `_advance_sparse_market_watermarks` is called to go. -/
def advanceTo (calendar : TradeCalendar) (sync : Synchronisation) (s : World)
    (startAfter : Date) : Option Date :=
  if sync.outcome.finished ∧ sync.request.function ≠ .marketRaw then
    if pending calendar sync.request s startAfter = [] then
      if sync.request.function = .fast then
        (latestPublishedBronzeDate sync.request.root).map (min · sync.request.endDate)
      else none
    else ((pending calendar sync.request s startAfter).take sync.outcome.count).getLast?
  else none

/-- A synchronisation session by session. -/
def syncSessions (calendar : TradeCalendar) (sync : Synchronisation) (s : World)
    (startAfter : Date) : World :=
  let dates := (pending calendar sync.request s startAfter).take sync.outcome.count
  if sync.request.function = .marketRaw then
    dates.foldl (persistGlobal sync.request.runId) s
  else
    let persisted := persistTradeDates sync.request.runId s dates
    match advanceTo calendar sync s startAfter with
    | some coverageEnd => advanceSparse sync.request.securities coverageEnd persisted
    | none => persisted

def World.next (settings : Settings) (calendar : TradeCalendar) (s : World)
    (sync : Synchronisation) : World :=
  match sync.request.plan settings calendar s with
  | .raises => s
  | .instruments entries =>
    (entries.filter (fun entry => entry.symbol ∈ sync.outcome.symbols)).foldl
      (persistInstrument sync.request.runId) s
  | .sessions startAfter => syncSessions calendar sync s startAfter

end LocalPlatform.DataSync.Coverage
