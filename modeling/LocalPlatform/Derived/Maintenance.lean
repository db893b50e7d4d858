import LocalPlatform.Lib.Machine
import LocalPlatform.Lib.Replica
import LocalPlatform.Lib.Rows
import Mathlib.Data.Prod.Lex
import Mathlib.Data.Rat.Defs
import Mathlib.Data.String.Basic

/-!
# Maintenance of the ClickHouse mirror

`run_maintenance` over one scope of the lake, with the layers `parquet` and `clickhouse`:
`_clickhouse_reconcile_dates`, `_clickhouse_incremental` and `_run_locked`.

* The canonical rows are those of the lake, the mirror has the rows of `market_bars` in the scope,
  as `FINAL` reads them: one for each symbol and date.
* What ClickHouse answers is part of an execution: which queries raise, and for every batch whether
  it is inserted or fails after a part of it.
* Other scopes, the export of the Parquet layer and the consistency report show up as what they mean
  for the run: an error, or something that raises.

Dates and times are numbers.  Which symbol a query asks for is a parameter.  The texts of errors,
the counts in the details and the digests of a watermark are left out.
-/

namespace LocalPlatform.Derived

open Tables Machines Replicas

/-! ## Rows -/

/-- A row of the lake. -/
structure Bar where
  symbol : String
  tradeDate : ℕ
  openPrice : Option ℚ
  high : Option ℚ
  low : Option ℚ
  close : Option ℚ
  volume : Option ℚ
  deriving DecidableEq

def Bar.key (bar : Bar) : String × ℕ := (bar.symbol, bar.tradeDate)

/-- A row of `market_bars`. -/
structure Quote where
  symbol : String
  date : ℕ
  openPrice : ℚ
  high : ℚ
  low : ℚ
  close : ℚ
  volume : ℚ
  deriving DecidableEq

def Quote.key (quote : Quote) : String × ℕ := (quote.symbol, quote.date)

/-- `upsert_rows` of the lake. -/
def upsertRows (canonical bars : List Bar) : List Bar := putAll Bar.key canonical bars

/-- The number of rows, the first and the last date. -/
structure Stats where
  rowCount : ℕ
  firstDate : Option ℕ
  lastDate : Option ℕ
  deriving DecidableEq

def statsOf (dates : List ℕ) : Stats := ⟨dates.length, dates.min?, dates.max?⟩

/-- `_canonical_stats` -/
def canonicalStats (canonical : List Bar) : Stats := statsOf (canonical.map Bar.tradeDate)

/-- `scope_stats` -/
def scopeStats (mirror : List Quote) : Stats := statsOf (mirror.map Quote.date)

/-- `_canonical_date_counts` -/
def canonicalDateCount (canonical : List Bar) (date : ℕ) : ℕ :=
  canonical.countP (fun bar => bar.tradeDate = date)

/-- `scope_date_counts` -/
def scopeDateCount (mirror : List Quote) (date : ℕ) : ℕ :=
  mirror.countP (fun quote => quote.date = date)

def datesOf (dates : List ℕ) : List ℕ := orderBy id (uniqueFirst id dates)

/-! ## Writing the mirror -/

/-- What becomes of a batch: a part of its rows may be inserted before it fails. -/
inductive Answer where
  | inserted
  | failed (kept : Quote → Bool)

/-- ClickHouse during one execution. -/
structure ClickHouse where
  enabled : Bool
  /-- `scope_stats` answers when the mirror is looked at for a seed. -/
  seedAnswers : Bool
  /-- `scope_date_counts` answers. -/
  countsAnswer : Bool
  /-- `scope_stats` answers after a reconciliation. -/
  statsAnswer : Bool
  insert : ℕ → Answer

/-- A bar whose prices are numbers is mirrored, any other one is skipped. -/
def quoteOf (symbol : String) (bar : Bar) : Option Quote :=
  match bar.openPrice, bar.high, bar.low, bar.close with
  | some openPrice, some high, some low, some close =>
    some
      { symbol := symbol
        date := bar.tradeDate
        openPrice := openPrice
        high := high
        low := low
        close := close
        volume := bar.volume.getD 0 }
  | _, _, _, _ => none

section Mirror

variable (normalizeQuerySymbol : String → Option String)

/-- The rows that several symbols are mirrored by; a symbol that is refused raises. -/
def payload : List (String × List Bar) → Option (List Quote)
  | [] => some []
  | (symbol, bars) :: entries =>
    match normalizeQuerySymbol symbol, payload entries with
    | some normalized, some quotes => some (bars.filterMap (quoteOf normalized) ++ quotes)
    | _, _ => none

/-- `mirror_rows_batch`: the mirror afterwards, and whether there is an error. -/
def mirrorRowsBatch (answer : Answer) (entries : List (String × List Bar)) (mirror : List Quote) :
    Option (List Quote × Bool) :=
  if entries.isEmpty then some (mirror, false)
  else
    (payload normalizeQuerySymbol entries).map (fun quotes =>
      match answer with
      | .inserted => (putAll Quote.key mirror quotes, false)
      | .failed kept => (putAll Quote.key mirror (quotes.filter kept), true))

/-! ## Reconciling dates -/

/-- How a layer of a scope ends. -/
inductive Reply where
  | ready
  | failed
  | disabled
  | raised
  deriving DecidableEq

def surplusDates (canonical : List Bar) (mirror : List Quote) : List ℕ :=
  (datesOf (mirror.map Quote.date)).filter (fun date =>
    canonicalDateCount canonical date < scopeDateCount mirror date)

def repairDates (canonical : List Bar) (mirror : List Quote) : List ℕ :=
  (datesOf (canonical.map Bar.tradeDate)).filter (fun date =>
    scopeDateCount mirror date < canonicalDateCount canonical date)

def dateChunks (dates : List ℕ) : List (List ℕ) :=
  (List.range ((dates.length + 99) / 100)).map (fun k => (dates.drop (100 * k)).take 100)

/-- The rows of some dates, by symbol. -/
def entriesOn (canonical : List Bar) (dates : List ℕ) : List (String × List Bar) :=
  let rows := orderBy (fun bar : Bar => toLex (bar.symbol, bar.tradeDate))
    (canonical.filter (fun bar => bar.tradeDate ∈ dates))
  (uniqueFirst id (rows.map Bar.symbol)).map (fun symbol =>
    (symbol, rows.filter (fun bar => bar.symbol = symbol)))

/-- The chunks are repaired until one fails; `batch` counts them. -/
def repair (insert : ℕ → Answer) (canonical : List Bar) :
    ℕ → List (List ℕ) → List Quote → List Quote × Reply
  | _, [], mirror => (mirror, .ready)
  | batch, dates :: chunks, mirror =>
    match mirrorRowsBatch normalizeQuerySymbol (insert batch) (entriesOn canonical dates)
        mirror with
    | none => (mirror, .raised)
    | some (mirrored, true) => (mirrored, .failed)
    | some (mirrored, false) => repair insert canonical (batch + 1) chunks mirrored

/-- `_clickhouse_reconcile_dates` -/
def clickhouseReconcileDates (service : ClickHouse) (canonical : List Bar) (mirror : List Quote) :
    List Quote × Reply :=
  if ¬ service.countsAnswer then (mirror, .raised)
  else if surplusDates canonical mirror ≠ [] then (mirror, .failed)
  else
    let repaired := repair normalizeQuerySymbol service.insert canonical 0
      (dateChunks (repairDates canonical mirror)) mirror
    if repaired.2 = .raised ∨ ¬ service.statsAnswer then (repaired.1, .raised)
    else if repaired.2 = .ready ∧ scopeStats repaired.1 = canonicalStats canonical then
      (repaired.1, .ready)
    else (repaired.1, .failed)

/-! ## Sending from a date on -/

/-- The state of the loop over the symbols. -/
structure Flush where
  mirror : List Quote
  batch : ℕ
  errors : Bool
  pending : List (String × List Bar)
  pendingRows : ℕ

/-- What is pending is sent; after something raises only the mirror is left. -/
def flush (insert : ℕ → Answer) (state : Flush) : Except (List Quote) Flush :=
  if state.pending.isEmpty then .ok state
  else
    match mirrorRowsBatch normalizeQuerySymbol (insert state.batch) state.pending state.mirror with
    | none => .error state.mirror
    | some (mirrored, error) =>
      .ok
        { mirror := mirrored
          batch := state.batch + 1
          errors := state.errors || error
          pending := []
          pendingRows := 0 }

/-- `query_database_bars` from a date on. -/
def queryDatabaseBars (canonical : List Bar) (symbol : String) (startDate : ℕ) :
    Option (List Bar) :=
  (normalizeQuerySymbol symbol).map (fun normalized =>
    orderBy Bar.tradeDate (canonical.filter (fun bar =>
      bar.symbol = normalized ∧ startDate ≤ bar.tradeDate)))

/-- One symbol; a hundred symbols or half a million rows are sent at once. -/
def sendSymbol (insert : ℕ → Answer) (canonical : List Bar) (startDate : ℕ) (state : Flush)
    (symbol : String) : Except (List Quote) Flush :=
  match queryDatabaseBars normalizeQuerySymbol canonical symbol startDate with
  | none => .error state.mirror
  | some bars =>
    let queued : Flush :=
      { state with
        pending := state.pending ++ [(symbol, bars)]
        pendingRows := state.pendingRows + bars.length }
    if 100 ≤ queued.pending.length ∨ 500000 ≤ queued.pendingRows then
      flush normalizeQuerySymbol insert queued
    else .ok queued

def symbolsFrom (canonical : List Bar) (startDate : ℕ) : List String :=
  orderBy id (uniqueFirst id
    ((canonical.filter (fun bar => startDate ≤ bar.tradeDate)).map Bar.symbol))

def sendSymbols (insert : ℕ → Answer) (canonical : List Bar) (startDate : ℕ) :
    List String → Flush → Except (List Quote) Flush
  | [], state => flush normalizeQuerySymbol insert state
  | symbol :: symbols, state =>
    match sendSymbol normalizeQuerySymbol insert canonical startDate state symbol with
    | .error mirror => .error mirror
    | .ok sent => sendSymbols insert canonical startDate symbols sent

/-- `_clickhouse_incremental` -/
def clickhouseIncremental (service : ClickHouse) (canonical : List Bar) (mirror : List Quote)
    (startDate : Option ℕ) : List Quote × Reply :=
  if ¬ service.enabled then (mirror, .disabled)
  else
    match startDate with
    | none => clickhouseReconcileDates normalizeQuerySymbol service canonical mirror
    | some startDate =>
      match sendSymbols normalizeQuerySymbol service.insert canonical startDate
          (symbolsFrom canonical startDate) ⟨mirror, 0, false, [], 0⟩ with
      | .error mirrored => (mirrored, .raised)
      | .ok state => (state.mirror, if state.errors then .failed else .ready)

end Mirror

/-! ## Watermarks and runs -/

inductive Layer where
  | parquet
  | clickhouse
  deriving DecidableEq

/-- `LAYERS` -/
def layers : List Layer := [.parquet, .clickhouse]

inductive LayerStatus where
  | running
  | ready
  | failed
  | disabled
  deriving DecidableEq

/-- The row of `derived_layer_watermarks` of the layer `clickhouse`. -/
structure Watermark where
  canonicalStart : Option ℕ
  canonicalEnd : Option ℕ
  materializedStart : Option ℕ
  materializedEnd : Option ℕ
  status : LayerStatus
  rowCount : ℕ
  deriving DecidableEq

/-- `_upsert_watermark` -/
def upsertWatermark (stored : Option Watermark) (excluded : Watermark) : Watermark :=
  { excluded with
    materializedStart := excluded.materializedStart.or (stored.bind Watermark.materializedStart)
    materializedEnd := excluded.materializedEnd.or (stored.bind Watermark.materializedEnd) }

inductive RunStatus where
  | queued
  | running
  | retryWait
  | success
  | failed
  deriving DecidableEq

/-- A row of `derived_maintenance_runs`. -/
structure MaintenanceRun where
  id : String
  requestedLayers : List Layer
  status : RunStatus
  completedUnits : List Layer
  attemptCount : ℕ
  maxAttempts : ℕ
  nextRetryAt : Option ℕ
  deriving DecidableEq

structure State where
  canonical : List Bar
  mirror : List Quote
  watermark : Option Watermark
  runs : List MaintenanceRun
  /-- The canonical rows when a run completed the unit `clickhouse`. -/
  completedRows : String → List Bar

/-- What an execution starts from: the watermark or, without one, a mirror that is adopted. -/
structure Prior where
  materializedStart : Option ℕ
  materializedEnd : Option ℕ
  rowCount : ℕ
  deriving DecidableEq

/-- `_existing_layer_seed` -/
def existingLayerSeed (service : ClickHouse) (canonical : List Bar) (mirror : List Quote) : Prior :=
  if service.enabled ∧ service.seedAnswers ∧ scopeStats mirror = canonicalStats canonical then
    ⟨(scopeStats mirror).firstDate, (scopeStats mirror).lastDate, (scopeStats mirror).rowCount⟩
  else ⟨none, none, 0⟩

def State.prior (s : State) (service : ClickHouse) : Prior :=
  match s.watermark with
  | some watermark => ⟨watermark.materializedStart, watermark.materializedEnd, watermark.rowCount⟩
  | none => existingLayerSeed service s.canonical s.mirror

/-- The watermark of a unit at its start, and of one that does not get ready. -/
def priorWatermark (stats : Stats) (prior : Prior) (status : LayerStatus) : Watermark where
  canonicalStart := stats.firstDate
  canonicalEnd := stats.lastDate
  materializedStart := prior.materializedStart
  materializedEnd := prior.materializedEnd
  status := status
  rowCount := prior.rowCount

def readyWatermark (stats : Stats) : Watermark where
  canonicalStart := stats.firstDate
  canonicalEnd := stats.lastDate
  materializedStart := stats.firstDate
  materializedEnd := stats.lastDate
  status := .ready
  rowCount := stats.rowCount

def endWatermark (stats : Stats) (prior : Prior) : Reply → Watermark
  | .ready => readyWatermark stats
  | .disabled => priorWatermark stats prior .disabled
  | .failed | .raised => priorWatermark stats prior .failed

/-! ## Executions -/

section Executions

variable (normalizeQuerySymbol : String → Option String)

/-- The unit `clickhouse` of the scope. -/
def clickhouseUnit (service : ClickHouse) (s : State) : State × Reply :=
  let stats := canonicalStats s.canonical
  let prior := s.prior service
  let running := upsertWatermark s.watermark (priorWatermark stats prior .running)
  let mirrored := clickhouseIncremental normalizeQuerySymbol service s.canonical s.mirror
    prior.materializedEnd
  ({ s with
      mirror := mirrored.1
      watermark := some (upsertWatermark (some running) (endWatermark stats prior mirrored.2)) },
    mirrored.2)

inductive UnitResult where
  | ready
  | failed
  | disabled
  | checkpointSkipped
  deriving DecidableEq

/-- What becomes of the rest of an execution: other scopes, the consistency report. -/
inductive Elsewhere where
  | fine
  | errors
  | raisesFirst
  | raisesLast
  deriving DecidableEq

structure Execution where
  now : ℕ
  service : ClickHouse
  /-- The Parquet layer of the scope is exported. -/
  exported : Bool
  elsewhere : Elsewhere

structure Progress where
  state : State
  completed : List Layer
  results : List (Layer × UnitResult)
  errors : Bool

def Progress.complete (progress : Progress) (layer : Layer) : Progress :=
  { progress with
    completed := progress.completed ++ [layer]
    results := progress.results ++ [(layer, .ready)] }

def Progress.report (progress : Progress) (layer : Layer) (result : UnitResult) : Progress :=
  { progress with results := progress.results ++ [(layer, result)] }

/-- One layer of the scope. -/
def runLayer (execution : Execution) (runId : String) (progress : Progress) (layer : Layer) :
    Progress :=
  if layer ∈ progress.completed then progress.report layer .checkpointSkipped
  else
    match layer with
    | .parquet =>
      if execution.exported then progress.complete .parquet else { progress with errors := true }
    | .clickhouse =>
      let (after, reply) := clickhouseUnit normalizeQuerySymbol execution.service progress.state
      match reply with
      | .ready =>
        Progress.complete
          { progress with
            state := { after with
              completedRows := fun id => if id = runId then after.canonical
                else after.completedRows id } } .clickhouse
      | .disabled => { progress with state := after }.report .clickhouse .disabled
      | .failed => { progress with state := after, errors := true }.report .clickhouse .failed
      | .raised => { progress with state := after, errors := true }

/-- How an execution ends: what it has found, and the status it returns unless it raises. -/
structure Report where
  returned : Option RunStatus
  results : List (Layer × UnitResult)
  deriving DecidableEq

/-- The row of a run after an attempt with these errors. -/
def MaintenanceRun.finish (run : MaintenanceRun) (now : ℕ) (completed : List Layer)
    (errors : Bool) : MaintenanceRun :=
  let attempt := run.attemptCount + 1
  let maxAttempts := if run.maxAttempts = 0 then 5 else run.maxAttempts
  let status : RunStatus :=
    if ¬ errors then .success else if maxAttempts ≤ attempt then .failed else .retryWait
  { run with
    status := status
    completedUnits := completed
    attemptCount := attempt
    nextRetryAt :=
      if status = .retryWait then some (now + min 3600 (30 * 2 ^ (attempt - 1))) else none }

def State.putRun (s : State) (run : MaintenanceRun) : State :=
  { s with runs := put MaintenanceRun.id s.runs run }

/-- The layers of the scope, if it has rows. -/
def runLayers (execution : Execution) (run : MaintenanceRun) (s : State) : Progress :=
  let start : Progress := ⟨s, run.completedUnits, [], false⟩
  if (canonicalStats s.canonical).rowCount = 0 then start
  else
    (if run.requestedLayers = [] then layers else run.requestedLayers).foldl
      (runLayer normalizeQuerySymbol execution run.id) start

/-- `_run_locked` of a run that has a row. -/
def runLocked (execution : Execution) (run : MaintenanceRun) (s : State) : State × Report :=
  if run.status = .success then (s, ⟨some .success, []⟩)
  else if execution.elsewhere = .raisesFirst then
    (s.putRun (run.finish execution.now run.completedUnits true), ⟨none, []⟩)
  else
    let progress := runLayers normalizeQuerySymbol execution run s
    if execution.elsewhere = .raisesLast then
      (progress.state.putRun (run.finish execution.now progress.completed true),
        ⟨none, progress.results⟩)
    else
      let finished := run.finish execution.now progress.completed
        (progress.errors || execution.elsewhere = .errors)
      (progress.state.putRun finished, ⟨some finished.status, progress.results⟩)

/-- `run_maintenance`, under its lock. -/
def runMaintenance (execution : Execution) (runId : String) (s : State) : State × Report :=
  match find MaintenanceRun.id s.runs runId with
  | none => (s, ⟨none, []⟩)
  | some run =>
    if run.status = .retryWait ∧ ∃ retryAt ∈ run.nextRetryAt, execution.now < retryAt then
      (s, ⟨some run.status, []⟩)
    else runLocked normalizeQuerySymbol execution run s

/-! ## Writes and executions in turn -/

inductive Action where
  | write (bars : List Bar)
  /-- The insert of `create_maintenance_run`; another run may be active by then. -/
  | create (runId : String) (requested : List Layer) (maxAttempts : ℕ)
  | execute (runId : String) (execution : Execution)

def newRun (runId : String) (requested : List Layer) (maxAttempts : ℕ) : MaintenanceRun where
  id := runId
  requestedLayers := uniqueFirst id (if requested = [] then layers else requested)
  status := .queued
  completedUnits := []
  attemptCount := 0
  maxAttempts := maxAttempts
  nextRetryAt := none

def State.next (s : State) : Action → State
  | .write bars => { s with canonical := upsertRows s.canonical bars }
  | .create runId requested maxAttempts =>
    { s with runs := s.runs ++ [newRun runId requested maxAttempts] }
  | .execute runId execution => (runMaintenance normalizeQuerySymbol execution runId s).1

def Fresh (s : State) : Action → Prop
  | .create runId _ _ => find MaintenanceRun.id s.runs runId = none
  | .write _ | .execute _ _ => True

def maintenance : Machine State Action where
  allowed := Fresh
  next := State.next normalizeQuerySymbol

end Executions

end LocalPlatform.Derived
