import LocalPlatform.Paper.Values
import LocalPlatform.Strategies.PullbackInputs

/-!
# The trend-pullback snapshot

* `buildTrendPullbackSnapshot` gathers the calendar, the factors and the liquidity of the symbols of
  a universe up to an end date.
* `rebalances_exact`: the rebalance dates are the last sessions of their weeks.
* `causal_of_agree`: what a snapshot has up to its end does not depend on later data.
* `replays_iff`: the factor changes replay the stored factors exactly where one is stored, and not
  zero.  Where none is, the loop writes a factor of one.
-/

namespace LocalPlatform.Strategies.Pullback

open Dates IsoDates IsoWeeks Results
open Tables Paper

variable {δ : Type}

/-! ## Parameters -/

/-- A row of a schedule.  A symbol that is missing is empty. -/
structure ScheduleRow (δ : Type) where
  symbol : String
  detail : δ
  deriving DecidableEq

/-- The parameters.  A text that is missing is empty. -/
structure Parameters (δ : Type) where
  start : Date
  universeCode : String
  modelVariant : String
  source : String
  provider : String
  universeSchedule : List (ScheduleRow δ)
  fundamentalSchedule : List (ScheduleRow δ)

/-- `text or other` -/
def orText (text other : String) : String := if text = "" then other else text

def Parameters.universe (parameters : Parameters δ) : String :=
  upper (orText parameters.universeCode "CSI300")

def Parameters.variant (parameters : Parameters δ) : String :=
  upper (orText parameters.modelVariant "B")

def Parameters.symbols (parameters : Parameters δ) : List String :=
  orderBy id (uniqueFirst id (((parameters.universeSchedule.map ScheduleRow.symbol).filter
    (fun symbol => symbol ≠ "")).map upper))

def Parameters.barSource (parameters : Parameters δ) : String :=
  orText (strip parameters.source) "tushare"

def supportedUniverses : List String := ["CSI300", "CSI500", "CSI1000", "STAR50"]

/-- `_chunks` -/
def chunksOf (values : List String) : List (List String) :=
  let items := orderBy id (uniqueFirst id
    (((values.map strip).filter (fun value => value ≠ "")).map upper))
  (List.range ((items.length + 349) / 350)).map (fun chunk => (items.drop (350 * chunk)).take 350)

def Parameters.chunks (parameters : Parameters δ) : List (List String) :=
  chunksOf parameters.symbols

/-! ## The payload -/

structure IndustryEntry where
  symbol : String
  industryCode : String
  industryName : Option String
  inDate : Date
  outDate : Option Date
  deriving DecidableEq

structure Coverage where
  symbolCount : ℕ
  symbolsWithBars : ℕ
  symbolsWithIndustry : ℕ
  industryCoverage : ℚ
  symbolsWithFundamentals : ℕ
  fundamentalCoverage : ℚ
  factorSymbolCount : ℕ
  liquiditySymbolCount : ℕ
  deriving DecidableEq

/-- The payload.  The inputs are its factor changes and its liquidity. -/
structure Payload (δ : Type) where
  universeCode : String
  modelVariant : String
  startDate : Date
  endDate : Date
  warmupStartDate : Date
  source : String
  symbols : List String
  openDates : List Date
  rebalanceDates : List Date
  universeSchedule : List (ScheduleRow δ)
  industrySchedule : List IndustryEntry
  fundamentalSchedule : List (ScheduleRow δ)
  securityLifecycle : List SecurityRow
  inputs : List SymbolInputs
  coverage : Coverage

/-- `_industry_schedule` -/
def industrySchedule (database : Database) (chunks : List (List String)) (stop : Date) :
    List IndustryEntry :=
  chunks.flatMap (fun chunk =>
    (orderBy (fun row => toLex (row.symbol, toLex (row.inDate, row.industryCode)))
      (database.industries.filter (fun row => row.symbol ∈ chunk ∧ row.taxonomy = "SW2021" ∧
        row.levelNo = 1 ∧ row.inDate ≤ stop))).map
      (fun row => ⟨upper row.symbol, row.industryCode, row.industryName, row.inDate, row.outDate⟩))

/-- `_security_lifecycle` -/
def securityLifecycle (database : Database) (chunks : List (List String)) : List SecurityRow :=
  chunks.flatMap (fun chunk =>
    (orderBy SecurityRow.symbol (database.securities.filter (fun row => row.symbol ∈ chunk))).map
      (fun row => { row with symbol := upper row.symbol }))

def countDistinct (values : List String) : ℕ := (uniqueFirst id values).length

def share (count total : ℕ) : ℚ := if total = 0 then 0 else count / total

/-- What blocks a snapshot. -/
def blockers (variant : String) (industryCoverage : ℚ) (hasFundamentals : Bool)
    (inputs : List SymbolInputs) : List String :=
  (if (variant = "B" ∨ variant = "C") ∧ industryCoverage < 95 / 100 then
      ["industry_coverage_below_95pct"] else []) ++
    (if variant = "C" ∧ hasFundamentals = false then ["pit_fundamentals_missing"] else []) ++
    (if inputs = [] then ["adjustment_factors_missing"] else []) ++
    (if inputs.all (fun entry => entry.liquidity.isEmpty) then
      ["liquidity_snapshots_missing"] else [])

/-- `build_trend_pullback_snapshot` -/
def buildTrendPullbackSnapshot (parameters : Parameters δ) (stop : Date) (database : Database) :
    Except String (Payload δ) := do
  require (2016 ≤ parameters.start.year)
    "A-share trend-pullback backtests require start >= 2016-01-01 for PIT ST coverage."
  require (parameters.universe ∈ supportedUniverses)
    "Trend-pullback supports CSI300, CSI500, CSI1000 and STAR50."
  require (parameters.universeSchedule ≠ [])
    "Trend-pullback requires a non-empty PIT universe schedule."
  let floor ← orThrow (warmupStart database parameters.start) "date value out of range"
  let calendarEnd ← orThrow (stop.addDays 7) "date value out of range"
  let calendarOpenDates := openDates database floor calendarEnd
  let sessions := calendarOpenDates.filter (fun date => date ≤ stop)
  let first ← orThrow (earliest sessions)
    "Trend-pullback requires the China open-trading calendar."
  let rebalance := (rebalanceDates calendarOpenDates parameters.start).filter
    (fun date => date ≤ stop)
  let industries := industrySchedule database parameters.chunks stop
  let inputs ← marketInputs database rebalance ⟨parameters.barSource, first, stop⟩ parameters.chunks
  let symbols := parameters.symbols
  let industryCount := countDistinct (industries.map IndustryEntry.symbol)
  let fundamentalCount := countDistinct (parameters.fundamentalSchedule.map
    (fun row => upper row.symbol))
  let industryCoverage := share industryCount symbols.length
  let fundamentalCoverage := share fundamentalCount symbols.length
  let blocking := blockers parameters.variant industryCoverage
    (!parameters.fundamentalSchedule.isEmpty) inputs
  require (blocking = [])
    ("Trend-pullback PIT snapshot gate failed: " ++ ",".intercalate blocking)
  return {
    universeCode := parameters.universe
    modelVariant := parameters.variant
    startDate := parameters.start
    endDate := stop
    warmupStartDate := first
    source := orText parameters.source (orText parameters.provider "database")
    symbols := symbols
    openDates := sessions
    rebalanceDates := rebalance
    universeSchedule := parameters.universeSchedule
    industrySchedule := industries
    fundamentalSchedule := parameters.fundamentalSchedule
    securityLifecycle := securityLifecycle database parameters.chunks
    inputs := inputs
    coverage := {
      symbolCount := symbols.length
      symbolsWithBars := (inputs.filter (fun entry => 0 < entry.barCount)).length
      symbolsWithIndustry := industryCount
      industryCoverage := Decimals.roundTo 8 industryCoverage
      symbolsWithFundamentals := fundamentalCount
      fundamentalCoverage := Decimals.roundTo 8 fundamentalCoverage
      factorSymbolCount := inputs.length
      liquiditySymbolCount := (inputs.filter (fun entry => !entry.liquidity.isEmpty)).length } }

/-! ## What an accepted snapshot has -/

/-- The parts of a payload that its dates and inputs are made of. -/
structure Built (database : Database) (parameters : Parameters δ) (stop floor calendarEnd first : Date)
    (payload : Payload δ) : Prop where
  warmup : warmupStart database parameters.start = some floor
  lookahead : stop.addDays 7 = some calendarEnd
  earliest : earliest ((openDates database floor calendarEnd).filter (fun date => date ≤ stop)) =
    some first
  rebalance : payload.rebalanceDates =
    (rebalanceDates (openDates database floor calendarEnd) parameters.start).filter
      (fun date => date ≤ stop)
  inputs : marketInputs database payload.rebalanceDates ⟨parameters.barSource, first, stop⟩
    parameters.chunks = .ok payload.inputs

theorem built_of_ok {database : Database} {parameters : Parameters δ} {stop : Date}
    {payload : Payload δ} (h : buildTrendPullbackSnapshot parameters stop database = .ok payload) :
    ∃ floor calendarEnd first, Built database parameters stop floor calendarEnd first payload := by
  obtain ⟨_, _, h⟩ := bind_ok h
  obtain ⟨_, _, h⟩ := bind_ok h
  obtain ⟨_, _, h⟩ := bind_ok h
  obtain ⟨floor, hfloor, h⟩ := bind_ok h
  obtain ⟨calendarEnd, hend, h⟩ := bind_ok h
  obtain ⟨first, hfirst, h⟩ := bind_ok h
  obtain ⟨inputs, hinputs, h⟩ := bind_ok h
  obtain ⟨_, _, h⟩ := bind_ok h
  have heq := Except.ok.inj h
  refine ⟨floor, calendarEnd, first, orThrow_ok.mp hfloor, orThrow_ok.mp hend, orThrow_ok.mp hfirst,
    ?_, ?_⟩
  · rw [← heq]
  · rw [← heq]
    exact hinputs

/-! ## Rebalance dates -/

variable {database : Database} {parameters : Parameters δ} {stop floor calendarEnd first : Date}
  {payload : Payload δ} {date : Date}

theorem mem_sessions : date ∈ database.sessions ↔
    ⟨"china", date, true⟩ ∈ database.calendar := by
  unfold Database.sessions
  rw [mem_orderBy, List.mem_map]
  constructor
  · rintro ⟨row, hrow, rfl⟩
    simp only [List.mem_filter, decide_eq_true_eq] at hrow
    obtain ⟨hmem, hmarket, hopen⟩ := hrow
    obtain ⟨market, tradeDate, isOpen⟩ := row
    dsimp only at hmarket hopen
    rw [← hmarket, ← hopen]
    exact hmem
  · intro hmem
    exact ⟨⟨"china", date, true⟩, by simpa using hmem, rfl⟩

theorem sessions_strict (database : Database) : database.sessions.Pairwise (· < ·) := by
  apply @orderBy_strict _ _ _ id
  show List.Nodup (List.map id _)
  rw [List.map_id]
  have hunique : ((database.calendar.filter (fun row =>
      row.market = "china" ∧ row.isOpen)).map CalendarRow.key).Nodup :=
    database.calendar_unique.sublist (List.filter_sublist.map CalendarRow.key)
  have hmap : ∀ rows : List CalendarRow,
      rows.map CalendarRow.tradeDate = (rows.map CalendarRow.key).map Prod.snd := by
    intro rows
    rw [List.map_map]
    rfl
  rw [hmap]
  apply List.Nodup.map_on _ hunique
  intro x hx y hy heq
  obtain ⟨a, ha, rfl⟩ := List.mem_map.mp hx
  obtain ⟨b, hb, rfl⟩ := List.mem_map.mp hy
  simp only [List.mem_filter, decide_eq_true_eq] at ha hb
  unfold CalendarRow.key at heq ⊢
  rw [ha.2.1, hb.2.1]
  exact congrArg (fun day => ("china", day)) heq

theorem mem_openDates {start last : Date} : date ∈ openDates database start last ↔
    date ∈ database.sessions ∧ start ≤ date ∧ date ≤ last := by
  unfold openDates
  rw [List.mem_filter, decide_eq_true_eq]

theorem earliest_spec {dates : List Date} (h : earliest dates = some date) :
    date ∈ dates ∧ ∀ other ∈ dates, date ≤ other :=
  le_of_head?_orderBy h

theorem warmupStart_le {start floor : Date} (h : warmupStart database start = some floor) :
    floor ≤ start := by
  unfold warmupStart at h
  split at h
  · rename_i hearliest
    rw [← Option.some.inj h]
    have hmem := List.mem_of_mem_take (earliest_spec hearliest).1
    simp only [List.mem_reverse, List.mem_filter, decide_eq_true_eq] at hmem
    exact hmem.2.le
  · exact subDays_le h

theorem le_calendarEnd (h : stop.addDays 7 = some calendarEnd) {day other : Date} (hday : day ≤ stop)
    (hweek : isoWeek day = isoWeek other) : other ≤ calendarEnd := by
  have hnear := week_of_isoWeek hweek
  have hend := Date.ordinal_addDays h
  rw [Date.le_iff_ordinal] at hday ⊢
  omega

def LastOfWeek (database : Database) (date : Date) : Prop :=
  date ∈ database.sessions ∧ ∀ other ∈ database.sessions, isoWeek other = isoWeek date → other ≤ date

/-- The rebalance dates are the last sessions of their weeks, in order. -/
structure RebalancesExact (database : Database) (parameters : Parameters δ) (stop : Date)
    (payload : Payload δ) : Prop where
  ordered : payload.rebalanceDates.Pairwise (· < ·)
  exact : ∀ date, date ∈ payload.rebalanceDates ↔
    parameters.start ≤ date ∧ date ≤ stop ∧ LastOfWeek database date

theorem rebalances_exact (h : Built database parameters stop floor calendarEnd first payload) :
    RebalancesExact database parameters stop payload := by
  have hcalendar : (openDates database floor calendarEnd).Pairwise (· < ·) :=
    (sessions_strict database).filter _
  constructor
  · rw [h.rebalance]
    unfold rebalanceDates
    have hweeks := orderBy_strict (unique_uniqueLast isoWeek (openDates database floor calendarEnd))
    have hdates := hweeks.imp (fun {a b} hlt => by
      by_contra hge
      exact absurd (isoWeek_mono (not_lt.mp hge)) hlt.not_ge)
    exact (hdates.filter _).filter _
  · intro date
    rw [h.rebalance]
    unfold rebalanceDates
    simp only [List.mem_filter, mem_orderBy, decide_eq_true_eq]
    rw [mem_uniqueLast_of_sorted hcalendar, mem_openDates]
    have hfloor := warmupStart_le h.warmup
    constructor
    · rintro ⟨⟨⟨⟨hsession, _, _⟩, hgreatest⟩, hstart⟩, hstop⟩
      refine ⟨hstart, hstop, hsession, fun other hother hweek => ?_⟩
      by_cases hlow : floor ≤ other
      · exact hgreatest other (mem_openDates.mpr ⟨hother, hlow,
          le_calendarEnd h.lookahead hstop hweek.symm⟩) hweek
      · exact (not_le.mp hlow).le.trans (hfloor.trans hstart)
    · rintro ⟨hstart, hstop, hsession, hgreatest⟩
      refine ⟨⟨⟨⟨hsession, hfloor.trans hstart, le_calendarEnd h.lookahead hstop rfl⟩,
        fun other hother hweek => ?_⟩, hstart⟩, hstop⟩
      exact hgreatest other (mem_openDates.mp hother).1 hweek

/-! ## Later data -/

/-- Two databases have the same calendar up to a day, and the same bars and factors up to another. -/
structure Agree (a b : Database) (calendarEnd day : Date) : Prop where
  calendar : ∀ row : CalendarRow, row.tradeDate ≤ calendarEnd → (row ∈ a.calendar ↔ row ∈ b.calendar)
  bars : ∀ bar : Bar, bar.tradeDate ≤ day → (bar ∈ a.bars ↔ bar ∈ b.bars)
  adjustments : ∀ row : Adjustment, row.tradeDate ≤ day →
    (row ∈ a.adjustments ↔ row ∈ b.adjustments)

variable {a b : Database} {day : Date}

theorem Agree.session (h : Agree a b calendarEnd day) (hdate : date ≤ calendarEnd) :
    date ∈ a.sessions ↔ date ∈ b.sessions := by
  rw [mem_sessions, mem_sessions]
  exact h.calendar ⟨"china", date, true⟩ hdate

theorem Agree.adjustment (h : Agree a b calendarEnd day) (symbol : String) (hdate : date ≤ day) :
    adjustmentOf a symbol date = adjustmentOf b symbol date := by
  have hfind : ∀ database : Database, ∀ row : Adjustment,
      find Adjustment.key database.adjustments ("tushare", symbol, date) = some row ↔
        row ∈ database.adjustments ∧ row.key = ("tushare", symbol, date) := by
    intro database row
    constructor
    · intro hsome
      exact ⟨List.mem_of_find?_eq_some hsome, find_key hsome⟩
    · rintro ⟨hmem, hkey⟩
      rw [← hkey]
      exact database.adjustments_unique.find_of_mem hmem
  unfold adjustmentOf
  congr 1
  apply Option.ext
  intro row
  rw [hfind, hfind]
  constructor
  · rintro ⟨hmem, hkey⟩
    have hrow : row.tradeDate = date := congrArg (fun key => key.2.2) hkey
    exact ⟨(h.adjustments row (hrow ▸ hdate)).mp hmem, hkey⟩
  · rintro ⟨hmem, hkey⟩
    have hrow : row.tradeDate = date := congrArg (fun key => key.2.2) hkey
    exact ⟨(h.adjustments row (hrow ▸ hdate)).mpr hmem, hkey⟩

theorem Agree.factor (h : Agree a b calendarEnd day) {bar : Bar} (hbar : bar.tradeDate ≤ day) :
    factorOf a bar = factorOf b bar := by
  unfold factorOf
  rw [h.adjustment bar.symbol hbar]

theorem Agree.warmup (h : Agree a b calendarEnd day) {start : Date} (hstart : start ≤ calendarEnd) :
    warmupStart a start = warmupStart b start := by
  have hbefore : a.sessions.filter (fun date => date < start) =
      b.sessions.filter (fun date => date < start) := by
    apply eq_of_sorted ((sessions_strict a).filter _) ((sessions_strict b).filter _)
    intro date
    simp only [List.mem_filter, decide_eq_true_eq]
    constructor
    · rintro ⟨hmem, hlt⟩
      exact ⟨(h.session (hlt.le.trans hstart)).mp hmem, hlt⟩
    · rintro ⟨hmem, hlt⟩
      exact ⟨(h.session (hlt.le.trans hstart)).mpr hmem, hlt⟩
  unfold warmupStart
  rw [hbefore]

theorem Agree.barsOf (h : Agree a b calendarEnd day) {source : String} {later : Date}
    (hlater : day ≤ later) (symbol : String) :
    barsOf a ⟨source, first, day⟩ symbol =
      (barsOf b ⟨source, first, later⟩ symbol).filter (fun bar => bar.tradeDate ≤ day) := by
  apply eq_of_strict (barsOf_strict a _ symbol) ((barsOf_strict b _ symbol).filter _)
  intro bar
  rw [List.mem_filter, mem_barsOf, mem_barsOf, decide_eq_true_eq]
  constructor
  · rintro ⟨hmem, hsource, hsymbol, hfirst, hday⟩
    exact ⟨⟨(h.bars bar hday).mp hmem, hsource, hsymbol, hfirst, hday.trans hlater⟩, hday⟩
  · rintro ⟨⟨hmem, hsource, hsymbol, hfirst, _⟩, hday⟩
    exact ⟨(h.bars bar hday).mpr hmem, hsource, hsymbol, hfirst, hday⟩

/-- What the earlier snapshot has is what the later one has up to its end. -/
structure Causal (early late : Payload δ) (day : Date) : Prop where
  rebalance : early.rebalanceDates = late.rebalanceDates.filter (fun date => date ≤ day)
  factors : ∀ symbol, factorsIn early.inputs symbol =
    (factorsIn late.inputs symbol).filter (fun change => change.date ≤ day)
  liquidity : ∀ symbol, liquidityIn early.inputs symbol =
    (liquidityIn late.inputs symbol).filter (fun entry => entry.date ≤ day)

theorem causal_of_agree {stop : Date} {early late : Payload δ}
    {floorA endA firstA floorB endB firstB : Date}
    (ha : Built a parameters day floorA endA firstA early)
    (hb : Built b parameters stop floorB endB firstB late) (hstart : parameters.start ≤ day)
    (hstop : day ≤ stop) (h : Agree a b endB day) : Causal early late day := by
  have hend : ∀ {date : Date}, date ≤ stop → date ≤ endB :=
    fun hdate => le_calendarEnd hb.lookahead hdate rfl
  have hrebalance : early.rebalanceDates =
      late.rebalanceDates.filter (fun date => date ≤ day) := by
    have hearly := rebalances_exact ha
    have hlate := rebalances_exact hb
    apply eq_of_sorted hearly.ordered (hlate.ordered.filter _)
    intro date
    rw [List.mem_filter, hearly.exact, hlate.exact, decide_eq_true_eq]
    unfold LastOfWeek
    constructor
    · rintro ⟨hfrom, hday, hsession, hgreatest⟩
      refine ⟨⟨hfrom, hday.trans hstop, (h.session (hend (hday.trans hstop))).mp hsession,
        fun other hother hweek => ?_⟩, hday⟩
      have hle := le_calendarEnd hb.lookahead (hday.trans hstop) hweek.symm
      exact hgreatest other ((h.session hle).mpr hother) hweek
    · rintro ⟨⟨hfrom, _, hsession, hgreatest⟩, hday⟩
      refine ⟨hfrom, hday, (h.session (hend (hday.trans hstop))).mpr hsession,
        fun other hother hweek => ?_⟩
      have hle := le_calendarEnd hb.lookahead (hday.trans hstop) hweek.symm
      exact hgreatest other ((h.session hle).mp hother) hweek
  have hfloor : floorA = floorB := by
    have hwarmup := ha.warmup
    rw [h.warmup (hend (hstart.trans hstop)), hb.warmup] at hwarmup
    exact (Option.some.inj hwarmup).symm
  have hfirst : firstA = firstB := by
    obtain ⟨hmemA, hleastA⟩ := earliest_spec ha.earliest
    obtain ⟨hmemB, hleastB⟩ := earliest_spec hb.earliest
    simp only [List.mem_filter, mem_openDates, decide_eq_true_eq] at hmemA hleastA hmemB hleastB
    obtain ⟨⟨hsessionA, hlowA, _⟩, hdayA⟩ := hmemA
    obtain ⟨⟨hsessionB, hlowB, hhighB⟩, _⟩ := hmemB
    have hinA := (h.session (hend (hdayA.trans hstop))).mp hsessionA
    have hleB : firstB ≤ firstA := hleastB firstA
      ⟨⟨hinA, hfloor ▸ hlowA, hend (hdayA.trans hstop)⟩, hdayA.trans hstop⟩
    have hleA : firstA ≤ firstB := hleastA firstB
      ⟨⟨(h.session hhighB).mpr hsessionB, hfloor ▸ hlowB,
        le_calendarEnd ha.lookahead (hleB.trans hdayA) rfl⟩, hleB.trans hdayA⟩
    exact le_antisymm hleA hleB
  have hinputs : ∀ symbol, factorsIn early.inputs symbol =
        (factorsIn late.inputs symbol).filter (fun change => change.date ≤ day) ∧
      liquidityIn early.inputs symbol =
        (liquidityIn late.inputs symbol).filter (fun entry => entry.date ≤ day) := by
    intro symbol
    by_cases hsymbol : ∃ chunk ∈ parameters.chunks, symbol ∈ chunk
    · obtain ⟨chunk, hchunk, hmem⟩ := hsymbol
      obtain ⟨lastA, hrunA, hfactorsA, hliquidityA⟩ := inputs_of ha.inputs hchunk hmem
      obtain ⟨lastB, hrunB, hfactorsB, hliquidityB⟩ := inputs_of hb.inputs hchunk hmem
      rw [hfactorsA, hliquidityA, hfactorsB, hliquidityB]
      have hbars : barsOf a ⟨parameters.barSource, firstB, day⟩ symbol = _ :=
        h.barsOf hstop symbol
      rw [hfirst, hbars] at hrunA
      have hbefore : ∀ bar ∈ (barsOf b ⟨parameters.barSource, firstB, stop⟩ symbol).filter
          (fun bar => bar.tradeDate ≤ day), bar.tradeDate ≤ day := by
        intro bar hbar
        exact of_decide_eq_true (List.mem_filter.mp hbar).2
      have hafter : ∀ bar ∈ (barsOf b ⟨parameters.barSource, firstB, stop⟩ symbol).filter
          (fun bar => day < bar.tradeDate), day < bar.tradeDate := by
        intro bar hbar
        exact of_decide_eq_true (List.mem_filter.mp hbar).2
      have hreads : ∀ bar ∈ (barsOf b ⟨parameters.barSource, firstB, stop⟩ symbol).filter
          (fun bar => bar.tradeDate ≤ day), factorOf a bar = factorOf b bar ∧
            (bar.tradeDate ∈ early.rebalanceDates ↔ bar.tradeDate ∈ late.rebalanceDates) := by
        intro bar hbar
        have hday := hbefore bar hbar
        refine ⟨h.factor hday, ?_⟩
        rw [hrebalance, List.mem_filter, decide_eq_true_eq]
        exact ⟨fun hin => hin.1, fun hin => ⟨hin, hday⟩⟩
      rw [visits_congr hreads] at hrunA
      have hsplit := split_sorted (barsOf_strict b ⟨parameters.barSource, firstB, stop⟩ symbol) day
      rw [hsplit] at hrunB
      obtain ⟨hfactors, hliquidity⟩ := visits_upTo hbefore hafter hrunA hrunB
      exact ⟨hfactors.symm, hliquidity.symm⟩
    · have hnone : ∀ chunk ∈ parameters.chunks, symbol ∉ chunk := by
        intro chunk hchunk hin
        exact hsymbol ⟨chunk, hchunk, hin⟩
      obtain ⟨hfactorsA, hliquidityA⟩ := inputs_none ha.inputs hnone
      obtain ⟨hfactorsB, hliquidityB⟩ := inputs_none hb.inputs hnone
      rw [hfactorsA, hliquidityA, hfactorsB, hliquidityB]
      exact ⟨rfl, rfl⟩
  exact ⟨hrebalance, fun symbol => (hinputs symbol).1, fun symbol => (hinputs symbol).2⟩

/-! ## Stored factors -/

/-- The factor of the adjustments, or that of the bar where the adjustments have none. -/
def storedFactor (database : Database) (bar : Bar) : Option ℚ :=
  (adjustmentOf database bar.symbol bar.tradeDate).or bar.adjFactor

/-- The snapshot reads the bar. -/
def ReadBar (database : Database) (parameters : Parameters δ) (stop : Date) (bar : Bar) : Prop :=
  bar ∈ database.bars ∧ bar.source = parameters.barSource ∧
    (∃ chunk ∈ parameters.chunks, bar.symbol ∈ chunk) ∧ bar.tradeDate ≤ stop ∧
    ∃ floor first, warmupStart database parameters.start = some floor ∧
      earliest (openDates database floor stop) = some first ∧ first ≤ bar.tradeDate

/-- The changes in force on the days of the bars are the stored factors. -/
def Replays (database : Database) (parameters : Parameters δ) (stop : Date) (payload : Payload δ) :
    Prop :=
  ∀ bar, ReadBar database parameters stop bar →
    inForce (factorsIn payload.inputs bar.symbol) bar.tradeDate = storedFactor database bar

/-- Each bar that is read has a stored factor, and it is not zero. -/
def FactorsStored (database : Database) (parameters : Parameters δ) (stop : Date) : Prop :=
  ∀ bar, ReadBar database parameters stop bar →
    ∃ factor, storedFactor database bar = some factor ∧ factor ≠ 0

theorem factorOf_eq_stored_iff {bar : Bar} (hpositive : 0 < factorOf database bar) :
    some (factorOf database bar) = storedFactor database bar ↔
      ∃ factor, storedFactor database bar = some factor ∧ factor ≠ 0 := by
  constructor
  · intro h
    exact ⟨factorOf database bar, h.symm, hpositive.ne'⟩
  · rintro ⟨factor, hstored, hne⟩
    unfold factorOf
    rw [hstored]
    unfold storedFactor at hstored
    cases hadjustment : adjustmentOf database bar.symbol bar.tradeDate with
    | none =>
      rw [hadjustment, Option.none_or] at hstored
      rw [hstored]
      simp [truthy, Option.filter, hne]
    | some value =>
      rw [hadjustment, Option.some_or] at hstored
      obtain rfl := Option.some.inj hstored
      simp [truthy, Option.filter, hne]

theorem openDates_stop (h : stop.addDays 7 = some calendarEnd) :
    (openDates database floor calendarEnd).filter (fun date => date ≤ stop) =
      openDates database floor stop := by
  unfold openDates
  rw [List.filter_filter]
  apply List.filter_congr
  intro date _
  have hend : date ≤ stop → date ≤ calendarEnd := fun hle => le_calendarEnd h hle rfl
  by_cases hstop : date ≤ stop
  · simp [hstop, hend hstop]
  · simp [hstop]

theorem replays_iff (h : Built database parameters stop floor calendarEnd first payload) :
    Replays database parameters stop payload ↔ FactorsStored database parameters stop := by
  have hbar : ∀ bar, ReadBar database parameters stop bar →
      0 < factorOf database bar ∧
        inForce (factorsIn payload.inputs bar.symbol) bar.tradeDate =
          some (factorOf database bar) := by
    rintro bar ⟨hmem, hsource, ⟨chunk, hchunk, hsymbol⟩, hstop, floor', first', hfloor, hfirst, hle⟩
    rw [h.warmup] at hfloor
    obtain rfl := Option.some.inj hfloor
    have hearliest := h.earliest
    rw [openDates_stop h.lookahead, hfirst] at hearliest
    obtain rfl := Option.some.inj hearliest
    obtain ⟨last, hlast, hfactors, _⟩ := inputs_of h.inputs hchunk hsymbol
    have hreplayed := replayed_of_visits (barsOf_strict _ _ _) hlast
    have hin : bar ∈ barsOf database ⟨parameters.barSource, first', stop⟩ bar.symbol :=
      mem_barsOf.mpr ⟨hmem, hsource, rfl, hle, hstop⟩
    rw [hfactors]
    exact ⟨hreplayed.positive bar hin, hreplayed.inForce bar hin⟩
  constructor
  · intro hreplays bar hread
    obtain ⟨hpositive, hforce⟩ := hbar bar hread
    exact (factorOf_eq_stored_iff hpositive).mp (hforce.symm.trans (hreplays bar hread))
  · intro hstored bar hread
    obtain ⟨hpositive, hforce⟩ := hbar bar hread
    rw [hforce]
    exact (factorOf_eq_stored_iff hpositive).mpr (hstored bar hread)

/-! ## Two snapshots -/

/-- What two snapshots promise, of which one ends earlier than the other. -/
structure SnapshotsSound (a b : Database) (parameters : Parameters δ) (day stop : Date)
    (early late : Payload δ) : Prop where
  causal : Causal early late day
  rebalancesEarly : RebalancesExact a parameters day early
  rebalancesLate : RebalancesExact b parameters stop late
  replaysEarly : Replays a parameters day early
  replaysLate : Replays b parameters stop late

/-- Two snapshots keep the promise exactly if each bar that they read has a stored factor, and none
is zero. -/
theorem snapshots_iff {calendarEnd : Date} {early late : Payload δ}
    (hstart : parameters.start ≤ day) (hstop : day ≤ stop)
    (hend : stop.addDays 7 = some calendarEnd) (hagree : Agree a b calendarEnd day)
    (hearly : buildTrendPullbackSnapshot parameters day a = .ok early)
    (hlate : buildTrendPullbackSnapshot parameters stop b = .ok late) :
    SnapshotsSound a b parameters day stop early late ↔
      FactorsStored a parameters day ∧ FactorsStored b parameters stop := by
  obtain ⟨floorA, endA, firstA, ha⟩ := built_of_ok hearly
  obtain ⟨floorB, endB, firstB, hb⟩ := built_of_ok hlate
  have heq : endB = calendarEnd := Option.some.inj (hb.lookahead.symm.trans hend)
  constructor
  · intro h
    exact ⟨(replays_iff ha).mp h.replaysEarly, (replays_iff hb).mp h.replaysLate⟩
  · rintro ⟨hstoredA, hstoredB⟩
    exact
      { causal := causal_of_agree ha hb hstart hstop (heq ▸ hagree)
        rebalancesEarly := rebalances_exact ha
        rebalancesLate := rebalances_exact hb
        replaysEarly := (replays_iff ha).mpr hstoredA
        replaysLate := (replays_iff hb).mpr hstoredB }

/-! ### Samples -/

def sampleDays : List Date :=
  [4, 5, 6, 7, 8, 11, 12, 13, 14, 15, 18, 19, 20, 21, 22, 25, 26, 27, 28, 29].filterMap
    (ofParts 2016 1)

def sampleBars (factor : Option ℚ) (days : List Date) : List Bar :=
  days.map (fun day => ⟨"unit", "000001", day, some 60000000, factor⟩)

def sampleLater : Date := ⟨2016, 2, 1, by decide⟩

theorem unique_sampleBars (factor : Option ℚ) {days : List Date} (h : days.Nodup) :
    Tables.Unique Bar.key (sampleBars factor days) := by
  unfold Tables.Unique sampleBars
  rw [List.map_map]
  apply List.Nodup.map _ h
  intro day other heq
  exact congrArg (fun key : String × String × Date => key.2.2) heq

/-- One symbol with its bars, and the sessions up to the beginning of February. -/
def sampleDatabase (factor : Option ℚ) (days : List Date) (h : days.Nodup) : Database where
  calendar := (sampleDays ++ [sampleLater]).map (fun day => ⟨"china", day, true⟩)
  industries := [⟨"000001", "801010", none, "SW2021", 1, ⟨2010, 1, 1, by decide⟩, none⟩]
  securities := []
  bars := sampleBars factor days
  adjustments := []
  calendar_unique := by decide +kernel
  bars_unique := unique_sampleBars factor h
  adjustments_unique := List.nodup_nil

def sampleParameters : Parameters Unit where
  start := ⟨2016, 1, 4, by decide⟩
  universeCode := ""
  modelVariant := ""
  source := "unit"
  provider := ""
  universeSchedule := [⟨"000001", ()⟩]
  fundamentalSchedule := []

def sampleEnd : Date := ⟨2016, 1, 29, by decide⟩

/-- The database on the day of the end, with a factor for each bar or with none. -/
def sampleEarly (factor : Option ℚ) : Database :=
  sampleDatabase factor sampleDays (by decide +kernel)

/-- The database with the bars of the next session. -/
def sampleLate (factor : Option ℚ) : Database :=
  sampleDatabase factor (sampleDays ++ [sampleLater]) (by decide +kernel)

theorem sample_agree (factor : Option ℚ) (calendarEnd : Date) :
    Agree (sampleEarly factor) (sampleLate factor) calendarEnd sampleEnd := by
  refine ⟨fun _ _ => Iff.rfl, fun bar hbar => ?_, fun _ _ => Iff.rfl⟩
  show bar ∈ sampleBars factor sampleDays ↔ bar ∈ sampleBars factor (sampleDays ++ [sampleLater])
  unfold sampleBars
  rw [List.map_append, List.mem_append]
  constructor
  · exact .inl
  · rintro (hold | hnew)
    · exact hold
    · rw [List.map_singleton, List.mem_singleton] at hnew
      have hlater : ¬ sampleLater ≤ sampleEnd := by decide +kernel
      rw [hnew] at hbar
      exact absurd hbar hlater

theorem snapshots_iff_sample :
    ∃ early late, buildTrendPullbackSnapshot sampleParameters sampleEnd (sampleEarly (some 1)) =
        .ok early ∧
      buildTrendPullbackSnapshot sampleParameters sampleLater (sampleLate (some 1)) = .ok late ∧
      (SnapshotsSound (sampleEarly (some 1)) (sampleLate (some 1)) sampleParameters sampleEnd
          sampleLater early late ↔
        FactorsStored (sampleEarly (some 1)) sampleParameters sampleEnd ∧
          FactorsStored (sampleLate (some 1)) sampleParameters sampleLater) := by
  have hokEarly : (buildTrendPullbackSnapshot sampleParameters sampleEnd
      (sampleEarly (some 1))).isOk = true := by decide +kernel
  have hokLate : (buildTrendPullbackSnapshot sampleParameters sampleLater
      (sampleLate (some 1))).isOk = true := by decide +kernel
  have hend : sampleLater.addDays 7 = some ⟨2016, 2, 8, by decide⟩ := by decide +kernel
  obtain ⟨early, hearly⟩ := exists_of_isOk hokEarly
  obtain ⟨late, hlate⟩ := exists_of_isOk hokLate
  exact ⟨early, late, hearly, hlate, snapshots_iff (by decide +kernel) (by decide +kernel) hend
    (sample_agree _ _) hearly hlate⟩

/-- Bars without a factor, in tables that have none for them: the snapshot is accepted, and has a
factor of one for every day. -/
theorem missing_factors_accepted :
    ∃ early late, buildTrendPullbackSnapshot sampleParameters sampleEnd (sampleEarly none) =
        .ok early ∧
      buildTrendPullbackSnapshot sampleParameters sampleLater (sampleLate none) = .ok late ∧
      Agree (sampleEarly none) (sampleLate none) ⟨2016, 2, 8, by decide⟩ sampleEnd ∧
      ¬ SnapshotsSound (sampleEarly none) (sampleLate none) sampleParameters sampleEnd
          sampleLater early late := by
  have hokEarly : (buildTrendPullbackSnapshot sampleParameters sampleEnd
      (sampleEarly none)).isOk = true := by decide +kernel
  have hokLate : (buildTrendPullbackSnapshot sampleParameters sampleLater
      (sampleLate none)).isOk = true := by decide +kernel
  obtain ⟨early, hearly⟩ := exists_of_isOk hokEarly
  obtain ⟨late, hlate⟩ := exists_of_isOk hokLate
  refine ⟨early, late, hearly, hlate, sample_agree _ _, fun hsound => ?_⟩
  obtain ⟨floor, calendarEnd, first, hbuilt⟩ := built_of_ok hearly
  have hstored := (replays_iff hbuilt).mp hsound.replaysEarly
  have hread : ReadBar (sampleEarly none) sampleParameters sampleEnd
      ⟨"unit", "000001", sampleEnd, some 60000000, none⟩ :=
    ⟨by decide +kernel, by decide +kernel, by decide +kernel, by decide +kernel,
      ⟨2014, 10, 11, by decide⟩, ⟨2016, 1, 4, by decide⟩, by decide +kernel, by decide +kernel,
      by decide +kernel⟩
  obtain ⟨factor, hfactor, _⟩ := hstored _ hread
  exact absurd hfactor (by simp [storedFactor, adjustmentOf, sampleEarly, sampleDatabase, find])

end LocalPlatform.Strategies.Pullback
