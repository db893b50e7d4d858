import LocalPlatform.Lib.IsoDates
import LocalPlatform.Lib.IsoWeeks
import LocalPlatform.Lib.Results
import LocalPlatform.Lib.Rows
import Mathlib.Data.String.Basic

/-!
# Inputs of the trend-pullback snapshot

* `Database` holds the tables that the snapshot reads.  Its keys are those of the tables.
* `rebalanceDates` keeps the last session of each week of a calendar.
* `visit` is the loop over the bars of one symbol: it writes the factors where they change, and the
  liquidity of the days on which the portfolio is rebalanced.
* `visits_append` and `Replayed` say what the loop has after some bars, whatever bars follow.
-/

namespace LocalPlatform.Strategies.Pullback

open Dates IsoDates IsoWeeks Results
open Tables

/-! ## Tables -/

structure CalendarRow where
  market : String
  tradeDate : Date
  isOpen : Bool
  deriving DecidableEq

structure IndustryRow where
  symbol : String
  industryCode : String
  industryName : Option String
  taxonomy : String
  levelNo : ℕ
  inDate : Date
  outDate : Option Date
  deriving DecidableEq

structure SecurityRow where
  symbol : String
  listedDate : Date
  delistedDate : Option Date
  status : String
  deriving DecidableEq

/-- A daily bar of a source. -/
structure Bar where
  source : String
  symbol : String
  tradeDate : Date
  amount : Option ℚ
  adjFactor : Option ℚ
  deriving DecidableEq

/-- A row of the adjustment factors. -/
structure Adjustment where
  source : String
  symbol : String
  tradeDate : Date
  adjFactor : Option ℚ
  deriving DecidableEq

def CalendarRow.key (row : CalendarRow) : String × Date := (row.market, row.tradeDate)

def Bar.key (bar : Bar) : String × String × Date := (bar.source, bar.symbol, bar.tradeDate)

def Adjustment.key (row : Adjustment) : String × String × Date :=
  (row.source, row.symbol, row.tradeDate)

structure Database where
  calendar : List CalendarRow
  industries : List IndustryRow
  securities : List SecurityRow
  bars : List Bar
  adjustments : List Adjustment
  calendar_unique : Unique CalendarRow.key calendar
  bars_unique : Unique Bar.key bars
  adjustments_unique : Unique Adjustment.key adjustments

/-! ## The calendar -/

def Database.sessions (database : Database) : List Date :=
  orderBy id ((database.calendar.filter (fun row => row.market = "china" ∧ row.isOpen)).map
    CalendarRow.tradeDate)

/-- `_open_dates` -/
def openDates (database : Database) (start stop : Date) : List Date :=
  database.sessions.filter (fun date => start ≤ date ∧ date ≤ stop)

/-- `min(dates)`, of dates that there are -/
def earliest (dates : List Date) : Option Date := (orderBy id dates).head?

/-- `_warmup_start`, of three hundred sessions.  There is none if no date is that early. -/
def warmupStart (database : Database) (start : Date) : Option Date :=
  match earliest ((database.sessions.filter (fun date => date < start)).reverse.take 300) with
  | some first => some first
  | none => subDays 450 start

/-- `_rebalance_dates` -/
def rebalanceDates (dates : List Date) (start : Date) : List Date :=
  (orderBy isoWeek (uniqueLast isoWeek dates)).filter (fun date => start ≤ date)

/-! ## The bars of a symbol -/

/-- A factor and the day from which it is in force. -/
structure FactorChange where
  date : Date
  value : ℚ
  deriving DecidableEq

structure Liquidity where
  date : Date
  amountMedian20Cny : ℚ
  amountRatio5To20 : ℚ
  deriving DecidableEq

/-- What the loop over the bars of a symbol has found. -/
structure Progress where
  amounts : List ℚ
  previousFactor : Option ℚ
  factors : List FactorChange
  liquidity : List Liquidity
  barCount : ℕ
  deriving DecidableEq

def Progress.start : Progress := ⟨[], none, [], [], 0⟩

/-- `statistics.median` -/
def median (values : List ℚ) : ℚ :=
  let ordered := orderBy id values
  if ordered.length % 2 = 1 then ordered.getD (ordered.length / 2) 0
  else (ordered.getD (ordered.length / 2 - 1) 0 + ordered.getD (ordered.length / 2) 0) / 2

/-- The liquidity that the last twenty amounts give. -/
def liquidityOf (date : Date) (amounts : List ℚ) : Liquidity :=
  let last20 := lastOf 20 amounts
  let mean20 := last20.sum / 20
  { date := date
    amountMedian20Cny := median last20
    amountRatio5To20 := if 0 < mean20 then (lastOf 5 amounts).sum / 5 / mean20 else 0 }

def truthy (value : Option ℚ) : Option ℚ := value.filter (fun v => v ≠ 0)

/-- The row of the adjustment factors for a symbol and a date. -/
def adjustmentOf (database : Database) (symbol : String) (date : Date) : Option ℚ :=
  (find Adjustment.key database.adjustments ("tushare", symbol, date)).bind Adjustment.adjFactor

def factorOf (database : Database) (bar : Bar) : ℚ :=
  ((truthy (adjustmentOf database bar.symbol bar.tradeDate)).or (truthy bar.adjFactor)).getD 1

/-- The loop over the bars of a symbol. -/
def visit (rebalance : List Date) (factor : Bar → ℚ) (progress : Progress) (bar : Bar) :
    Except String Progress :=
  if factor bar ≤ 0 then
    .error ("Non-positive adjustment factor for " ++ bar.symbol ++ " on " ++
      String.ofList (isoFormat bar.tradeDate) ++ ".")
  else
    let amounts := progress.amounts ++ [bar.amount.getD 0]
    .ok
      { amounts := amounts
        previousFactor := some (factor bar)
        factors := if progress.previousFactor = some (factor bar) then progress.factors
          else progress.factors ++ [⟨bar.tradeDate, factor bar⟩]
        liquidity := if bar.tradeDate ∈ rebalance ∧ 20 ≤ amounts.length then
            progress.liquidity ++ [liquidityOf bar.tradeDate amounts]
          else progress.liquidity
        barCount := progress.barCount + 1 }

/-! ## All symbols -/

/-- What the snapshot has of a symbol. -/
structure SymbolInputs where
  symbol : String
  factors : List FactorChange
  liquidity : List Liquidity
  barCount : ℕ
  deriving DecidableEq

/-- The range of the days that are read. -/
structure Window where
  source : String
  first : Date
  last : Date

def barRows (database : Database) (window : Window) (chunk : List String) : List Bar :=
  orderBy (fun bar => toLex (bar.symbol, bar.tradeDate)) (database.bars.filter (fun bar =>
    bar.source = window.source ∧ bar.symbol ∈ chunk ∧ window.first ≤ bar.tradeDate ∧
      bar.tradeDate ≤ window.last))

/-- The bars of a symbol among some rows, by their dates. -/
def datedBars (rows : List Bar) (symbol : String) : List Bar :=
  orderBy Bar.tradeDate (uniqueLast Bar.tradeDate (rows.filter (fun bar => bar.symbol = symbol)))

def symbolInputs (database : Database) (rebalance : List Date) (rows : List Bar)
    (symbol : String) : Except String SymbolInputs :=
  ((datedBars rows symbol).foldlM (visit rebalance (factorOf database)) Progress.start).map
    (fun progress => ⟨symbol, progress.factors, progress.liquidity, progress.barCount⟩)

/-- The inputs of the symbols of a chunk that have bars. -/
def chunkInputs (database : Database) (rebalance : List Date) (window : Window)
    (chunk : List String) : Except String (List SymbolInputs) :=
  let rows := barRows database window chunk
  (uniqueFirst id (rows.map Bar.symbol)).mapM (symbolInputs database rebalance rows)

/-- `_market_inputs`, of the chunks of the symbols -/
def marketInputs (database : Database) (rebalance : List Date) (window : Window)
    (chunks : List (List String)) : Except String (List SymbolInputs) :=
  (chunks.mapM (chunkInputs database rebalance window)).map List.flatten

/-! ## The loop over some bars -/

section Loop

variable {rebalance : List Date} {factor : Bar → ℚ} {progress : Progress} {bar : Bar}

theorem visit_ok {next : Progress} (h : visit rebalance factor progress bar = .ok next) :
    0 < factor bar ∧ next =
      { amounts := progress.amounts ++ [bar.amount.getD 0]
        previousFactor := some (factor bar)
        factors := if progress.previousFactor = some (factor bar) then progress.factors
          else progress.factors ++ [⟨bar.tradeDate, factor bar⟩]
        liquidity := if bar.tradeDate ∈ rebalance ∧
            20 ≤ (progress.amounts ++ [bar.amount.getD 0]).length then
            progress.liquidity ++
              [liquidityOf bar.tradeDate (progress.amounts ++ [bar.amount.getD 0])]
          else progress.liquidity
        barCount := progress.barCount + 1 } := by
  unfold visit at h
  split at h
  · cases h
  · rename_i hpositive
    exact ⟨not_le.mp hpositive, (Except.ok.inj h).symm⟩

variable {bars : List Bar} {last : Progress}

theorem visits_cons (h : (bar :: bars).foldlM (visit rebalance factor) progress = .ok last) :
    ∃ next, visit rebalance factor progress bar = .ok next ∧
      bars.foldlM (visit rebalance factor) next = .ok last := by
  rw [List.foldlM_cons] at h
  exact bind_ok h

theorem visits_append {before after : List Bar}
    (h : (before ++ after).foldlM (visit rebalance factor) progress = .ok last) :
    ∃ middle, before.foldlM (visit rebalance factor) progress = .ok middle ∧
      after.foldlM (visit rebalance factor) middle = .ok last := by
  rw [List.foldlM_append] at h
  exact bind_ok h

theorem visits_congr {rebalance' : List Date} {factor' : Bar → ℚ}
    (h : ∀ bar ∈ bars, factor bar = factor' bar ∧
      (bar.tradeDate ∈ rebalance ↔ bar.tradeDate ∈ rebalance')) :
    ∀ progress, bars.foldlM (visit rebalance factor) progress =
      bars.foldlM (visit rebalance' factor') progress := by
  induction bars with
  | nil =>
    intro progress
    rfl
  | cons bar bars ih =>
    intro progress
    obtain ⟨hbar, hbars⟩ := List.forall_mem_cons.mp h
    have hvisit : visit rebalance factor progress bar = visit rebalance' factor' progress bar := by
      unfold visit
      simp only [hbar.1, hbar.2]
    rw [List.foldlM_cons, List.foldlM_cons, hvisit]
    exact congrArg _ (funext (ih hbars))

theorem visits_extend : ∀ {progress last : Progress},
    bars.foldlM (visit rebalance factor) progress = .ok last →
    (∃ changes, last.factors = progress.factors ++ changes ∧
      ∀ change ∈ changes, ∃ bar ∈ bars, change.date = bar.tradeDate) ∧
    ∃ entries, last.liquidity = progress.liquidity ++ entries ∧
      ∀ entry ∈ entries, ∃ bar ∈ bars, entry.date = bar.tradeDate := by
  induction bars with
  | nil =>
    intro progress last h
    rw [← Except.ok.inj h]
    exact ⟨⟨[], by simp, by simp⟩, [], by simp, by simp⟩
  | cons bar bars ih =>
    intro progress last h
    obtain ⟨next, hnext, hrest⟩ := visits_cons h
    obtain ⟨_, rfl⟩ := visit_ok hnext
    obtain ⟨⟨changes, hchanges, hdates⟩, entries, hentries, hdays⟩ := ih hrest
    dsimp only at hchanges hentries
    constructor
    · split at hchanges
      · refine ⟨changes, hchanges, fun change hmem => ?_⟩
        obtain ⟨other, hother, heq⟩ := hdates change hmem
        exact ⟨other, List.mem_cons_of_mem bar hother, heq⟩
      · refine ⟨⟨bar.tradeDate, factor bar⟩ :: changes, ?_, fun change hmem => ?_⟩
        · rw [hchanges, List.append_assoc, List.singleton_append]
        · rcases List.mem_cons.mp hmem with rfl | hlater
          · exact ⟨bar, List.mem_cons_self, rfl⟩
          · obtain ⟨other, hother, heq⟩ := hdates change hlater
            exact ⟨other, List.mem_cons_of_mem bar hother, heq⟩
    · split at hentries
      · refine ⟨liquidityOf bar.tradeDate (progress.amounts ++ [bar.amount.getD 0]) :: entries, ?_,
          fun entry hmem => ?_⟩
        · rw [hentries, List.append_assoc, List.singleton_append]
        · rcases List.mem_cons.mp hmem with rfl | hlater
          · exact ⟨bar, List.mem_cons_self, rfl⟩
          · obtain ⟨other, hother, heq⟩ := hdays entry hlater
            exact ⟨other, List.mem_cons_of_mem bar hother, heq⟩
      · refine ⟨entries, hentries, fun entry hmem => ?_⟩
        obtain ⟨other, hother, heq⟩ := hdays entry hmem
        exact ⟨other, List.mem_cons_of_mem bar hother, heq⟩

variable {day : Date}

theorem visits_upTo {before after : List Bar} {first : Progress}
    (hbefore : ∀ bar ∈ before, bar.tradeDate ≤ day) (hafter : ∀ bar ∈ after, day < bar.tradeDate)
    (hfirst : before.foldlM (visit rebalance factor) Progress.start = .ok first)
    (hlast : (before ++ after).foldlM (visit rebalance factor) Progress.start = .ok last) :
    last.factors.filter (fun change => change.date ≤ day) = first.factors ∧
      last.liquidity.filter (fun entry => entry.date ≤ day) = first.liquidity := by
  obtain ⟨middle, hmiddle, hrest⟩ := visits_append hlast
  rw [hfirst] at hmiddle
  obtain rfl := Except.ok.inj hmiddle
  obtain ⟨⟨changes, hchanges, hdates⟩, entries, hentries, hdays⟩ := visits_extend hfirst
  obtain ⟨⟨later, hlater, hlaterDates⟩, laterEntries, hlaterEntries, hlaterDays⟩ :=
    visits_extend hrest
  rw [show Progress.start.factors = [] from rfl, List.nil_append] at hchanges
  rw [show Progress.start.liquidity = [] from rfl, List.nil_append] at hentries
  constructor
  · rw [hlater, List.filter_append, List.filter_eq_self.mpr, List.filter_eq_nil_iff.mpr,
      List.append_nil]
    · intro change hmem
      obtain ⟨bar, hbar, heq⟩ := hlaterDates change hmem
      rw [decide_eq_true_eq, heq]
      exact (hafter bar hbar).not_ge
    · intro change hmem
      rw [hchanges] at hmem
      obtain ⟨bar, hbar, heq⟩ := hdates change hmem
      rw [decide_eq_true_eq, heq]
      exact hbefore bar hbar
  · rw [hlaterEntries, List.filter_append, List.filter_eq_self.mpr, List.filter_eq_nil_iff.mpr,
      List.append_nil]
    · intro entry hmem
      obtain ⟨bar, hbar, heq⟩ := hlaterDays entry hmem
      rw [decide_eq_true_eq, heq]
      exact (hafter bar hbar).not_ge
    · intro entry hmem
      rw [hentries] at hmem
      obtain ⟨bar, hbar, heq⟩ := hdays entry hmem
      rw [decide_eq_true_eq, heq]
      exact hbefore bar hbar

/-! ### Factors in force -/

def inForce (changes : List FactorChange) (day : Date) : Option ℚ :=
  (changes.filter (fun change => change.date ≤ day)).getLast?.map FactorChange.value

/-- What the loop has after bars in the order of their days. -/
structure Replayed (factor : Bar → ℚ) (bars : List Bar) (progress : Progress) : Prop where
  dates : ∀ change ∈ progress.factors, ∃ bar ∈ bars, change.date = bar.tradeDate
  previous : progress.factors.getLast?.map FactorChange.value = progress.previousFactor
  inForce : ∀ bar ∈ bars, inForce progress.factors bar.tradeDate = some (factor bar)
  positive : ∀ bar ∈ bars, 0 < factor bar

theorem inForce_append_later {changes : List FactorChange} (change : FactorChange)
    (h : day < change.date) : inForce (changes ++ [change]) day = inForce changes day := by
  unfold inForce
  rw [List.filter_append, List.filter_cons_of_neg (by simpa using h)]
  simp

theorem inForce_all {changes : List FactorChange} (h : ∀ change ∈ changes, change.date ≤ day) :
    inForce changes day = changes.getLast?.map FactorChange.value := by
  unfold inForce
  rw [List.filter_eq_self.mpr (by simpa using h)]

theorem Replayed.step {next : Progress} (h : Replayed factor bars progress)
    (hlater : ∀ other ∈ bars, other.tradeDate < bar.tradeDate)
    (hvisit : visit rebalance factor progress bar = .ok next) :
    Replayed factor (bars ++ [bar]) next := by
  obtain ⟨hpositive, rfl⟩ := visit_ok hvisit
  have hbefore : ∀ change ∈ progress.factors, change.date < bar.tradeDate := by
    intro change hmem
    obtain ⟨other, hother, heq⟩ := h.dates change hmem
    rw [heq]
    exact hlater other hother
  have hall : ∀ other ∈ bars ++ [bar], 0 < factor other := by
    intro other hmem
    rcases List.mem_append.mp hmem with hold | hnew
    · exact h.positive other hold
    · rw [List.mem_singleton.mp hnew]
      exact hpositive
  by_cases hsame : progress.previousFactor = some (factor bar)
  · refine ⟨?_, ?_, ?_, hall⟩
    · dsimp only
      rw [if_pos hsame]
      intro change hmem
      obtain ⟨other, hother, heq⟩ := h.dates change hmem
      exact ⟨other, List.mem_append_left _ hother, heq⟩
    · dsimp only
      rw [if_pos hsame, h.previous, hsame]
    · dsimp only
      rw [if_pos hsame]
      intro other hmem
      rcases List.mem_append.mp hmem with hold | hnew
      · exact h.inForce other hold
      · rw [List.mem_singleton.mp hnew, inForce_all (fun change hin => (hbefore change hin).le),
          h.previous, hsame]
  · refine ⟨?_, ?_, ?_, hall⟩
    · dsimp only
      rw [if_neg hsame]
      intro change hmem
      rcases List.mem_append.mp hmem with hold | hnew
      · obtain ⟨other, hother, heq⟩ := h.dates change hold
        exact ⟨other, List.mem_append_left _ hother, heq⟩
      · rw [List.mem_singleton.mp hnew]
        exact ⟨bar, List.mem_append_right _ List.mem_cons_self, rfl⟩
    · dsimp only
      rw [if_neg hsame, List.getLast?_append]
      rfl
    · dsimp only
      rw [if_neg hsame]
      intro other hmem
      rcases List.mem_append.mp hmem with hold | hnew
      · rw [inForce_append_later ⟨bar.tradeDate, factor bar⟩ (hlater other hold)]
        exact h.inForce other hold
      · rw [List.mem_singleton.mp hnew, inForce_all]
        · rw [List.getLast?_append]
          rfl
        · intro change hin
          rcases List.mem_append.mp hin with hchange | hlast
          · exact (hbefore change hchange).le
          · rw [List.mem_singleton.mp hlast]

theorem replayed_of_visits (hsorted : bars.Pairwise (fun a b => a.tradeDate < b.tradeDate))
    (h : bars.foldlM (visit rebalance factor) Progress.start = .ok last) :
    Replayed factor bars last := by
  induction bars using List.reverseRecOn generalizing last with
  | nil =>
    rw [← Except.ok.inj h]
    exact ⟨by simp [Progress.start], rfl, by simp, by simp⟩
  | append_singleton bars bar ih =>
    obtain ⟨middle, hmiddle, hlast⟩ := visits_append h
    obtain ⟨next, hnext, hnil⟩ := visits_cons hlast
    obtain ⟨hbars, _, hcross⟩ := List.pairwise_append.mp hsorted
    rw [← Except.ok.inj hnil]
    exact (ih hbars hmiddle).step
      (fun other hother => hcross other hother bar List.mem_cons_self) hnext

end Loop

/-! ## The inputs of a symbol -/

/-- The bars of a symbol in a window, by their dates. -/
def barsOf (database : Database) (window : Window) (symbol : String) : List Bar :=
  orderBy Bar.tradeDate (database.bars.filter (fun bar =>
    bar.source = window.source ∧ bar.symbol = symbol ∧ window.first ≤ bar.tradeDate ∧
      bar.tradeDate ≤ window.last))

variable {database : Database} {window : Window} {symbol : String}

theorem mem_barsOf {bar : Bar} : bar ∈ barsOf database window symbol ↔
    bar ∈ database.bars ∧ bar.source = window.source ∧ bar.symbol = symbol ∧
      window.first ≤ bar.tradeDate ∧ bar.tradeDate ≤ window.last := by
  unfold barsOf
  rw [mem_orderBy, List.mem_filter, decide_eq_true_eq]

theorem unique_days {bars : List Bar} (h : Tables.Unique Bar.key bars) {source symbol : String}
    (hbars : ∀ bar ∈ bars, bar.source = source ∧ bar.symbol = symbol) :
    Tables.Unique Bar.tradeDate bars := by
  have hmap : bars.map Bar.tradeDate = (bars.map Bar.key).map (fun key => key.2.2) := by
    rw [List.map_map]
    rfl
  unfold Tables.Unique at h ⊢
  rw [hmap]
  apply List.Nodup.map_on _ h
  intro x hx y hy heq
  obtain ⟨a, ha, rfl⟩ := List.mem_map.mp hx
  obtain ⟨b, hb, rfl⟩ := List.mem_map.mp hy
  unfold Bar.key at heq ⊢
  rw [(hbars a ha).1, (hbars a ha).2, (hbars b hb).1, (hbars b hb).2]
  exact congrArg (fun day => (source, symbol, day)) heq

theorem unique_barsOf (database : Database) (window : Window) (symbol : String) :
    Unique Bar.tradeDate (database.bars.filter (fun bar =>
      bar.source = window.source ∧ bar.symbol = symbol ∧ window.first ≤ bar.tradeDate ∧
        bar.tradeDate ≤ window.last)) := by
  have hsome : ∀ bar ∈ database.bars.filter (fun bar =>
      bar.source = window.source ∧ bar.symbol = symbol ∧ window.first ≤ bar.tradeDate ∧
        bar.tradeDate ≤ window.last), bar.source = window.source ∧ bar.symbol = symbol := by
    intro bar hbar
    have hmem := (List.mem_filter.mp hbar).2
    rw [decide_eq_true_eq] at hmem
    exact ⟨hmem.1, hmem.2.1⟩
  exact unique_days (database.bars_unique.sublist (List.filter_sublist.map Bar.key)) hsome

theorem barsOf_strict (database : Database) (window : Window) (symbol : String) :
    (barsOf database window symbol).Pairwise (fun a b => a.tradeDate < b.tradeDate) :=
  orderBy_strict (unique_barsOf database window symbol)

theorem datedBars_eq {chunk : List String} (h : symbol ∈ chunk) :
    datedBars (barRows database window chunk) symbol = barsOf database window symbol := by
  have hperm : ((barRows database window chunk).filter (fun bar => bar.symbol = symbol)).Perm
      (database.bars.filter (fun bar =>
        bar.source = window.source ∧ bar.symbol = symbol ∧ window.first ≤ bar.tradeDate ∧
          bar.tradeDate ≤ window.last)) := by
    refine ((orderBy_perm _ _).filter _).trans ?_
    rw [List.filter_filter]
    apply List.Perm.of_eq
    apply List.filter_congr
    intro bar _
    by_cases heq : bar.symbol = symbol
    · simp [heq, h]
    · simp [heq]
  have hunique : Unique Bar.tradeDate
      ((barRows database window chunk).filter (fun bar => bar.symbol = symbol)) :=
    ((hperm.map Bar.tradeDate).nodup_iff).mpr (unique_barsOf database window symbol)
  unfold datedBars
  rw [uniqueLast_of_unique hunique]
  exact orderBy_eq_of_perm hunique hperm

/-- The changes of the factor of a symbol, which are none for a symbol without bars. -/
def factorsIn (entries : List SymbolInputs) (symbol : String) : List FactorChange :=
  ((entries.find? (fun entry => entry.symbol = symbol)).map SymbolInputs.factors).getD []

def liquidityIn (entries : List SymbolInputs) (symbol : String) : List Liquidity :=
  ((entries.find? (fun entry => entry.symbol = symbol)).map SymbolInputs.liquidity).getD []

variable {rebalance : List Date} {chunks : List (List String)} {entries : List SymbolInputs}

theorem marketInputs_spec (h : marketInputs database rebalance window chunks = .ok entries) :
    (∀ entry ∈ entries, (∃ chunk ∈ chunks, entry.symbol ∈ chunk) ∧ ∃ last,
      (barsOf database window entry.symbol).foldlM (visit rebalance (factorOf database))
        Progress.start = .ok last ∧
      entry.factors = last.factors ∧ entry.liquidity = last.liquidity) ∧
    ∀ chunk ∈ chunks, ∀ symbol ∈ chunk, barsOf database window symbol ≠ [] →
      ∃ entry ∈ entries, entry.symbol = symbol := by
  obtain ⟨parts, hparts, rfl⟩ := map_ok h
  constructor
  · intro entry hentry
    obtain ⟨part, hpart, hin⟩ := List.mem_flatten.mp hentry
    obtain ⟨chunk, hchunk, hread⟩ := exists_of_mapM hparts hpart
    obtain ⟨symbol, hsymbol, hinputs⟩ := exists_of_mapM hread hin
    obtain ⟨last, hlast, rfl⟩ := map_ok hinputs
    have hmem : symbol ∈ chunk := by
      rw [mem_uniqueFirst_id, List.mem_map] at hsymbol
      obtain ⟨bar, hbar, rfl⟩ := hsymbol
      have hfilter := mem_orderBy.mp hbar
      simp only [List.mem_filter, decide_eq_true_eq] at hfilter
      exact hfilter.2.2.1
    rw [datedBars_eq hmem] at hlast
    exact ⟨⟨chunk, hchunk, hmem⟩, last, hlast, rfl, rfl⟩
  · intro chunk hchunk symbol hmem hbars
    obtain ⟨bar, hbar⟩ := List.exists_mem_of_ne_nil _ hbars
    obtain ⟨hin, hsource, hsymbol, hfirst, hlast⟩ := mem_barsOf.mp hbar
    obtain ⟨part, hpart, hread⟩ := value_of_mapM hparts hchunk
    have hrow : symbol ∈ uniqueFirst id ((barRows database window chunk).map Bar.symbol) := by
      rw [mem_uniqueFirst_id, List.mem_map]
      refine ⟨bar, ?_, hsymbol⟩
      unfold barRows
      rw [mem_orderBy, List.mem_filter, decide_eq_true_eq]
      exact ⟨hin, hsource, hsymbol ▸ hmem, hfirst, hlast⟩
    obtain ⟨entry, hentry, hinputs⟩ := value_of_mapM hread hrow
    obtain ⟨last, _, rfl⟩ := map_ok hinputs
    exact ⟨_, List.mem_flatten.mpr ⟨part, hpart, hentry⟩, rfl⟩

theorem inputs_of (h : marketInputs database rebalance window chunks = .ok entries)
    {chunk : List String} (hchunk : chunk ∈ chunks) (hmem : symbol ∈ chunk) :
    ∃ last, (barsOf database window symbol).foldlM (visit rebalance (factorOf database))
        Progress.start = .ok last ∧
      factorsIn entries symbol = last.factors ∧ liquidityIn entries symbol = last.liquidity := by
  obtain ⟨hentries, hsome⟩ := marketInputs_spec h
  unfold factorsIn liquidityIn
  cases hfind : entries.find? (fun entry => entry.symbol = symbol) with
  | none =>
    have hnone : barsOf database window symbol = [] := by
      by_contra hbars
      obtain ⟨entry, hentry, heq⟩ := hsome chunk hchunk symbol hmem hbars
      have hnot := List.find?_eq_none.mp hfind entry hentry
      exact hnot (by simpa using heq)
    rw [hnone]
    exact ⟨Progress.start, rfl, rfl, rfl⟩
  | some entry =>
    have heq : entry.symbol = symbol := by simpa using List.find?_some hfind
    obtain ⟨_, last, hlast, hfactors, hliquidity⟩ :=
      hentries entry (List.mem_of_find?_eq_some hfind)
    rw [heq] at hlast
    exact ⟨last, hlast, hfactors, hliquidity⟩

theorem inputs_none (h : marketInputs database rebalance window chunks = .ok entries)
    (hnone : ∀ chunk ∈ chunks, symbol ∉ chunk) :
    factorsIn entries symbol = [] ∧ liquidityIn entries symbol = [] := by
  have hfind : entries.find? (fun entry => entry.symbol = symbol) = none := by
    rw [List.find?_eq_none]
    intro entry hentry heq
    rw [decide_eq_true_eq] at heq
    obtain ⟨⟨chunk, hchunk, hmem⟩, _⟩ := (marketInputs_spec h).1 entry hentry
    exact hnone chunk hchunk (heq ▸ hmem)
  unfold factorsIn liquidityIn
  rw [hfind]
  exact ⟨rfl, rfl⟩

end LocalPlatform.Strategies.Pullback
