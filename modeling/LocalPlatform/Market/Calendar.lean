import LocalPlatform.Lib.Neighbours
import LocalPlatform.Lib.Rows
import Mathlib.Data.List.Dedup
import Mathlib.Data.String.Basic

/-!
# The trade calendar

`upsert_trade_calendar` stores the open dates of a market with links to the open dates around
them.  It links the dates of one batch with each other and merges them into the table.

`calendar_links_iff` is about any sequence of batches: all links are adjacent after every batch
exactly when every batch fits what is stored when it comes (`Neighbours.Fits`).
-/

namespace LocalPlatform.Market

open Tables Neighbours

/-! ## The table -/

/-- A row of `trade_calendar`. -/
structure TradeCalendarRow where
  market : String
  tradeDate : String
  isOpen : Bool
  prevTradeDate : Option String
  nextTradeDate : Option String
  source : String
  batchId : Option String
  deriving DecidableEq

def TradeCalendarRow.key (row : TradeCalendarRow) : String × String := (row.market, row.tradeDate)

/-- The `on conflict` clause of `upsert_trade_calendar`. -/
def TradeCalendarRow.merge (old excluded : TradeCalendarRow) : TradeCalendarRow :=
  { old with
    isOpen := excluded.isOpen
    prevTradeDate := excluded.prevTradeDate.or old.prevTradeDate
    nextTradeDate := excluded.nextTradeDate.or old.nextTradeDate
    source := excluded.source
    batchId := excluded.batchId }

/-- The arguments of one call. -/
structure CalendarBatch where
  market : String
  tradeDates : List String
  source : String
  batchId : Option String
  deriving DecidableEq

/-- `sorted(set(trade_dates))` -/
def CalendarBatch.uniqueDates (batch : CalendarBatch) : List String :=
  orderBy id batch.tradeDates.dedup

/-- The rows of a batch, each with its neighbours in the batch. -/
def CalendarBatch.rows (batch : CalendarBatch) : List TradeCalendarRow :=
  batch.uniqueDates.zipIdx.map (fun entry =>
    { market := batch.market
      tradeDate := entry.1
      isOpen := true
      prevTradeDate := if 0 < entry.2 then batch.uniqueDates[entry.2 - 1]? else none
      nextTradeDate := batch.uniqueDates[entry.2 + 1]?
      source := batch.source
      batchId := batch.batchId })

/-- `upsert_trade_calendar` -/
def upsertTradeCalendar (table : List TradeCalendarRow) (batch : CalendarBatch) :
    List TradeCalendarRow :=
  batch.rows.foldl (upsert TradeCalendarRow.key TradeCalendarRow.merge) table

def calendarAfter (batches : List CalendarBatch) : List TradeCalendarRow :=
  batches.foldl upsertTradeCalendar []

def openDatesOf (table : List TradeCalendarRow) (market : String) : List String :=
  (table.filter (fun row => row.market == market && row.isOpen)).map TradeCalendarRow.tradeDate

/-- The links of each open date are the nearest stored open dates of its market. -/
def Linked (table : List TradeCalendarRow) : Prop :=
  ∀ row ∈ table, row.isOpen = true →
    IsPrev (openDatesOf table row.market) row.tradeDate row.prevTradeDate ∧
      IsNext (openDatesOf table row.market) row.tradeDate row.nextTradeDate

/-! ## The rows of a batch -/

theorem merge_key (old row : TradeCalendarRow) : (old.merge row).key = old.key := rfl

variable {batch : CalendarBatch} {date : String}

theorem mem_uniqueDates : date ∈ batch.uniqueDates ↔ date ∈ batch.tradeDates := by
  unfold CalendarBatch.uniqueDates
  rw [mem_orderBy, List.mem_dedup]

theorem uniqueDates_sorted (batch : CalendarBatch) : batch.uniqueDates.Pairwise (· < ·) := by
  have hle : batch.uniqueDates.Pairwise (fun a b => a ≤ b) := orderBy_sorted id _
  have hne : batch.uniqueDates.Pairwise (· ≠ ·) :=
    (orderBy_perm id batch.tradeDates.dedup).nodup_iff.mpr (List.nodup_dedup _)
  exact (hle.and hne).imp (fun h => lt_of_le_of_ne h.1 h.2)

theorem rows_key (batch : CalendarBatch) :
    batch.rows.map TradeCalendarRow.key =
      batch.uniqueDates.map (fun date => (batch.market, date)) := by
  have hfst : batch.uniqueDates.zipIdx.map Prod.fst = batch.uniqueDates := List.zipIdx_map_fst 0 _
  unfold CalendarBatch.rows
  rw [List.map_map]
  conv_rhs => rw [← hfst, List.map_map]
  rfl

theorem rows_key_nodup (batch : CalendarBatch) : (batch.rows.map TradeCalendarRow.key).Nodup := by
  rw [rows_key]
  apply List.Nodup.map
  · intro a b h
    exact (Prod.mk.inj h).2
  · exact (uniqueDates_sorted batch).imp (fun h => h.ne)

theorem find_rows (batch : CalendarBatch) (market date : String) :
    match find TradeCalendarRow.key batch.rows (market, date) with
    | some row => market = batch.market ∧ date ∈ batch.uniqueDates ∧ row.key = (market, date) ∧
        row.isOpen = true ∧ IsPrev batch.uniqueDates date row.prevTradeDate ∧
        IsNext batch.uniqueDates date row.nextTradeDate
    | none => ¬ (market = batch.market ∧ date ∈ batch.uniqueDates) := by
  cases hfind : find TradeCalendarRow.key batch.rows (market, date) with
  | none =>
    rintro ⟨rfl, hdate⟩
    rw [find_eq_none_iff, rows_key] at hfind
    exact hfind (List.mem_map_of_mem hdate)
  | some row =>
    have hkey := find_key hfind
    obtain ⟨entry, hentry, rfl⟩ := List.mem_map.mp (mem_of_find hfind)
    have hindex : batch.uniqueDates[entry.2]? = some entry.1 :=
      List.mem_zipIdx_iff_getElem?.mp hentry
    obtain ⟨hmarket, hdate⟩ := Prod.mk.inj hkey
    subst hdate
    exact ⟨hmarket.symm, List.mem_of_getElem? hindex, hkey, rfl,
      isPrev_of_sorted (uniqueDates_sorted batch) hindex,
      isNext_of_sorted (uniqueDates_sorted batch) hindex⟩

/-! ## One batch -/

/-- One row for each key, and all rows are open. -/
structure CalendarTable (table : List TradeCalendarRow) : Prop where
  unique : Unique TradeCalendarRow.key table
  allOpen : ∀ row ∈ table, row.isOpen = true

variable {table : List TradeCalendarRow}

theorem CalendarTable.mem_openDates (h : CalendarTable table) {market : String} :
    date ∈ openDatesOf table market ↔
      ∃ row, find TradeCalendarRow.key table (market, date) = some row := by
  unfold openDatesOf
  rw [List.mem_map]
  constructor
  · rintro ⟨row, hrow, rfl⟩
    obtain ⟨hmem, hmarket⟩ := List.mem_filter.mp hrow
    simp only [Bool.and_eq_true, beq_iff_eq] at hmarket
    refine ⟨row, ?_⟩
    rw [← hmarket.1]
    exact h.unique.find_of_mem hmem
  · rintro ⟨row, hfind⟩
    have hkey := find_key hfind
    obtain ⟨hmarket, hdate⟩ := Prod.mk.inj hkey
    refine ⟨row, List.mem_filter.mpr ⟨mem_of_find hfind, ?_⟩, hdate⟩
    simp [hmarket, h.allOpen row (mem_of_find hfind)]

theorem upsertTradeCalendar_find (table : List TradeCalendarRow) (batch : CalendarBatch)
    (k : String × String) :
    find TradeCalendarRow.key (upsertTradeCalendar table batch) k =
      match find TradeCalendarRow.key batch.rows k with
      | some row => some (merged TradeCalendarRow.key TradeCalendarRow.merge table row)
      | none => find TradeCalendarRow.key table k := by
  unfold upsertTradeCalendar
  rw [find_upserts merge_key table (rows_key_nodup batch)]
  cases find TradeCalendarRow.key batch.rows k <;> rfl

theorem upserts_unique {rows : List TradeCalendarRow} (h : Unique TradeCalendarRow.key table) :
    Unique TradeCalendarRow.key
      (rows.foldl (upsert TradeCalendarRow.key TradeCalendarRow.merge) table) := by
  induction rows generalizing table with
  | nil => exact h
  | cons row rows ih => exact ih (h.upsert _ row)

theorem upserts_open {rows : List TradeCalendarRow} (hrows : ∀ row ∈ rows, row.isOpen = true)
    (h : ∀ row ∈ table, row.isOpen = true) :
    ∀ row ∈ rows.foldl (upsert TradeCalendarRow.key TradeCalendarRow.merge) table,
      row.isOpen = true := by
  induction rows generalizing table with
  | nil => exact h
  | cons row rows ih =>
    apply ih (fun other hother => hrows other (List.mem_cons_of_mem _ hother))
    intro other hother
    have hrow := hrows row List.mem_cons_self
    cases mem_upsert hother with
    | inl hold => exact h other hold
    | inr hnew =>
      cases hnew with
      | inl heq => exact heq ▸ hrow
      | inr hmerged =>
        obtain ⟨old, -, heq⟩ := hmerged
        rw [heq]
        exact hrow

theorem CalendarTable.upsert (h : CalendarTable table) (batch : CalendarBatch) :
    CalendarTable (upsertTradeCalendar table batch) where
  unique := upserts_unique h.unique
  allOpen := by
    apply upserts_open _ h.allOpen
    intro row hrow
    obtain ⟨entry, -, rfl⟩ := List.mem_map.mp hrow
    rfl

theorem CalendarTable.mem_openDates_upsert (h : CalendarTable table) (batch : CalendarBatch)
    {market : String} :
    date ∈ openDatesOf (upsertTradeCalendar table batch) market ↔
      date ∈ openDatesOf table market ∨ (market = batch.market ∧ date ∈ batch.uniqueDates) := by
  rw [(h.upsert batch).mem_openDates, h.mem_openDates, upsertTradeCalendar_find]
  have hrow := find_rows batch market date
  cases hfind : find TradeCalendarRow.key batch.rows (market, date) with
  | none =>
    rw [hfind] at hrow
    simp [hrow]
  | some row =>
    rw [hfind] at hrow
    simp [hrow.1, hrow.2.1]

theorem fits_congr {stored stored' batch batch' : List String}
    (hstored : ∀ date, date ∈ stored ↔ date ∈ stored')
    (hbatch : ∀ date, date ∈ batch ↔ date ∈ batch') (h : Fits stored batch) :
    Fits stored' batch' where
  inside := fun date hdate low hlow high hhigh hlt hgt =>
    (hbatch date).mp (h.inside date ((hstored date).mpr hdate) low ((hbatch low).mpr hlow) high
      ((hbatch high).mpr hhigh) hlt hgt)
  before := fun date hdate low hlow hmin hlt =>
    (hstored low).mp (h.before date ((hstored date).mpr hdate) low ((hbatch low).mpr hlow)
      (fun other hother => hmin other ((hbatch other).mp hother)) hlt)
  after := fun date hdate high hhigh hmax hlt =>
    (hstored high).mp (h.after date ((hstored date).mpr hdate) high ((hbatch high).mpr hhigh)
      (fun other hother => hmax other ((hbatch other).mp hother)) hlt)

theorem Linked.links (h : Linked table) (htable : CalendarTable table) {market : String}
    {row : TradeCalendarRow} (hfind : find TradeCalendarRow.key table (market, date) = some row) :
    IsPrev (openDatesOf table market) date row.prevTradeDate ∧
      IsNext (openDatesOf table market) date row.nextTradeDate := by
  have hkey := find_key hfind
  obtain ⟨rfl, rfl⟩ := Prod.mk.inj hkey
  exact h row (mem_of_find hfind) (htable.allOpen row (mem_of_find hfind))

theorem IsPrev.congr {dates dates' : List String} (h : ∀ date, date ∈ dates ↔ date ∈ dates')
    {link : Option String} : IsPrev dates date link ↔ IsPrev dates' date link := by
  cases link <;> simp [IsPrev, h]

theorem IsNext.congr {dates dates' : List String} (h : ∀ date, date ∈ dates ↔ date ∈ dates')
    {link : Option String} : IsNext dates date link ↔ IsNext dates' date link := by
  cases link <;> simp [IsNext, h]

/-- A batch that fits leaves all links adjacent. -/
theorem Linked.upsert (h : Linked table) (htable : CalendarTable table)
    (hfits : Fits (openDatesOf table batch.market) batch.uniqueDates) :
    Linked (upsertTradeCalendar table batch) := by
  intro row hrow _
  have hnext := htable.upsert batch
  have hfind := hnext.unique.find_of_mem hrow
  have hkey : row.key = (row.market, row.tradeDate) := rfl
  rw [hkey, upsertTradeCalendar_find] at hfind
  have hbatch := find_rows batch row.market row.tradeDate
  by_cases hmarket : row.market = batch.market
  · have hall : ∀ date, date ∈ openDatesOf (upsertTradeCalendar table batch) row.market ↔
        date ∈ openDatesOf table batch.market ∨ date ∈ batch.uniqueDates := by
      intro date
      rw [htable.mem_openDates_upsert]
      simp [hmarket]
    cases hnew : find TradeCalendarRow.key batch.rows (row.market, row.tradeDate) with
    | none =>
      rw [hnew] at hfind hbatch
      have hout : row.tradeDate ∉ batch.uniqueDates := fun hmem => hbatch ⟨hmarket, hmem⟩
      have hstored : row.tradeDate ∈ openDatesOf table batch.market :=
        htable.mem_openDates.mpr ⟨row, by rw [← hmarket]; exact hfind⟩
      have hlinks := h.links htable hfind
      rw [hmarket] at hlinks
      exact ⟨hfits.prev_stored hall hstored hout hlinks.1,
        isNext_iff_dual.mpr (hfits.dual.prev_stored hall hstored hout
          (isNext_iff_dual.mp hlinks.2))⟩
    | some new =>
      rw [hnew] at hfind hbatch
      obtain ⟨-, hdate, hnewKey, -, hprev, hnextLink⟩ := hbatch
      have hrowEq : merged TradeCalendarRow.key TradeCalendarRow.merge table new = row :=
        Option.some.inj hfind
      unfold merged at hrowEq
      rw [hnewKey] at hrowEq
      cases hold : find TradeCalendarRow.key table (row.market, row.tradeDate) with
      | none =>
        rw [hold] at hrowEq
        dsimp only at hrowEq
        have hfresh : row.tradeDate ∉ openDatesOf table batch.market := by
          intro hmem
          obtain ⟨old, hfound⟩ := htable.mem_openDates.mp hmem
          rw [← hmarket, hold] at hfound
          cases hfound
        have hp := hfits.prev_batch hall hdate hprev (.inr ⟨hfresh, rfl⟩)
        have hn : IsNext (openDatesOf (upsertTradeCalendar table batch) row.market) row.tradeDate
            (new.nextTradeDate.or none) :=
          isNext_iff_dual.mpr (hfits.dual.prev_batch hall hdate (isNext_iff_dual.mp hnextLink)
            (.inr ⟨hfresh, rfl⟩))
        rw [hrowEq, Option.or_none] at hp
        rw [hrowEq, Option.or_none] at hn
        exact ⟨hp, hn⟩
      | some old =>
        rw [hold] at hrowEq
        dsimp only at hrowEq
        have hmem : row.tradeDate ∈ openDatesOf table batch.market :=
          htable.mem_openDates.mpr ⟨old, by rw [← hmarket]; exact hold⟩
        have hlinks := h.links htable hold
        rw [hmarket] at hlinks
        have hp := hfits.prev_batch hall hdate hprev (.inl ⟨hmem, hlinks.1⟩)
        have hn := hfits.dual.prev_batch hall hdate (isNext_iff_dual.mp hnextLink)
          (.inl ⟨hmem, isNext_iff_dual.mp hlinks.2⟩)
        have hprevLink : row.prevTradeDate = new.prevTradeDate.or old.prevTradeDate :=
          congrArg TradeCalendarRow.prevTradeDate hrowEq.symm
        have hnextLink' : row.nextTradeDate = new.nextTradeDate.or old.nextTradeDate :=
          congrArg TradeCalendarRow.nextTradeDate hrowEq.symm
        rw [hprevLink, hnextLink']
        exact ⟨hp, isNext_iff_dual.mpr hn⟩
  · -- another market keeps its dates and its rows
    have hall : ∀ date, date ∈ openDatesOf table row.market ↔
        date ∈ openDatesOf (upsertTradeCalendar table batch) row.market := by
      intro date
      rw [htable.mem_openDates_upsert]
      simp [hmarket]
    cases hnew : find TradeCalendarRow.key batch.rows (row.market, row.tradeDate) with
    | some new =>
      rw [hnew] at hbatch
      exact absurd hbatch.1 hmarket
    | none =>
      rw [hnew] at hfind
      have hlinks := h.links htable hfind
      exact ⟨(IsPrev.congr hall).mp hlinks.1, (IsNext.congr hall).mp hlinks.2⟩

/-- A batch after which all links are adjacent fits. -/
theorem fits_of_linked (h : Linked table) (htable : CalendarTable table)
    (hnext : Linked (upsertTradeCalendar table batch)) :
    Fits (openDatesOf table batch.market) batch.uniqueDates := by
  have hall : ∀ date, date ∈ openDatesOf (upsertTradeCalendar table batch) batch.market ↔
      date ∈ openDatesOf table batch.market ∨ date ∈ batch.uniqueDates := by
    intro date
    rw [htable.mem_openDates_upsert]
    simp
  have hlinks : ∀ date row,
      find TradeCalendarRow.key (upsertTradeCalendar table batch) (batch.market, date) = some row →
        IsPrev (openDatesOf (upsertTradeCalendar table batch) batch.market) date
          row.prevTradeDate := fun date row hfind => (hnext.links (htable.upsert batch) hfind).1
  apply fits_of_prev hall
  · intro date hdate link hlink
    have hbatch := find_rows batch batch.market date
    cases hnew : find TradeCalendarRow.key batch.rows (batch.market, date) with
    | none =>
      rw [hnew] at hbatch
      exact absurd ⟨rfl, hdate⟩ hbatch
    | some new =>
      rw [hnew] at hbatch
      have hprev : new.prevTradeDate = some link := hbatch.2.2.2.2.1.unique hlink
      have hright := hlinks date _ (by rw [upsertTradeCalendar_find, hnew])
      have hvalue : (merged TradeCalendarRow.key TradeCalendarRow.merge table new).prevTradeDate =
          some link := by
        unfold merged
        cases find TradeCalendarRow.key table new.key with
        | none => exact hprev
        | some old =>
          show new.prevTradeDate.or old.prevTradeDate = some link
          rw [hprev]
          rfl
      rw [hvalue] at hright
      exact hright
  · intro date hdate hfresh hnone
    have hbatch := find_rows batch batch.market date
    cases hnew : find TradeCalendarRow.key batch.rows (batch.market, date) with
    | none =>
      rw [hnew] at hbatch
      exact absurd ⟨rfl, hdate⟩ hbatch
    | some new =>
      rw [hnew] at hbatch
      have hprev : new.prevTradeDate = none := hbatch.2.2.2.2.1.unique hnone
      have hright := hlinks date _ (by rw [upsertTradeCalendar_find, hnew])
      have hmissing : find TradeCalendarRow.key table new.key = none := by
        rw [hbatch.2.2.1]
        cases hold : find TradeCalendarRow.key table (batch.market, date) with
        | none => rfl
        | some old => exact absurd (htable.mem_openDates.mpr ⟨old, hold⟩) hfresh
      have hvalue : (merged TradeCalendarRow.key TradeCalendarRow.merge table new).prevTradeDate =
          none := by
        unfold merged
        rw [hmissing]
        exact hprev
      rw [hvalue] at hright
      exact hright
  · intro date hdate hout
    obtain ⟨old, hold⟩ := htable.mem_openDates.mp hdate
    have hbatch := find_rows batch batch.market date
    cases hnew : find TradeCalendarRow.key batch.rows (batch.market, date) with
    | some new =>
      rw [hnew] at hbatch
      exact absurd hbatch.2.1 hout
    | none =>
      exact ⟨old.prevTradeDate, (h.links htable hold).1,
        hlinks date old (by rw [upsertTradeCalendar_find, hnew]; exact hold)⟩

/-! ## Sequences of batches -/

theorem calendarAfter_snoc (batches : List CalendarBatch) (batch : CalendarBatch) :
    calendarAfter (batches ++ [batch]) = upsertTradeCalendar (calendarAfter batches) batch := by
  simp [calendarAfter, List.foldl_append]

theorem calendarAfter_table (batches : List CalendarBatch) :
    CalendarTable (calendarAfter batches) := by
  induction batches using List.reverseRecOn with
  | nil => exact { unique := List.nodup_nil, allOpen := by simp [calendarAfter] }
  | append_singleton batches batch ih =>
    rw [calendarAfter_snoc]
    exact ih.upsert batch

/-- All links are adjacent after each batch of a sequence exactly when each batch fits the dates
that are stored when it comes. -/
theorem calendar_links_iff (batches : List CalendarBatch) :
    (∀ before, before <+: batches → Linked (calendarAfter before)) ↔
      ∀ before batch, before ++ [batch] <+: batches →
        Fits (openDatesOf (calendarAfter before) batch.market) batch.tradeDates := by
  have hdates : ∀ batch : CalendarBatch, ∀ date, date ∈ batch.uniqueDates ↔
      date ∈ batch.tradeDates := fun batch date => mem_uniqueDates
  constructor
  · intro hlinked before batch hprefix
    have hbefore := hlinked before ((List.prefix_append before [batch]).trans hprefix)
    have hnext := hlinked (before ++ [batch]) hprefix
    rw [calendarAfter_snoc] at hnext
    exact fits_congr (fun _ => Iff.rfl) (hdates batch)
      (fits_of_linked hbefore (calendarAfter_table before) hnext)
  · intro hfits before
    induction before using List.reverseRecOn with
    | nil =>
      intro _ row hrow
      cases hrow
    | append_singleton before batch ih =>
      intro hprefix
      rw [calendarAfter_snoc]
      exact (ih ((List.prefix_append before [batch]).trans hprefix)).upsert
        (calendarAfter_table before)
        (fits_congr (fun _ => Iff.rfl) (fun date => (hdates batch date).symm)
          (hfits before batch hprefix))

/-- A batch with a date between two stored ones. -/
def gapBatches : List CalendarBatch :=
  [{ market := "china", tradeDates := ["2024-01-02", "2024-01-04"], source := "sync",
     batchId := none },
   { market := "china", tradeDates := ["2024-01-03"], source := "sync", batchId := none }]

def gapRow : TradeCalendarRow where
  market := "china"
  tradeDate := "2024-01-03"
  isOpen := true
  prevTradeDate := none
  nextTradeDate := none
  source := "sync"
  batchId := none

/-- The date that fills the gap has no links, and its neighbours still link to each other. -/
theorem gap_unlinked :
    (calendarAfter gapBatches).map (fun row => (row.tradeDate, row.prevTradeDate,
        row.nextTradeDate)) =
      [("2024-01-02", none, some "2024-01-04"), ("2024-01-04", some "2024-01-02", none),
        ("2024-01-03", none, none)] ∧
      ¬ Linked (calendarAfter gapBatches) := by
  have hrows : (calendarAfter gapBatches).map (fun row => (row.tradeDate, row.prevTradeDate,
      row.nextTradeDate)) =
      [("2024-01-02", none, some "2024-01-04"), ("2024-01-04", some "2024-01-02", none),
        ("2024-01-03", none, none)] := by decide +kernel
  refine ⟨hrows, ?_⟩
  intro hlinked
  have hmem : gapRow ∈ calendarAfter gapBatches := by decide +kernel
  have hprev := (hlinked _ hmem rfl).1
  have hstored : "2024-01-02" ∈ openDatesOf (calendarAfter gapBatches) "china" := by
    decide +kernel
  exact hprev "2024-01-02" hstored (by decide +kernel)

end LocalPlatform.Market
