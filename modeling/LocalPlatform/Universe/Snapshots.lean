import LocalPlatform.Lib.Dates
import LocalPlatform.Universe.Replay

/-!
# Membership intervals from snapshots

`build_snapshot_intervals` turns the snapshots of an index, of which the provider gives one at a
date, into intervals: the members of a snapshot stay from its date to the trade date before the
next snapshot.

* `buildSnapshotIntervals` groups the rows by date, counts the members and writes the intervals.
* `Reproduces` is what the intervals are for: on an open day they have the members of the latest
  snapshot.
* `snapshots_reproduced_iff`: they do, and no interval is inverted, exactly when the snapshots are
  `Timely`.

The rows come from the provider's adapter, which gives a date as its ISO text or leaves it out.
-/

namespace LocalPlatform.Universe

open Paper Spans Tables Dates

/-! ## The builder -/

/-- What `OFFERED_UNIVERSES` says of an index. -/
structure UniverseSpec where
  indexSymbol : Option String
  expectedMembers : Option ℕ
  deriving DecidableEq

/-- `OFFERED_UNIVERSES` -/
def offeredUniverses : List (String × UniverseSpec) :=
  [("CSI300", ⟨some "000300.SH", some 300⟩),
    ("CSI500", ⟨some "000905.SH", some 500⟩),
    ("CSI1000", ⟨some "000852.SH", some 1000⟩),
    ("SSE50", ⟨some "000016.SH", some 50⟩),
    ("STAR50", ⟨some "000688.SH", some 50⟩),
    ("ALL_A", ⟨none, none⟩)]

/-- `universe_spec` -/
def universeSpec (universeCode : String) : Option UniverseSpec :=
  offeredUniverses.lookup (upper (strip universeCode))

/-- The members that `build_snapshot_intervals` expects of an index. -/
def expectedMembers (universeCode : String) : Option ℕ :=
  (universeSpec universeCode).bind (fun spec => spec.indexSymbol.bind (fun _ => spec.expectedMembers))

/-- A row of `index_weight`. -/
structure SnapshotRow where
  tradeDate : Option Day
  symbol : Option String
  name : Option String
  weight : Option ℚ
  deriving DecidableEq

inductive SnapshotError where
  /-- `{universe_code} is not a supported index universe.` -/
  | unsupported (universeCode : String)
  /-- `No index_weight snapshots were returned for {universe_code}.` -/
  | noSnapshots (universeCode : String)
  /-- `{universe_code} snapshot membership counts are incomplete: {sample}.` -/
  | incomplete (universeCode : String) (sample : List (Day × ℕ))
  deriving DecidableEq

structure SnapshotIntervals where
  universeCode : String
  batchId : String
  intervals : List Interval
  snapshotCounts : List (Day × ℕ)
  coverageStart : Day
  coverageEnd : Day
  expectedMembers : ℕ
  deriving DecidableEq

/-- `str(row.get("symbol") or "").strip().upper()` -/
def SnapshotRow.member (row : SnapshotRow) : String := upper (strip (row.symbol.getD ""))

/-- The place of a row in `grouped`, unless the row is skipped. -/
def SnapshotRow.place (row : SnapshotRow) : Option (Day × String) :=
  row.tradeDate.bind (fun date => if row.member = "" then none else some (date, row.member))

/-- `sorted(grouped)` -/
def snapshotDates (rows : List SnapshotRow) : List Day :=
  ascending ((rows.filterMap SnapshotRow.place).map Prod.fst)

/-- `sorted(grouped[snapshot].items())`: a later row of a symbol takes the place of an earlier
one. -/
def snapshotMembers (rows : List SnapshotRow) (snapshot : Day) : List SnapshotRow :=
  orderBy SnapshotRow.member (uniqueLast SnapshotRow.member
    (rows.filter (fun row => row.place.any (fun place => place.1 == snapshot))))

/-- An interval of `build_snapshot_intervals`. -/
def snapshotInterval (universeCode source batchId : String) (span : Span Day) (row : SnapshotRow) :
    Interval where
  universeCode := upper universeCode
  symbol := row.member
  name := firstText [row.name, some row.member]
  startDate := span.first
  endDate := span.last
  announceDate := span.first
  effectiveDate := span.first
  weight := row.weight
  source := source
  batchId := batchId
  listedDate := span.first
  delistedDate := none

/-- The intervals of the snapshots, of which each ends on the trade date before the next one. -/
def intervalsOf (previous : Day → Day) (universeCode source batchId : String)
    (rows : List SnapshotRow) : List Interval :=
  (cells previous (snapshotDates rows)).flatMap (fun span =>
    (snapshotMembers rows span.first).map (snapshotInterval universeCode source batchId span))

/-- `build_snapshot_intervals` on the day `today`. -/
def buildSnapshotIntervals (previous : Day → Day) (today : Day)
    (universeCode source batchId : String) (rows : List SnapshotRow) :
    Except SnapshotError SnapshotIntervals :=
  match expectedMembers universeCode with
  | none => .error (.unsupported universeCode)
  | some expected =>
    let counts := (snapshotDates rows).map
      (fun snapshot => (snapshot, (snapshotMembers rows snapshot).length))
    let invalid := counts.filter (fun item => item.2 ≠ expected)
    match snapshotDates rows with
    | [] => .error (.noSnapshots universeCode)
    | first :: _ =>
      if invalid ≠ [] then .error (.incomplete universeCode (invalid.take 10))
      else
        .ok
          { universeCode := upper universeCode
            batchId := batchId
            intervals := intervalsOf previous universeCode source batchId rows
            snapshotCounts := counts
            coverageStart := first
            coverageEnd := today
            expectedMembers := expected }

/-! ## What the intervals are for -/

def InSnapshot (rows : List SnapshotRow) (date : Day) (symbol : String) : Prop :=
  ∃ row ∈ rows, row.place = some (date, symbol)

/-- The intervals give back the snapshots. -/
structure Reproduces (isOpen : Day → Prop) (rows : List SnapshotRow) (intervals : List Interval) :
    Prop where
  members : ∀ day, isOpen day → (∃ first ∈ snapshotDates rows, first ≤ day) →
    ∃ date, Latest (snapshotDates rows) day date ∧ ∀ symbol,
      (∃ interval ∈ intervals, interval.symbol = symbol ∧ interval.span.Covers day) ↔
        InSnapshot rows date symbol
  ordered : ∀ interval ∈ intervals, ∀ last, interval.endDate = some last →
    interval.startDate ≤ last
  once : ∀ day symbol, (intervals.filter (fun interval =>
    interval.symbol = symbol ∧ interval.span.Covers day)).length ≤ 1

/-- Where the fourteen days before a snapshot have an open day, one is not before the snapshot that
it follows. -/
def Timely (isOpen : Day → Prop) (dates : List Day) : Prop :=
  ∀ date next, Adjacent dates date next →
    (∃ day, isOpen day ∧ day < next ∧ next - day ≤ 14) →
      ∃ day, isOpen day ∧ date ≤ day ∧ day < next

/-! ## Members of a snapshot -/

section Members

variable {rows : List SnapshotRow}

theorem SnapshotRow.place_eq_some {row : SnapshotRow} {date : Day} {symbol : String}
    (h : row.place = some (date, symbol)) : row.member = symbol := by
  unfold place at h
  obtain ⟨day, -, hday⟩ := Option.bind_eq_some_iff.mp h
  split_ifs at hday
  cases hday
  rfl

theorem mem_snapshotDates {date : Day} :
    date ∈ snapshotDates rows ↔ ∃ symbol, InSnapshot rows date symbol := by
  unfold snapshotDates InSnapshot
  rw [mem_ascending, List.mem_map]
  constructor
  · intro hdate
    obtain ⟨place, hplace, hfirst⟩ := hdate
    obtain ⟨row, hrow, hsome⟩ := List.mem_filterMap.mp hplace
    exact ⟨place.2, row, hrow, by rw [hsome, ← hfirst]⟩
  · intro hdate
    obtain ⟨symbol, row, hrow, hsome⟩ := hdate
    exact ⟨(date, symbol), List.mem_filterMap.mpr ⟨row, hrow, hsome⟩, rfl⟩

theorem snapshotDates_sorted (rows : List SnapshotRow) : (snapshotDates rows).Pairwise (· < ·) :=
  sorted_ascending _

theorem unique_snapshotMembers (rows : List SnapshotRow) (snapshot : Day) :
    Tables.Unique SnapshotRow.member (snapshotMembers rows snapshot) :=
  (unique_uniqueLast _ _).perm (orderBy_perm _ _).symm

theorem mem_map_snapshotMembers {snapshot : Day} {symbol : String} :
    symbol ∈ (snapshotMembers rows snapshot).map SnapshotRow.member ↔
      InSnapshot rows snapshot symbol := by
  unfold snapshotMembers
  rw [((orderBy_perm SnapshotRow.member _).map SnapshotRow.member).mem_iff, mem_map_uniqueLast,
    List.mem_map]
  constructor
  · intro hsymbol
    obtain ⟨row, hrow, hmember⟩ := hsymbol
    have hparts := List.mem_filter.mp hrow
    obtain ⟨place, hplace, hdate⟩ := (Option.any_eq_true _ _).mp hparts.2
    have hsame : row.member = place.2 := row.place_eq_some hplace
    refine ⟨row, hparts.1, ?_⟩
    rw [hplace, ← beq_iff_eq.mp hdate, ← hmember, hsame]
  · intro hsymbol
    obtain ⟨row, hrow, hplace⟩ := hsymbol
    refine ⟨row, List.mem_filter.mpr ⟨hrow, ?_⟩, row.place_eq_some hplace⟩
    simp [hplace]

end Members

/-! ## The intervals of the snapshots -/

section Intervals

variable {previous : Day → Day} {universeCode source batchId : String} {rows : List SnapshotRow}

theorem mem_intervalsOf {interval : Interval}
    (h : interval ∈ intervalsOf previous universeCode source batchId rows) :
    interval.span ∈ cells previous (snapshotDates rows) ∧
      InSnapshot rows interval.startDate interval.symbol := by
  obtain ⟨span, hspan, hrow⟩ := List.mem_flatMap.mp h
  obtain ⟨row, hmem, rfl⟩ := List.mem_map.mp hrow
  exact ⟨hspan, mem_map_snapshotMembers.mp (List.mem_map_of_mem hmem)⟩

theorem exists_interval {span : Span Day} (hspan : span ∈ cells previous (snapshotDates rows))
    {symbol : String} (h : InSnapshot rows span.first symbol) :
    ∃ interval ∈ intervalsOf previous universeCode source batchId rows,
      interval.symbol = symbol ∧ interval.span = span := by
  obtain ⟨row, hrow, hmember⟩ := List.mem_map.mp (mem_map_snapshotMembers.mpr h)
  exact ⟨snapshotInterval universeCode source batchId span row,
    List.mem_flatMap.mpr ⟨span, hspan, List.mem_map_of_mem hrow⟩, hmember, rfl⟩

theorem pairwise_intervalsOf :
    (intervalsOf previous universeCode source batchId rows).Pairwise
      (fun a b => (a.symbol, a.startDate) ≠ (b.symbol, b.startDate)) := by
  unfold intervalsOf
  rw [List.pairwise_flatMap]
  constructor
  · intro span _
    have hunique : (snapshotMembers rows span.first).Pairwise
        (fun a b => a.member ≠ b.member) :=
      List.pairwise_map.mp (unique_snapshotMembers rows span.first)
    rw [List.pairwise_map]
    apply hunique.imp
    intro a b hne heq
    exact hne (Prod.mk.inj heq).1
  · have hfirst : (cells previous (snapshotDates rows)).Pairwise
        (fun a b => a.first ≠ b.first) := by
      have hsorted := snapshotDates_sorted rows
      rw [← map_first_cells previous (snapshotDates rows)] at hsorted
      exact (List.pairwise_map.mp hsorted).imp ne_of_lt
    apply hfirst.imp
    intro a b hne interval hinterval other hother heq
    obtain ⟨row, -, rfl⟩ := List.mem_map.mp hinterval
    obtain ⟨row', -, rfl⟩ := List.mem_map.mp hother
    exact hne (Prod.mk.inj heq).2

end Intervals

/-! ## The snapshots are reproduced -/

theorem previousTradeDate_le_iff {calendar : List CalendarDay} {market : String} {date next : Day}
    (hlt : date < next) :
    date ≤ previousTradeDate calendar market next ↔
      ((∃ day, day ∈ openDays calendar market ∧ day < next ∧ next - day ≤ 14) →
        ∃ day, day ∈ openDays calendar market ∧ date ≤ day ∧ day < next) := by
  unfold previousTradeDate
  cases hmax : ((openDays calendar market).filter (· < next)).max? with
  | none =>
    rw [List.max?_eq_none_iff, List.filter_eq_nil_iff] at hmax
    constructor
    · intro _ hrecent
      obtain ⟨day, hopen, hday, -⟩ := hrecent
      exact absurd (by simpa using hday) (hmax day hopen)
    · intro _
      exact Int.le_sub_one_of_lt hlt
  | some candidate =>
    have hspec := List.max?_eq_some_iff.mp hmax
    have hcandidate := List.mem_filter.mp hspec.1
    have hbefore : candidate < next := by simpa using hcandidate.2
    show (date ≤ if next - candidate ≤ 14 then candidate else next - 1) ↔ _
    split_ifs with hrecent
    · constructor
      · intro hle _
        exact ⟨candidate, hcandidate.1, hle, hbefore⟩
      · intro htimely
        obtain ⟨day, hopen, hle, hday⟩ := htimely ⟨candidate, hcandidate.1, hbefore, hrecent⟩
        exact hle.trans (hspec.2 day (List.mem_filter.mpr ⟨hopen, by simpa using hday⟩))
    · constructor
      · intro _ hsome
        obtain ⟨day, hopen, hday, hgap⟩ := hsome
        have hle := hspec.2 day (List.mem_filter.mpr ⟨hopen, by simpa using hday⟩)
        exact absurd ((sub_le_sub_left hle next).trans hgap) hrecent
      · intro _
        exact Int.le_sub_one_of_lt hlt

variable {previous : Day → Day}

theorem buildSnapshotIntervals_ok {today : Day} {universeCode source batchId : String}
    {rows : List SnapshotRow} {built : SnapshotIntervals}
    (h : buildSnapshotIntervals previous today universeCode source batchId rows = .ok built) :
    built.intervals = intervalsOf previous universeCode source batchId rows := by
  unfold buildSnapshotIntervals at h
  cases hexpected : expectedMembers universeCode with
  | none =>
    rw [hexpected] at h
    cases h
  | some expected =>
    rw [hexpected] at h
    dsimp only at h
    split at h
    · cases h
    · split_ifs at h
      cases h
      rfl

theorem intervalsOf_members {isOpen : Day → Prop} (hprevious : Previous isOpen previous)
    (universeCode source batchId : String) (rows : List SnapshotRow) {day : Day}
    (hopen : isOpen day) {date : Day} (hlatest : Latest (snapshotDates rows) day date)
    (symbol : String) :
    (∃ interval ∈ intervalsOf previous universeCode source batchId rows,
      interval.symbol = symbol ∧ interval.span.Covers day) ↔ InSnapshot rows date symbol := by
  have hsorted := snapshotDates_sorted rows
  constructor
  · intro hcovered
    obtain ⟨interval, hinterval, rfl, hcovers⟩ := hcovered
    have hmem := mem_intervalsOf hinterval
    have hstart := (cells_covers_iff hprevious hsorted hopen hmem.1).mp hcovers
    rw [hlatest.unique hstart]
    exact hmem.2
  · intro hmember
    have hdate := hlatest.mem
    rw [← map_first_cells previous (snapshotDates rows)] at hdate
    obtain ⟨span, hspan, rfl⟩ := List.mem_map.mp hdate
    obtain ⟨interval, hinterval, hsymbol, hsame⟩ := exists_interval hspan hmember
    refine ⟨interval, hinterval, hsymbol, ?_⟩
    rw [hsame]
    exact (cells_covers_iff hprevious hsorted hopen hspan).mpr hlatest

theorem intervalsOf_once {isOpen : Day → Prop} (hprevious : Previous isOpen previous)
    (universeCode source batchId : String) (rows : List SnapshotRow) (day : Day) (symbol : String) :
    ((intervalsOf previous universeCode source batchId rows).filter (fun interval =>
      interval.symbol = symbol ∧ interval.span.Covers day)).length ≤ 1 := by
  have hpairs := (@pairwise_intervalsOf previous universeCode source batchId rows).filter
    (fun interval => interval.symbol = symbol ∧ interval.span.Covers day)
  cases hfound : (intervalsOf previous universeCode source batchId rows).filter (fun interval =>
      interval.symbol = symbol ∧ interval.span.Covers day) with
  | nil => exact Nat.zero_le 1
  | cons a rest =>
    cases rest with
    | nil => exact le_refl 1
    | cons b rest =>
      rw [hfound, List.pairwise_cons] at hpairs
      have ha : a ∈ (intervalsOf previous universeCode source batchId rows).filter (fun interval =>
          interval.symbol = symbol ∧ interval.span.Covers day) := by
        rw [hfound]
        exact List.mem_cons_self
      have hb : b ∈ (intervalsOf previous universeCode source batchId rows).filter (fun interval =>
          interval.symbol = symbol ∧ interval.span.Covers day) := by
        rw [hfound]
        exact List.mem_cons_of_mem _ List.mem_cons_self
      rw [List.mem_filter, decide_eq_true_eq] at ha hb
      have hstart := cells_disjoint hprevious (snapshotDates_sorted rows)
        (mem_intervalsOf ha.1).1 (mem_intervalsOf hb.1).1 ha.2.2 hb.2.2
      have hsame : (a.symbol, a.startDate) = (b.symbol, b.startDate) :=
        Prod.ext (ha.2.1.trans hb.2.1.symm) hstart
      exact absurd hsame (hpairs.1 b List.mem_cons_self)

theorem intervalsOf_ordered_iff (universeCode source batchId : String) (rows : List SnapshotRow) :
    (∀ interval ∈ intervalsOf previous universeCode source batchId rows, ∀ last,
        interval.endDate = some last → interval.startDate ≤ last) ↔
      ∀ date next, Adjacent (snapshotDates rows) date next → date ≤ previous next := by
  rw [← cells_ordered_iff (snapshotDates_sorted rows)]
  constructor
  · intro hordered span hspan last hlast
    have hdate : span.first ∈ snapshotDates rows := by
      rw [← map_first_cells previous (snapshotDates rows)]
      exact List.mem_map_of_mem hspan
    obtain ⟨symbol, hmember⟩ := mem_snapshotDates.mp hdate
    obtain ⟨interval, hinterval, -, hsame⟩ := exists_interval hspan hmember
    have hle := hordered interval hinterval last (by rw [← hlast, ← hsame]; rfl)
    rw [← hsame]
    exact hle
  · intro hordered interval hinterval last hlast
    exact hordered interval.span (mem_intervalsOf hinterval).1 last hlast

/-- The intervals give back the snapshots exactly when these are timely. -/
theorem snapshots_reproduced_iff {calendar : List CalendarDay} {today : Day}
    {universeCode source batchId : String} {rows : List SnapshotRow} {built : SnapshotIntervals}
    (h : buildSnapshotIntervals (previousTradeDate calendar "china") today universeCode source
      batchId rows = .ok built) :
    Reproduces (fun day => day ∈ openDays calendar "china") rows built.intervals ↔
      Timely (fun day => day ∈ openDays calendar "china") (snapshotDates rows) := by
  have hprevious := previousTradeDate_previous calendar "china"
  have htimely : Timely (fun day => day ∈ openDays calendar "china") (snapshotDates rows) ↔
      ∀ date next, Adjacent (snapshotDates rows) date next →
        date ≤ previousTradeDate calendar "china" next := by
    constructor
    · intro htimely date next hadjacent
      exact (previousTradeDate_le_iff hadjacent.lt).mpr (htimely date next hadjacent)
    · intro hle date next hadjacent
      exact (previousTradeDate_le_iff hadjacent.lt).mp (hle date next hadjacent)
  rw [buildSnapshotIntervals_ok h, htimely, ← intervalsOf_ordered_iff universeCode source batchId rows]
  constructor
  · intro hreproduces
    exact hreproduces.ordered
  · intro hordered
    refine ⟨?_, hordered, intervalsOf_once hprevious universeCode source batchId rows⟩
    intro day hopen hstarted
    obtain ⟨first, hfirst, hle⟩ := hstarted
    obtain ⟨date, hlatest⟩ := exists_latest hfirst hle
    exact ⟨date, hlatest,
      intervalsOf_members hprevious universeCode source batchId rows hopen hlatest⟩

/-! ## Sample snapshots -/

/-- The rows of a snapshot with fifty members, whose symbols are single characters. -/
def sampleSnapshot (date : Day) : List SnapshotRow :=
  (List.range 50).map (fun n =>
    { tradeDate := some date, symbol := some (String.ofList [Char.ofNat (33 + n)]), name := none, weight := some 2 })

theorem snapshots_reproduced_sample :
    ∃ built,
      buildSnapshotIntervals (previousTradeDate sampleCalendar "china") 40 "STAR50"
        "tushare:index_weight" "batch" (sampleSnapshot 3 ++ sampleSnapshot 12) = .ok built ∧
      (Reproduces (fun day => day ∈ openDays sampleCalendar "china")
          (sampleSnapshot 3 ++ sampleSnapshot 12) built.intervals ↔
        Timely (fun day => day ∈ openDays sampleCalendar "china")
          (snapshotDates (sampleSnapshot 3 ++ sampleSnapshot 12))) := by
  cases hbuilt : buildSnapshotIntervals (previousTradeDate sampleCalendar "china") 40 "STAR50"
      "tushare:index_weight" "batch" (sampleSnapshot 3 ++ sampleSnapshot 12) with
  | error message =>
    have hok : (buildSnapshotIntervals (previousTradeDate sampleCalendar "china") 40 "STAR50"
      "tushare:index_weight" "batch" (sampleSnapshot 3 ++ sampleSnapshot 12)).isOk = true := by
        decide +kernel
    rw [hbuilt] at hok
    cases hok
  | ok built => exact ⟨built, rfl, snapshots_reproduced_iff hbuilt⟩

def shortCalendar : List CalendarDay :=
  (List.range 6).map (fun day => { market := "china", tradeDate := day, isOpen := true })

theorem shortCalendar_inverts :
    (buildSnapshotIntervals (previousTradeDate shortCalendar "china") 40 "STAR50"
      "tushare:index_weight" "batch" (sampleSnapshot 7 ++ sampleSnapshot 12)).toOption.any
        (fun built => decide (∃ interval ∈ built.intervals,
          interval.startDate = 7 ∧ interval.endDate = some 5)) = true := by
  decide +kernel

theorem snapshots_inverted :
    ∃ built,
      buildSnapshotIntervals (previousTradeDate shortCalendar "china") 40 "STAR50"
        "tushare:index_weight" "batch" (sampleSnapshot 7 ++ sampleSnapshot 12) = .ok built ∧
      ¬ Reproduces (fun day => day ∈ openDays shortCalendar "china")
        (sampleSnapshot 7 ++ sampleSnapshot 12) built.intervals := by
  have hinverts := shortCalendar_inverts
  cases hbuilt : buildSnapshotIntervals (previousTradeDate shortCalendar "china") 40 "STAR50"
      "tushare:index_weight" "batch" (sampleSnapshot 7 ++ sampleSnapshot 12) with
  | error message =>
    rw [hbuilt] at hinverts
    cases hinverts
  | ok built =>
    rw [hbuilt] at hinverts
    obtain ⟨interval, hinterval, hstart, hend⟩ := of_decide_eq_true hinverts
    refine ⟨built, rfl, ?_⟩
    intro hreproduces
    have hle := hreproduces.ordered interval hinterval 5 hend
    rw [hstart] at hle
    exact absurd hle (by decide)

end LocalPlatform.Universe
