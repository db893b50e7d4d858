import LocalPlatform.Lib.DateTexts
import LocalPlatform.Lib.Machine
import LocalPlatform.Lib.Rows

/-!
# The start of an incremental synchronisation

`_incremental_replay_start_after` chooses the date after which an incremental synchronisation by
trade dates fetches again.  The bound of the catch-up window applies to the sessions after the
frontier too.

* `Due` says which sessions have to be fetched again: those after the frontier, the last ones, and
  those in the window that are not published.
* `Within` is the condition: no session after the frontier is older than the window; where the
  dataset has no directory, the window is after the frontier.
* An `IncrementalRun` fetches and publishes what the start gives, and `incremental_covers` follows
  any list of them.
* An entry of a directory that is not a directory has no data file.  The digits of a name are ASCII.
-/

namespace LocalPlatform.DataSync.Replay

open Dates DateTexts Decimals Tables
open Machines

/-! ## Published partitions -/

/-- An entry `trade_date=<compact>` of the directory of a dataset. -/
structure Partition where
  compact : List Char
  dataFile : Bool
  /-- The status of the manifest, if that can be read and is an object. -/
  status : Option String
  deriving DecidableEq

/-- The directory of a dataset, if there is one. -/
abbrev Root := Option (List Partition)

/-- The date that eight digits write. -/
def readCompact (compact : List Char) : Option Date :=
  if compact.length = 8 ∧ compact.all Char.isDigit then
    if h : IsDate (readNat (compact.take 4)) (readNat ((compact.drop 4).take 2))
        (readNat (compact.drop 6)) then
      some ⟨_, _, _, h⟩
    else none
  else none

/-- The partition has data, and its manifest tells that it is published. -/
def Partition.isPublished (partition : Partition) : Bool :=
  partition.dataFile &&
    partition.status.any (fun status => status.toLower = "success" || status.toLower = "empty")

/-- The date that a partition is published for. -/
def Partition.publishedDate (partition : Partition) : Option Date :=
  if partition.isPublished then readCompact partition.compact else none

def publishedDates (root : Root) : List Date :=
  (root.getD []).filterMap Partition.publishedDate

/-- `_latest_published_bronze_date` -/
def latestPublishedBronzeDate (root : Root) : Option Date := (publishedDates root).max?

/-- `_published_bronze_partition_exists` -/
def publishedBronzePartitionExists (root : Root) (tradeDate : Date) : Bool :=
  (find Partition.compact (root.getD []) (dateText tradeDate)).any Partition.isPublished

/-- `_incremental_start_after` -/
def incrementalStartAfter (root : Root) (persisted : Option Date) : Option Date :=
  (latestPublishedBronzeDate root).or persisted

/-! ## The calendar -/

/-- What is used of a row of `trade_calendar`. -/
structure CalendarRow where
  market : String
  tradeDate : Date
  isOpen : Bool

/-- The rows of `trade_calendar`, with their primary key. -/
structure TradeCalendar where
  rows : List CalendarRow
  keyed : Unique (fun row => (row.market, row.tradeDate)) rows

/-- The open sessions of the market up to a date, in order. -/
def TradeCalendar.sessions (calendar : TradeCalendar) (endDate : Date) : List Date :=
  orderBy id ((calendar.rows.filter (fun row =>
    row.market = "china" ∧ row.isOpen ∧ row.tradeDate ≤ endDate)).map CalendarRow.tradeDate)

def TradeCalendar.Open (calendar : TradeCalendar) (date : Date) : Prop :=
  ∃ row ∈ calendar.rows, row.market = "china" ∧ row.isOpen ∧ row.tradeDate = date

/-! ## The start -/

/-- The numbers in the environment. -/
structure Settings where
  lookback : ℤ
  catchup : ℤ

def Settings.lookbackDays (settings : Settings) : ℕ := (max 1 (min 20 settings.lookback)).toNat

def Settings.catchupDays (settings : Settings) : ℕ :=
  max settings.lookbackDays (min 250 settings.catchup).toNat

/-- The day before the first date. -/
inductive ReplayError where
  | overflow
  deriving DecidableEq

/-- The sessions of the window that are replayed. -/
def selected (settings : Settings) (root : Root) (frontier : Option Date)
    (openDates : List Date) : List Date :=
  openDates.filter (fun tradeDate =>
    tradeDate ∈ lastOf settings.lookbackDays openDates ||
      !publishedBronzePartitionExists root tradeDate || frontier.any (· < tradeDate))

def openDatesOf (settings : Settings) (calendar : TradeCalendar) (endDate : Date) : List Date :=
  orderBy id ((calendar.sessions endDate).reverse.take settings.catchupDays)

/-- `_incremental_replay_start_after` -/
def incrementalReplayStartAfter (settings : Settings) (calendar : TradeCalendar) (root : Root)
    (frontier : Option Date) (endDate : Date) : Except ReplayError (Option Date) :=
  if root.isNone then .ok frontier
  else
    let openDates := openDatesOf settings calendar endDate
    match (selected settings root frontier openDates).min? with
    | none => .ok frontier
    | some earliest =>
      match (openDates.filter (· < earliest)).getLast? with
      | some tradeDate => .ok (some tradeDate)
      | none =>
        match earliest.previous with
        | some day => .ok (some day)
        | none => .error .overflow

/-! ## What has to be fetched -/

/-- The date is fetched by a query with this start. -/
def After (start : Option Date) (date : Date) : Prop := ∀ first ∈ start, first < date

structure Due (settings : Settings) (calendar : TradeCalendar) (root : Root)
    (frontier : Option Date) (endDate date : Date) : Prop where
  session : date ∈ calendar.sessions endDate
  due : (∃ first ∈ frontier, first < date) ∨
    date ∈ lastOf settings.lookbackDays (calendar.sessions endDate) ∨
      date ∈ lastOf settings.catchupDays (calendar.sessions endDate) ∧
        publishedBronzePartitionExists root date = false

/-- The interval that the start gives has every session that is due. -/
def Covers (settings : Settings) (calendar : TradeCalendar) (root : Root)
    (frontier : Option Date) (endDate : Date) : Prop :=
  ∃ start, incrementalReplayStartAfter settings calendar root frontier endDate = .ok start ∧
    ∀ date, Due settings calendar root frontier endDate date → After start date

/-- No session after the frontier is older than the window. -/
def Recent (settings : Settings) (calendar : TradeCalendar) (frontier : Option Date)
    (endDate : Date) : Prop :=
  ∀ first ∈ frontier, ∀ date ∈ calendar.sessions endDate, first < date →
    date ∈ lastOf settings.catchupDays (calendar.sessions endDate)

/-- The condition. -/
def Within (settings : Settings) (calendar : TradeCalendar) (root : Root)
    (frontier : Option Date) (endDate : Date) : Prop :=
  if root.isNone then
    ∀ first ∈ frontier,
      ∀ date ∈ lastOf settings.catchupDays (calendar.sessions endDate), first < date
  else
    Recent settings calendar frontier endDate ∧
      ∀ date, Due settings calendar root frontier endDate date → date.previous.isSome

/-! ## One call -/

section Call

variable {settings : Settings} {calendar : TradeCalendar} {root : Root} {frontier : Option Date}
  {endDate : Date}

theorem lookbackDays_pos (settings : Settings) : 0 < settings.lookbackDays := by
  unfold Settings.lookbackDays
  omega

theorem lookbackDays_le (settings : Settings) : settings.lookbackDays ≤ settings.catchupDays :=
  le_max_left _ _

variable {date : Date}

theorem mem_sessions : date ∈ calendar.sessions endDate ↔ calendar.Open date ∧ date ≤ endDate := by
  unfold TradeCalendar.sessions TradeCalendar.Open
  rw [mem_orderBy, List.mem_map]
  constructor
  · rintro ⟨row, hrow, rfl⟩
    have hparts := of_decide_eq_true (List.mem_filter.mp hrow).2
    exact ⟨⟨row, (List.mem_filter.mp hrow).1, hparts.1, hparts.2.1, rfl⟩, hparts.2.2⟩
  · rintro ⟨⟨row, hrow, hmarket, hopen, rfl⟩, hend⟩
    exact ⟨row, List.mem_filter.mpr ⟨hrow, decide_eq_true ⟨hmarket, hopen, hend⟩⟩, rfl⟩

theorem sessions_sorted (calendar : TradeCalendar) (endDate : Date) :
    (calendar.sessions endDate).Pairwise (· < ·) := by
  refine orderBy_strict (?_ : Tables.Unique id _)
  unfold Tables.Unique
  rw [List.map_id]
  apply List.Nodup.map_on
  · intro row hrow other hother hdate
    have hmarket := (of_decide_eq_true (List.mem_filter.mp hrow).2).1
    have hmarket' := (of_decide_eq_true (List.mem_filter.mp hother).2).1
    apply calendar.keyed.eq (List.mem_filter.mp hrow).1 (List.mem_filter.mp hother).1
    show (row.market, row.tradeDate) = (other.market, other.tradeDate)
    rw [hmarket, hmarket', hdate]
  · exact List.Nodup.filter _ (List.Nodup.of_map _ calendar.keyed)

theorem openDatesOf_eq (settings : Settings) (calendar : TradeCalendar) (endDate : Date) :
    openDatesOf settings calendar endDate =
      lastOf settings.catchupDays (calendar.sessions endDate) :=
  orderBy_take_reverse (sessions_sorted calendar endDate) _

theorem openDatesOf_sorted (settings : Settings) (calendar : TradeCalendar) (endDate : Date) :
    (openDatesOf settings calendar endDate).Pairwise (· < ·) := by
  rw [openDatesOf_eq]
  exact (sessions_sorted calendar endDate).sublist (List.drop_sublist _ _)

theorem mem_sessions_of_openDates (h : date ∈ openDatesOf settings calendar endDate) :
    date ∈ calendar.sessions endDate := by
  rw [openDatesOf_eq] at h
  exact mem_of_lastOf h

theorem mem_selected_iff (h : date ∈ openDatesOf settings calendar endDate) :
    date ∈ selected settings root frontier (openDatesOf settings calendar endDate) ↔
      Due settings calendar root frontier endDate date := by
  have hlast : lastOf settings.lookbackDays (openDatesOf settings calendar endDate) =
      lastOf settings.lookbackDays (calendar.sessions endDate) := by
    rw [openDatesOf_eq]
    exact lastOf_lastOf (lookbackDays_le settings) _
  have hwindow : date ∈ lastOf settings.catchupDays (calendar.sessions endDate) := by
    rw [← openDatesOf_eq]
    exact h
  unfold selected
  rw [List.mem_filter, hlast]
  simp only [Bool.or_eq_true, decide_eq_true_eq, Bool.not_eq_true', Option.any_eq_true]
  constructor
  · rintro ⟨-, (hlook | hhole) | ⟨first, hfirst, hlt⟩⟩
    · exact ⟨mem_sessions_of_openDates h, .inr (.inl hlook)⟩
    · exact ⟨mem_sessions_of_openDates h, .inr (.inr ⟨hwindow, hhole⟩)⟩
    · exact ⟨mem_sessions_of_openDates h, .inl ⟨first, hfirst, hlt⟩⟩
  · rintro ⟨-, ⟨first, hfirst, hlt⟩ | hlook | ⟨-, hhole⟩⟩
    · exact ⟨h, .inr ⟨first, hfirst, hlt⟩⟩
    · exact ⟨h, .inl (.inl hlook)⟩
    · exact ⟨h, .inl (.inr hhole)⟩

theorem selected_ne_nil (hwindow : openDatesOf settings calendar endDate ≠ []) :
    selected settings root frontier (openDatesOf settings calendar endDate) ≠ [] := by
  obtain ⟨date, hdate⟩ := List.exists_mem_of_ne_nil _
    (lastOf_ne_nil (lookbackDays_pos settings) hwindow)
  apply List.ne_nil_of_mem (a := date)
  unfold selected
  rw [List.mem_filter]
  refine ⟨mem_of_lastOf hdate, ?_⟩
  simp [hdate]

theorem start_spec {earliest : Date} (hroot : root.isSome)
    (hmin : (selected settings root frontier (openDatesOf settings calendar endDate)).min? =
      some earliest) {start : Option Date}
    (hstart : incrementalReplayStartAfter settings calendar root frontier endDate = .ok start)
    (hdate : date ∈ calendar.sessions endDate) : After start date ↔ earliest ≤ date := by
  have hearliest : earliest ∈ openDatesOf settings calendar endDate :=
    List.mem_of_mem_filter (List.min?_eq_some_iff.mp hmin).1
  have hnone : ¬ root.isNone = true := by
    rw [Option.isNone_iff_eq_none]
    rintro rfl
    cases hroot
  unfold incrementalReplayStartAfter at hstart
  rw [if_neg hnone] at hstart
  dsimp only at hstart
  rw [hmin] at hstart
  dsimp only at hstart
  cases hlast : ((openDatesOf settings calendar endDate).filter (· < earliest)).getLast? with
  | none =>
    rw [hlast] at hstart
    dsimp only at hstart
    cases hprevious : earliest.previous with
    | none =>
      rw [hprevious] at hstart
      cases hstart
    | some day =>
      rw [hprevious] at hstart
      cases hstart
      rw [← Date.previous_lt_iff hprevious]
      simp [After]
  | some before =>
    rw [hlast] at hstart
    cases hstart
    have hordered : orderBy id ((openDatesOf settings calendar endDate).filter (· < earliest)) =
        (openDatesOf settings calendar endDate).filter (· < earliest) :=
      orderBy_of_sorted (((openDatesOf_sorted settings calendar endDate).filter _).imp le_of_lt)
    rw [← hordered] at hlast
    obtain ⟨hbefore, hgreatest⟩ := le_of_getLast?_orderBy hlast
    obtain ⟨hin, hlt⟩ := List.mem_filter.mp hbefore
    have hlt : before < earliest := of_decide_eq_true hlt
    have hafter : After (some before) date ↔ before < date := by simp [After]
    rw [hafter]
    constructor
    · intro hdateAfter
      by_contra hbelow
      by_cases hwindow : date ∈ openDatesOf settings calendar endDate
      · have hle := hgreatest date
          (List.mem_filter.mpr ⟨hwindow, decide_eq_true (not_le.mp hbelow)⟩)
        exact absurd hdateAfter (not_lt.mpr hle)
      · rw [openDatesOf_eq] at hwindow hin
        exact absurd hdateAfter
          (lt_of_not_lastOf (sessions_sorted calendar endDate) hdate hwindow hin).not_gt
    · exact fun hle => hlt.trans_le hle

theorem replay_overflow_iff {earliest : Date} (hroot : root.isSome)
    (hmin : (selected settings root frontier (openDatesOf settings calendar endDate)).min? =
      some earliest) :
    (∃ start, incrementalReplayStartAfter settings calendar root frontier endDate = .ok start) ↔
      earliest.previous.isSome := by
  have hnone : ¬ root.isNone = true := by
    rw [Option.isNone_iff_eq_none]
    rintro rfl
    cases hroot
  unfold incrementalReplayStartAfter
  rw [if_neg hnone]
  dsimp only
  rw [hmin]
  dsimp only
  cases hlast : ((openDatesOf settings calendar endDate).filter (· < earliest)).getLast? with
  | none =>
    cases hprevious : earliest.previous with
    | none => simp
    | some day => simp
  | some before =>
    have hlt : before < earliest := by
      have hmem := List.mem_filter.mp (List.mem_of_getLast? hlast)
      exact of_decide_eq_true hmem.2
    refine ⟨fun _ => ?_, fun _ => ⟨_, rfl⟩⟩
    by_contra hfirst
    have hle := Date.le_of_previous_none (Option.not_isSome_iff_eq_none.mp hfirst) before
    exact absurd hlt (not_lt.mpr hle)

theorem replay_of_none (settings : Settings) (calendar : TradeCalendar) (frontier : Option Date)
    (endDate : Date) :
    incrementalReplayStartAfter settings calendar none frontier endDate = .ok frontier := rfl

theorem covers_none_iff : Covers settings calendar none frontier endDate ↔
    Within settings calendar none frontier endDate := by
  unfold Covers Within
  rw [replay_of_none, if_pos (show (none : Root).isNone = true from rfl)]
  constructor
  · rintro ⟨start, hstart, hcovers⟩ first hfirst date hdate
    cases hstart
    exact hcovers date ⟨mem_of_lastOf hdate, .inr (.inr ⟨hdate, rfl⟩)⟩ first hfirst
  · intro hwithin
    refine ⟨frontier, rfl, fun date hdue first hfirst => ?_⟩
    rcases hdue.due with ⟨other, hother, hlt⟩ | hlook | ⟨hhole, -⟩
    · rw [Option.mem_def] at hother hfirst
      rw [hother] at hfirst
      cases hfirst
      exact hlt
    · apply hwithin first hfirst
      rw [← lastOf_lastOf (lookbackDays_le settings)] at hlook
      exact mem_of_lastOf hlook
    · exact hwithin first hfirst date hhole

theorem Due.in_window (hdue : Due settings calendar root frontier endDate date)
    (hrecent : Recent settings calendar frontier endDate) :
    date ∈ openDatesOf settings calendar endDate := by
  rw [openDatesOf_eq]
  rcases hdue.due with ⟨first, hfirst, hlt⟩ | hlook | ⟨hhole, -⟩
  · exact hrecent first hfirst date hdue.session hlt
  · rw [← lastOf_lastOf (lookbackDays_le settings)] at hlook
    exact mem_of_lastOf hlook
  · exact hhole

theorem covers_some_iff {partitions : List Partition} :
    Covers settings calendar (some partitions) frontier endDate ↔
      Within settings calendar (some partitions) frontier endDate := by
  have hsplit : Within settings calendar (some partitions) frontier endDate ↔
      Recent settings calendar frontier endDate ∧
        ∀ date, Due settings calendar (some partitions) frontier endDate date →
          date.previous.isSome := by
    unfold Within
    rw [if_neg (by simp)]
  rw [hsplit]
  cases hmin : (selected settings (some partitions) frontier
      (openDatesOf settings calendar endDate)).min? with
  | none =>
    -- There is no session up to the end.
    have hwindow : openDatesOf settings calendar endDate = [] := by
      by_contra hne
      exact selected_ne_nil hne (List.min?_eq_none_iff.mp hmin)
    have hsessions : ∀ date, date ∉ calendar.sessions endDate := by
      intro date hdate
      have hpos := (lookbackDays_pos settings).trans_le (lookbackDays_le settings)
      have hne := lastOf_ne_nil hpos (List.ne_nil_of_mem hdate)
      rw [← openDatesOf_eq] at hne
      exact hne hwindow
    have hnone : ¬ (some partitions).isNone = true := by simp
    refine ⟨fun _ => ⟨fun _ _ date hdate _ => absurd hdate (hsessions date),
      fun date hdue => absurd hdue.session (hsessions date)⟩, fun _ => ⟨frontier, ?_,
      fun date hdue => absurd hdue.session (hsessions date)⟩⟩
    unfold incrementalReplayStartAfter
    rw [if_neg hnone]
    dsimp only
    rw [hmin]
  | some earliest =>
    have hchosen := (List.min?_eq_some_iff.mp hmin).1
    have hleast := (List.min?_eq_some_iff.mp hmin).2
    have hearliest : earliest ∈ openDatesOf settings calendar endDate :=
      List.mem_of_mem_filter hchosen
    constructor
    · rintro ⟨start, hstart, hcovers⟩
      have hle : ∀ date, Due settings calendar (some partitions) frontier endDate date →
          earliest ≤ date := fun date hdue =>
        (start_spec rfl hmin hstart hdue.session).mp (hcovers date hdue)
      constructor
      · intro first hfirst date hdate hlt
        by_contra hold
        have hdue := hle date ⟨hdate, .inl ⟨first, hfirst, hlt⟩⟩
        rw [openDatesOf_eq] at hearliest
        exact absurd hdue (not_le.mpr
          (lt_of_not_lastOf (sessions_sorted calendar endDate) hdate hold hearliest))
      · intro date hdue
        have hsome := (replay_overflow_iff rfl hmin).mp ⟨start, hstart⟩
        by_contra hfirst
        have hsame : date = earliest := le_antisymm
          (Date.le_of_previous_none (Option.not_isSome_iff_eq_none.mp hfirst) earliest)
          (hle date hdue)
        rw [hsame] at hfirst
        exact hfirst hsome
    · rintro ⟨hrecent, hprevious⟩
      have hdue := (mem_selected_iff hearliest).mp hchosen
      obtain ⟨start, hstart⟩ := (replay_overflow_iff rfl hmin).mpr (hprevious earliest hdue)
      refine ⟨start, hstart, fun date hdate => ?_⟩
      apply (start_spec rfl hmin hstart hdate.session).mpr
      exact hleast date ((mem_selected_iff (hdate.in_window hrecent)).mpr hdate)

theorem covers_iff : Covers settings calendar root frontier endDate ↔
    Within settings calendar root frontier endDate := by
  cases root with
  | none => exact covers_none_iff
  | some partitions => exact covers_some_iff

theorem after_start (hrecent : root.isSome → Recent settings calendar frontier endDate)
    {start : Option Date}
    (hstart : incrementalReplayStartAfter settings calendar root frontier endDate = .ok start)
    (hdate : date ∈ calendar.sessions endDate) {first : Date} (hfirst : frontier = some first)
    (hafter : first < date) : After start date := by
  cases root with
  | none =>
    rw [replay_of_none] at hstart
    cases hstart
    intro other hother
    rw [hfirst] at hother
    cases hother
    exact hafter
  | some partitions =>
    have hdue : Due settings calendar (some partitions) frontier endDate date :=
      ⟨hdate, .inl ⟨first, hfirst, hafter⟩⟩
    have hwindow := hdue.in_window (hrecent rfl)
    cases hmin : (selected settings (some partitions) frontier
        (openDatesOf settings calendar endDate)).min? with
    | none =>
      exact absurd (List.min?_eq_none_iff.mp hmin)
        (selected_ne_nil (List.ne_nil_of_mem hwindow))
    | some earliest =>
      apply (start_spec rfl hmin hstart hdate).mpr
      exact (List.min?_eq_some_iff.mp hmin).2 date ((mem_selected_iff hwindow).mpr hdue)

end Call

/-! ## Incremental runs -/

/-- A run that succeeds. -/
structure IncrementalRun where
  endDate : Date
  /-- For a dataset that publishes partitions: the sessions that have no rows. -/
  empty : Option (Date → Bool)
  /-- The persisted date afterwards. -/
  persisted : Option Date

structure World where
  root : Root
  persisted : Option Date
  fetched : List Date

def World.frontier (s : World) : Option Date := incrementalStartAfter s.root s.persisted

/-- What `write_tushare_bronze_partition` leaves. -/
def writtenPartition (empty : Date → Bool) (tradeDate : Date) : Partition :=
  ⟨dateText tradeDate, true, some (if empty tradeDate then "empty" else "success")⟩

def publish (empty : Date → Bool) (partitions : List Partition) (tradeDate : Date) :
    List Partition :=
  upsert Partition.compact (fun _ written => written) partitions (writtenPartition empty tradeDate)

/-- The sessions that a run fetches. -/
def fetchedBy (settings : Settings) (calendar : TradeCalendar) (s : World)
    (run : IncrementalRun) : List Date :=
  match incrementalReplayStartAfter settings calendar s.root s.frontier run.endDate with
  | .ok start => (calendar.sessions run.endDate).filter (fun date => start.all (· < date))
  | .error _ => []

def publishAll (root : Root) (empty : Date → Bool) : List Date → Root
  | [] => root
  | date :: dates => some ((date :: dates).foldl (publish empty) (root.getD []))

def World.next (settings : Settings) (calendar : TradeCalendar) (s : World)
    (run : IncrementalRun) : World where
  root :=
    match run.empty with
    | none => s.root
    | some empty => publishAll s.root empty (fetchedBy settings calendar s run)
  persisted := run.persisted
  fetched := s.fetched ++ fetchedBy settings calendar s run

/-- The run does not raise, and the persisted date does not go beyond what was persisted or
fetched. -/
structure Succeeds (settings : Settings) (calendar : TradeCalendar) (s : World)
    (run : IncrementalRun) : Prop where
  start : ∃ start, incrementalReplayStartAfter settings calendar s.root s.frontier run.endDate =
    .ok start
  kept : s.persisted.isSome → run.persisted.isSome
  persisted : ∀ date ∈ run.persisted, (∃ old ∈ s.persisted, date ≤ old) ∨
    ∃ old ∈ s.fetched ++ fetchedBy settings calendar s run, date ≤ old

def runs (settings : Settings) (calendar : TradeCalendar) : Machine World IncrementalRun where
  allowed := Succeeds settings calendar
  next := World.next settings calendar

def Near (settings : Settings) (calendar : TradeCalendar) (s : World) (run : IncrementalRun) :
    Prop :=
  s.root.isSome → Recent settings calendar s.frontier run.endDate

section Runs

variable {settings : Settings} {calendar : TradeCalendar} {s : World} {first : Date}

theorem readCompact_dateText (date : Date) : readCompact (dateText date) = some date := by
  have hyears := date.valid.years.2
  have hmonths := date.valid.months.2
  have hdays := date.day_le
  have hyear : (zeroFilled 4 date.year).length = 4 := length_zeroFilled (by decide) (by omega)
  have hmonth : (zeroFilled 2 date.month).length = 2 := length_zeroFilled (by decide) (by omega)
  have hday : (zeroFilled 2 date.day).length = 2 := length_zeroFilled (by decide) (by omega)
  have htake : (dateText date).take 4 = zeroFilled 4 date.year := by
    unfold dateText
    rw [List.append_assoc, List.take_left' hyear]
  have hmiddle : ((dateText date).drop 4).take 2 = zeroFilled 2 date.month := by
    unfold dateText
    rw [List.append_assoc, List.drop_left' hyear, List.take_left' hmonth]
  have hrest : (dateText date).drop 6 = zeroFilled 2 date.day := by
    unfold dateText
    rw [List.drop_left' (by rw [List.length_append, hyear, hmonth])]
  have hlength : (dateText date).length = 8 := by
    unfold dateText
    rw [List.length_append, List.length_append, hyear, hmonth, hday]
  have hdigits : (dateText date).all Char.isDigit = true :=
    List.all_eq_true.mpr (fun _ => isDigit_dateText)
  unfold readCompact
  rw [if_pos ⟨hlength, hdigits⟩]
  simp only [htake, hmiddle, hrest, readNat_zeroFilled]
  rw [dif_pos date.valid]

theorem publishedDate_written (empty : Date → Bool) (date : Date) :
    (writtenPartition empty date).publishedDate = some date := by
  have hwords : ∀ bare : Bool, (some (if bare then "empty" else "success")).any
      (fun status => status.toLower = "success" || status.toLower = "empty") = true := by
    decide +kernel
  have hpublished : (writtenPartition empty date).isPublished = true := hwords (empty date)
  unfold Partition.publishedDate
  rw [if_pos hpublished]
  exact readCompact_dateText date

variable {empty : Date → Bool}

theorem mem_publish {partitions : List Partition} {date other : Date}
    (h : other ∈ (publish empty partitions date).filterMap Partition.publishedDate) :
    other ∈ partitions.filterMap Partition.publishedDate ∨ other = date := by
  obtain ⟨partition, hmem, hdate⟩ := List.mem_filterMap.mp h
  have hwritten : partition = writtenPartition empty date → other = date := by
    rintro rfl
    rw [publishedDate_written] at hdate
    cases hdate
    rfl
  rcases mem_upsert hmem with hold | hnew | ⟨_, _, hnew⟩
  · exact .inl (List.mem_filterMap.mpr ⟨partition, hold, hdate⟩)
  · exact .inr (hwritten hnew)
  · exact .inr (hwritten hnew)

variable {dates : List Date}

theorem mem_foldl_publish {other : Date} :
    ∀ {partitions : List Partition},
      other ∈ (dates.foldl (publish empty) partitions).filterMap Partition.publishedDate →
        other ∈ partitions.filterMap Partition.publishedDate ∨ other ∈ dates := by
  induction dates with
  | nil => exact fun h => .inl h
  | cons date dates ih =>
    intro partitions h
    rcases ih h with hpublished | hlater
    · rcases mem_publish hpublished with hold | rfl
      · exact .inl hold
      · exact .inr List.mem_cons_self
    · exact .inr (List.mem_cons_of_mem _ hlater)

theorem mem_publishAll {root : Root} {other : Date}
    (h : other ∈ publishedDates (publishAll root empty dates)) :
    other ∈ publishedDates root ∨ other ∈ dates := by
  cases dates with
  | nil => exact .inl h
  | cons date dates => exact mem_foldl_publish h

theorem foldl_publish_ne_nil :
    ∀ {partitions : List Partition}, partitions.filterMap Partition.publishedDate ≠ [] →
      (dates.foldl (publish empty) partitions).filterMap Partition.publishedDate ≠ [] := by
  induction dates with
  | nil => exact fun h => h
  | cons date dates ih =>
    intro partitions _
    apply ih
    have hfind := find_upsert_replace Partition.compact partitions (writtenPartition empty date)
      (dateText date)
    rw [if_pos (show dateText date = (writtenPartition empty date).compact from rfl)] at hfind
    exact List.ne_nil_of_mem (List.mem_filterMap.mpr
      ⟨_, mem_of_find hfind, publishedDate_written empty date⟩)

theorem publishAll_ne_nil {root : Root} (h : publishedDates root ≠ []) :
    publishedDates (publishAll root empty dates) ≠ [] := by
  cases dates with
  | nil => exact h
  | cons date dates => exact foldl_publish_ne_nil h

variable {run : IncrementalRun}

theorem mem_fetchedBy {date : Date} (hopen : calendar.Open date) (hend : date ≤ run.endDate)
    (hsucceeds : Succeeds settings calendar s run) (hnear : Near settings calendar s run)
    {frontier : Date} (hfrontier : s.frontier = some frontier) (hafter : frontier < date) :
    date ∈ fetchedBy settings calendar s run := by
  obtain ⟨start, hstart⟩ := hsucceeds.start
  have hsession := mem_sessions.mpr ⟨hopen, hend⟩
  have hlater := after_start hnear hstart hsession hfrontier hafter
  unfold fetchedBy
  rw [hstart]
  refine List.mem_filter.mpr ⟨hsession, ?_⟩
  rw [Option.all_eq_true]
  exact fun value hvalue => decide_eq_true (hlater value hvalue)

/-- What was fetched has no gap after the first frontier, and the frontier is not beyond it. -/
structure Followed (calendar : TradeCalendar) (first : Date) (s : World) : Prop where
  contiguous : ∀ date ∈ s.fetched, ∀ earlier, calendar.Open earlier → first < earlier →
    earlier ≤ date → earlier ∈ s.fetched
  published : ∀ date ∈ publishedDates s.root, date ≤ first ∨ date ∈ s.fetched
  known : publishedDates s.root ≠ [] ∨ s.persisted.isSome ∧
    ∀ date ∈ s.persisted, date ≤ first ∨ ∃ later ∈ s.fetched, date ≤ later

theorem Followed.frontier (h : Followed calendar first s) :
    ∃ frontier, s.frontier = some frontier ∧
      (frontier ≤ first ∨ ∃ later ∈ s.fetched, frontier ≤ later) := by
  unfold World.frontier incrementalStartAfter latestPublishedBronzeDate
  cases hmax : (publishedDates s.root).max? with
  | some latest =>
    refine ⟨latest, rfl, (h.published latest (List.max?_eq_some_iff.mp hmax).1).imp_right ?_⟩
    exact fun hfetched => ⟨latest, hfetched, le_rfl⟩
  | none =>
    obtain ⟨hsome, hbound⟩ := h.known.resolve_left
      (fun hne => hne (List.max?_eq_none_iff.mp hmax))
    obtain ⟨persisted, hpersisted⟩ := Option.isSome_iff_exists.mp hsome
    exact ⟨persisted, hpersisted, hbound persisted hpersisted⟩

theorem Followed.reaches (h : Followed calendar first s)
    (hsucceeds : Succeeds settings calendar s run) (hnear : Near settings calendar s run)
    {date : Date} (hopen : calendar.Open date) (hafter : first < date) (hend : date ≤ run.endDate) :
    date ∈ (s.next settings calendar run).fetched := by
  obtain ⟨frontier, hfrontier, hbound⟩ := h.frontier
  by_cases hnew : frontier < date
  · exact List.mem_append_right _ (mem_fetchedBy hopen hend hsucceeds hnear hfrontier hnew)
  · have hold : date ≤ frontier := not_lt.mp hnew
    rcases hbound with hfirst | ⟨later, hlater, hle⟩
    · exact absurd hafter (not_lt.mpr (hold.trans hfirst))
    · exact List.mem_append_left _
        (h.contiguous later hlater date hopen hafter (hold.trans hle))

theorem Followed.next (h : Followed calendar first s) (hsucceeds : Succeeds settings calendar s run)
    (hnear : Near settings calendar s run) :
    Followed calendar first (s.next settings calendar run) := by
  constructor
  · intro date hdate earlier hopen hafter hle
    rcases List.mem_append.mp hdate with hold | hnew
    · exact List.mem_append_left _ (h.contiguous date hold earlier hopen hafter hle)
    · apply h.reaches hsucceeds hnear hopen hafter
      have hend : date ≤ run.endDate := by
        obtain ⟨start, hstart⟩ := hsucceeds.start
        unfold fetchedBy at hnew
        rw [hstart] at hnew
        exact (mem_sessions.mp (List.mem_of_mem_filter hnew)).2
      exact hle.trans hend
  · intro date hdate
    unfold World.next at hdate ⊢
    dsimp only at hdate ⊢
    cases hempty : run.empty with
    | none =>
      rw [hempty] at hdate
      exact (h.published date hdate).imp_right (List.mem_append_left _)
    | some empty =>
      rw [hempty] at hdate
      rcases mem_publishAll hdate with hold | hnew
      · exact (h.published date hold).imp_right (List.mem_append_left _)
      · exact .inr (List.mem_append_right _ hnew)
  · rcases h.known with hpublished | ⟨hsome, hbound⟩
    · left
      unfold World.next
      dsimp only
      cases hempty : run.empty with
      | none => exact hpublished
      | some empty => exact publishAll_ne_nil hpublished
    · right
      refine ⟨hsucceeds.kept hsome, fun date hdate => ?_⟩
      rcases hsucceeds.persisted date hdate with ⟨old, hold, hle⟩ | hfetched
      · rcases hbound old hold with hfirst | ⟨later, hlater, hle'⟩
        · exact .inl (hle.trans hfirst)
        · exact .inr ⟨later, List.mem_append_left _ hlater, hle.trans hle'⟩
      · exact .inr hfetched

theorem followed_of_first (hfirst : s.frontier = some first) (hfetched : s.fetched = []) :
    Followed calendar first s := by
  have hnone : ∀ date, date ∉ s.fetched := by
    rw [hfetched]
    exact fun _ => List.not_mem_nil
  refine ⟨fun date hdate => absurd hdate (hnone date), ?_, ?_⟩
  · intro date hdate
    left
    unfold World.frontier incrementalStartAfter latestPublishedBronzeDate at hfirst
    cases hmax : (publishedDates s.root).max? with
    | none =>
      rw [List.max?_eq_none_iff.mp hmax] at hdate
      exact absurd hdate List.not_mem_nil
    | some latest =>
      rw [hmax] at hfirst
      cases hfirst
      exact (List.max?_eq_some_iff.mp hmax).2 date hdate
  · unfold World.frontier incrementalStartAfter latestPublishedBronzeDate at hfirst
    cases hmax : (publishedDates s.root).max? with
    | some latest => exact .inl (List.ne_nil_of_mem (List.max?_eq_some_iff.mp hmax).1)
    | none =>
      rw [hmax, Option.none_or] at hfirst
      rw [hfirst]
      refine .inr ⟨rfl, fun date hdate => ?_⟩
      cases hdate
      exact .inl le_rfl

/-- A call covers what is due, or a session is too old for the window; runs that stay near leave no
session out. -/
theorem incremental_covers (settings : Settings) (calendar : TradeCalendar) :
    (∀ root frontier endDate, Covers settings calendar root frontier endDate ↔
      Within settings calendar root frontier endDate) ∧
    ∀ (s : World) (first : Date), s.frontier = some first → s.fetched = [] →
      ∀ before run, ((runs settings calendar).restrict (Near settings calendar)).Accepts s
          (before ++ [run]) →
        ∀ date, calendar.Open date → first < date → date ≤ run.endDate →
          date ∈ ((runs settings calendar).after s (before ++ [run])).fetched := by
  refine ⟨fun _ _ _ => covers_iff, ?_⟩
  intro s first hfirst hfetched before run haccepts date hopen hafter hend
  have hparts := (Machine.accepts_append before s [run]).mp haccepts
  have hbefore : Followed calendar first ((runs settings calendar).after s before) := by
    have hstep : ∀ (t : World) run, Followed calendar first t →
        ((runs settings calendar).restrict (Near settings calendar)).allowed t run →
          Followed calendar first (t.next settings calendar run) :=
      fun _ _ ht hrun => ht.next hrun.1 hrun.2
    exact Machine.invariant hstep before s (followed_of_first hfirst hfetched) hparts.1
  rw [Machine.after_append]
  exact hbefore.reaches hparts.2.1.1 hparts.2.1.2 hopen hafter hend

end Runs

/-! ## A long outage -/

instance (settings : Settings) (calendar : TradeCalendar) (frontier : Option Date)
    (endDate : Date) : Decidable (Recent settings calendar frontier endDate) :=
  inferInstanceAs (Decidable (∀ first ∈ frontier, ∀ date ∈ calendar.sessions endDate,
    first < date → date ∈ lastOf settings.catchupDays (calendar.sessions endDate)))

instance (settings : Settings) (calendar : TradeCalendar) (s : World) (run : IncrementalRun) :
    Decidable (Near settings calendar s run) :=
  inferInstanceAs (Decidable (s.root.isSome → Recent settings calendar s.frontier run.endDate))

def july (day : ℕ) : Date :=
  if h : IsDate 2026 7 day then ⟨_, _, _, h⟩ else ⟨2026, 7, 1, by decide⟩

def sampleSettings : Settings := ⟨2, 10⟩

def sampleCalendar : TradeCalendar where
  rows := (List.range 12).map (fun index => ⟨"china", july (index + 1), true⟩)
  keyed := by decide +kernel

def sampleWorld : World where
  root := some [writtenPartition (fun _ => false) (july 1)]
  persisted := none
  fetched := []

def runUntil (endDate : Date) : IncrementalRun := ⟨endDate, some (fun _ => false), none⟩

theorem runUntil_succeeds {s : World} {endDate : Date} (hpersisted : s.persisted = none)
    (hstart : ∃ start, incrementalReplayStartAfter sampleSettings sampleCalendar s.root s.frontier
      endDate = .ok start) : Succeeds sampleSettings sampleCalendar s (runUntil endDate) := by
  refine ⟨hstart, fun hsome => ?_, fun date hdate => ?_⟩
  · rw [hpersisted] at hsome
    cases hsome
  · cases hdate

/-- Two runs, with a few sessions between them. -/
theorem sampleRuns_covered :
    Covers sampleSettings sampleCalendar sampleWorld.root sampleWorld.frontier (july 8) ∧
      ∀ date, sampleCalendar.Open date → july 1 < date → date ≤ july 12 →
        date ∈ ((runs sampleSettings sampleCalendar).after sampleWorld
          ([runUntil (july 8)] ++ [runUntil (july 12)])).fetched := by
  constructor
  · apply ((incremental_covers sampleSettings sampleCalendar).1 _ _ _).mpr
    unfold Within
    rw [if_neg (by decide)]
    refine ⟨by decide +kernel, fun date hdue => ?_⟩
    have hall : ∀ date ∈ sampleCalendar.sessions (july 8), date.previous.isSome := by
      decide +kernel
    exact hall date hdue.session
  · refine (incremental_covers sampleSettings sampleCalendar).2 sampleWorld (july 1)
      (by decide +kernel) rfl [runUntil (july 8)] (runUntil (july 12)) ?_
    refine ⟨⟨runUntil_succeeds rfl ⟨some (july 1), ?_⟩, ?_⟩,
      ⟨runUntil_succeeds rfl ⟨some (july 8), ?_⟩, ?_⟩, trivial⟩
    · decide +kernel
    · decide +kernel
    · decide +kernel
    · decide +kernel

/-- The second session is older than the window when the next run comes. -/
theorem outage_missed :
    ¬ Covers sampleSettings sampleCalendar sampleWorld.root sampleWorld.frontier (july 12) ∧
      sampleWorld.frontier = some (july 1) ∧
      july 2 ∉ (sampleWorld.next sampleSettings sampleCalendar (runUntil (july 12))).fetched := by
  refine ⟨?_, by decide +kernel, by decide +kernel⟩
  rintro ⟨start, hstart, hcovers⟩
  have hresult : incrementalReplayStartAfter sampleSettings sampleCalendar sampleWorld.root
      sampleWorld.frontier (july 12) = .ok (some (july 2)) := by
    decide +kernel
  rw [hresult] at hstart
  cases hstart
  have hdue : Due sampleSettings sampleCalendar sampleWorld.root sampleWorld.frontier (july 12)
      (july 2) :=
    ⟨by decide +kernel, .inl ⟨july 1, by decide +kernel, by decide +kernel⟩⟩
  exact absurd (hcovers _ hdue _ rfl) (by decide +kernel)

end LocalPlatform.DataSync.Replay
