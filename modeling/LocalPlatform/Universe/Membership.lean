import LocalPlatform.Lib.Transaction
import LocalPlatform.Lib.Rows
import LocalPlatform.Universe.Symbols
import Mathlib.Data.Prod.Lex

/-!
# Index membership: the schedule and the point-in-time query

`import_index_members` fills `universe_membership`, and two readers answer who is a
member at a day.

* `membershipSchedule` clips the rows of a universe to the window of a backtest.
* `universeAsOf` selects the rows at one day and joins them with `securities`.

The two agree on a row that the importer admits (`Admitted`) once the row has started and
its security is listed.  The schedule reads `start_date` against the end of the window
only, and does not read `securities`: `schedule_agrees` says when the two have the same
symbols.

The writes to `instruments` and to the coverage tables are left out, since neither reader
reads them.
-/

namespace LocalPlatform.Universe

open Paper Tables
open Transaction Transaction.TxM

/-! ## Tables -/

/-- A row of `securities`. -/
structure Security where
  symbol : String
  name : String
  exchange : String
  listedDate : String
  delistedDate : Option String
  status : String
  isSt : Bool
  industry : Option String
  deriving DecidableEq

/-- A row of `universe_membership`. -/
structure UniverseMembership where
  universeCode : String
  symbol : String
  startDate : String
  endDate : Option String
  announceDate : Option String
  effectiveDate : Option String
  weight : Option ℚ
  source : String
  batchId : Option String
  deriving DecidableEq

/-- The primary key of `universe_membership`. -/
def UniverseMembership.key (row : UniverseMembership) : String × String × String :=
  (row.universeCode, row.symbol, row.startDate)

structure UniverseDb where
  securities : List Security
  memberships : List UniverseMembership
  deriving DecidableEq

/-! ## The importer -/

/-- A record of `import_index_members`.  Each field is read under its snake-case name and
then under its camel-case one. -/
structure IndexMember where
  universeCode : String
  symbol : String
  name : Option String
  startDate : RawDate IsoDate
  endDate : RawDate IsoDate
  announceDate : RawDate IsoDate
  effectiveDate : RawDate IsoDate
  listedDate : Option String
  industry : Option String
  weight : ParamValue
  source : Option String

/-- `_clean_symbol` of the importer. -/
def cleanSymbol (symbol : String) : Except String String := do
  return upper (← normalizeSymbol symbol)

/-- `_field_number` -/
def fieldNumber (value : ParamValue) : Option ℚ :=
  if value.isBlank then none else value.float.toOption

/-- `infer_exchange` -/
def inferExchange (symbol : String) : String :=
  if startsWithAny ["6", "9"] (strip symbol) then "SSE"
  else if startsWithAny ["4", "8"] (strip symbol) then "BSE"
  else "SZSE"

/-- The `on conflict` clause of `upsert_security`. -/
def Security.merge (old excluded : Security) : Security where
  symbol := old.symbol
  name := if excluded.name = excluded.symbol ∧ old.name ≠ old.symbol then old.name
    else excluded.name
  exchange := excluded.exchange
  listedDate := if old.listedDate ≤ excluded.listedDate then old.listedDate
    else excluded.listedDate
  delistedDate := excluded.delistedDate.orElse (fun _ => old.delistedDate)
  status := if excluded.delistedDate = none ∧ old.delistedDate ≠ none then old.status
    else excluded.status
  isSt := excluded.isSt
  industry := excluded.industry.orElse (fun _ => old.industry)

/-- The statement of `upsert_security`. -/
def UniverseDb.putSecurity (db : UniverseDb) (security : Security) : UniverseDb :=
  { db with securities := upsert Security.symbol Security.merge db.securities security }

/-- The row that `upsert_universe_membership` stores. -/
def UniverseMembership.stored (row : UniverseMembership) : UniverseMembership :=
  { row with effectiveDate := some (firstText [row.effectiveDate, some row.startDate]) }

/-- The statement of `upsert_universe_membership`. -/
def UniverseDb.putMembership (db : UniverseDb) (row : UniverseMembership) : UniverseDb :=
  { db with
    memberships := upsert UniverseMembership.key (fun _ excluded => excluded) db.memberships
      row.stored }

/-- `upsert_security` -/
def upsertSecurity (security : Security) : TxM UniverseDb String Unit :=
  TxM.tx (fun db => .ok ((), db.putSecurity security))

/-- `upsert_universe_membership` -/
def upsertUniverseMembership (row : UniverseMembership) : TxM UniverseDb String Unit :=
  TxM.tx (fun db => .ok ((), db.putMembership row))

/-- One turn of the loop of `import_index_members`. -/
def importIndexMember (batchId source : String) (record : IndexMember) :
    TxM UniverseDb String Unit := do
  let symbol ← TxM.read (fun _ => cleanSymbol record.symbol)
  let startDate ← TxM.read (fun _ => requiredDate "start_date" record.startDate)
  let announceDate ← TxM.read (fun _ => parseDate record.announceDate)
  let effective ← TxM.read (fun _ => parseDate record.effectiveDate)
  let effectiveDate := (effective.getD startDate).text
  if announceDate.any (fun announce => effectiveDate < announce.text) then
    TxM.fail "Index member effective_date cannot be earlier than announce_date."
  else
    upsertSecurity
      { symbol := symbol
        name := firstText [record.name, some symbol]
        exchange := inferExchange symbol
        listedDate := firstText [record.listedDate, some startDate.text]
        delistedDate := none
        status := "listed"
        isSt := false
        industry := record.industry }
    -- the security is committed before the end date is read
    let endDate ← TxM.read (fun _ => parseDate record.endDate)
    upsertUniverseMembership
      { universeCode := record.universeCode
        symbol := symbol
        startDate := startDate.text
        endDate := endDate.map IsoDate.text
        announceDate := announceDate.map IsoDate.text
        effectiveDate := some effectiveDate
        weight := fieldNumber record.weight
        source := firstText [record.source, some source]
        batchId := some batchId }

/-- `import_index_members` -/
def importIndexMembers (batchId source : String) (records : List IndexMember) :
    TxM UniverseDb String Nat := do
  let imported ← TxM.forEach (importIndexMember batchId source) records
  return imported.length

/-! ## The two readers -/

/-- An entry of the membership schedule. -/
structure MembershipEntry where
  symbol : String
  startDate : String
  endDate : Option String
  weight : Option ℚ
  deriving DecidableEq

/-- `effective_date or start_date` -/
def UniverseMembership.effective (row : UniverseMembership) : String :=
  firstText [row.effectiveDate, some row.startDate]

/-- The `where` clause of `_membership_schedule`. -/
def UniverseMembership.inWindow (code start stop : String) (row : UniverseMembership) : Bool :=
  row.universeCode == code && decide (row.startDate ≤ stop) &&
    row.endDate.all (fun last => start ≤ last) &&
    row.announceDate.all (fun announce => announce ≤ row.effectiveDate.getD row.startDate)

/-- The entry of a row, clipped to the window. -/
def UniverseMembership.entry (start stop : String) (row : UniverseMembership) : MembershipEntry where
  symbol := upper row.symbol
  startDate := max row.effective start
  endDate := row.endDate.bind (fun last => if last = "" then none else some (min last stop))
  weight := row.weight

/-- `_membership_schedule` -/
def membershipSchedule (db : UniverseDb) (code start stop : String) : List MembershipEntry :=
  let rows := orderBy (fun row => toLex (row.startDate, row.symbol))
    (db.memberships.filter (UniverseMembership.inWindow code start stop))
  (rows.filter (fun row => decide (row.effective ≤ stop))).map
    (UniverseMembership.entry start stop)

/-- A row of the point-in-time query. -/
structure UniverseItem where
  membership : UniverseMembership
  security : Security
  deriving DecidableEq

/-- The conditions of `universe_as_of` on the membership. -/
def UniverseMembership.visibleAt (code day : String) (row : UniverseMembership) : Bool :=
  row.universeCode == code && decide (row.startDate ≤ day) &&
    row.endDate.all (fun last => day ≤ last) && row.announceDate.all (fun date => date ≤ day) &&
    row.effectiveDate.all (fun date => date ≤ day)

/-- The conditions of `universe_as_of` on the security. -/
def Security.listedAt (day : String) (security : Security) : Bool :=
  decide (security.listedDate ≤ day) && security.delistedDate.all (fun date => day < date)

/-- `universe_as_of` -/
def universeAsOf (db : UniverseDb) (code day : String) : List UniverseItem :=
  orderBy (fun item => item.membership.symbol)
    ((db.memberships.filter (UniverseMembership.visibleAt code day)).filterMap (fun row =>
      ((find Security.symbol db.securities row.symbol).filter (Security.listedAt day)).map
        (fun security => { membership := row, security := security })))

/-- The symbols of the entries of a schedule that cover a day. -/
def scheduledSymbols (entries : List MembershipEntry) (day : String) : List String :=
  (entries.filter (fun entry =>
    decide (entry.startDate ≤ day) && entry.endDate.all (fun last => day ≤ last))).map
      MembershipEntry.symbol

def universeSymbols (items : List UniverseItem) : List String :=
  items.map (fun item => item.membership.symbol)

/-! ## What the importer admits -/

/-- The rows that `import_index_members` writes. -/
structure Admitted (row : UniverseMembership) : Prop where
  symbol : upper row.symbol = row.symbol
  effective : ∃ effective, row.effectiveDate = some effective ∧ effective ≠ "" ∧
    ∀ announce, row.announceDate = some announce → announce ≤ effective
  endDate : row.endDate ≠ some ""

/-- Every membership of the table is one that the importer admits. -/
def AllAdmitted (db : UniverseDb) : Prop := ∀ row ∈ db.memberships, Admitted row

theorem cleanSymbol_upper {text symbol : String} (h : cleanSymbol text = .ok symbol) :
    upper symbol = symbol := by
  unfold cleanSymbol at h
  cases hnormal : normalizeSymbol text with
  | error message =>
    rw [hnormal] at h
    simp [Bind.bind, Except.bind] at h
  | ok normal =>
    rw [hnormal] at h
    have hsymbol : upper normal = symbol := by
      simpa [Bind.bind, Except.bind, Pure.pure, Except.pure] using h
    rw [← hsymbol, upper_upper]

variable {db : UniverseDb} {row : UniverseMembership}

theorem AllAdmitted.putMembership (h : AllAdmitted db) (hrow : Admitted row.stored) :
    AllAdmitted (db.putMembership row) := by
  intro other hother
  have hmem : other ∈ upsert UniverseMembership.key (fun _ excluded => excluded) db.memberships
      row.stored := hother
  cases mem_upsert hmem with
  | inl hold => exact h other hold
  | inr hnew =>
    cases hnew with
    | inl hnew => exact hnew ▸ hrow
    | inr hnew =>
      obtain ⟨old, -, hnew⟩ := hnew
      exact hnew ▸ hrow

theorem wp_write_admitted {write : UniverseDb → UniverseDb} (h : AllAdmitted db)
    (hwrite : AllAdmitted (write db)) :
    wp AllAdmitted (TxM.tx (fun db => Except.ok ((), write db)) : TxM UniverseDb String Unit)
      (fun _ t => AllAdmitted t) db := by
  apply wp_tx
  · intro a t ht
    simp only [Except.ok.injEq, Prod.mk.injEq, true_and] at ht
    exact ⟨ht ▸ hwrite, ht ▸ hwrite⟩
  · intro message hmessage
    exact h

theorem importIndexMember_admitted (batchId source : String) (record : IndexMember)
    (h : AllAdmitted db) :
    wp AllAdmitted (importIndexMember batchId source record) (fun _ t => AllAdmitted t) db := by
  unfold importIndexMember
  apply wp_bind
  apply wp_read
  cases hsymbol : cleanSymbol record.symbol with
  | error message => exact h
  | ok symbol =>
  apply wp_bind
  apply wp_read
  cases hstart : requiredDate "start_date" record.startDate with
  | error message => exact h
  | ok startDate =>
  apply wp_bind
  apply wp_read
  cases hannounce : parseDate record.announceDate with
  | error message => exact h
  | ok announceDate =>
  apply wp_bind
  apply wp_read
  cases heffective : parseDate record.effectiveDate with
  | error message => exact h
  | ok effective =>
  dsimp only
  by_cases hearly : announceDate.any
      (fun announce => (effective.getD startDate).text < announce.text) = true
  · rw [if_pos hearly]
    exact wp_fail h
  · rw [if_neg hearly]
    apply wp_bind
    refine wp_mono (wp_write_admitted h h) (fun _ h => h) ?_
    intro result t ht
    cases result with
    | error message => exact ht
    | ok a =>
    apply wp_bind
    apply wp_read
    cases hend : parseDate record.endDate with
    | error message => exact ht
    | ok endDate =>
    refine wp_write_admitted ht (ht.putMembership ?_)
    have heffective_ne : (effective.getD startDate).text ≠ "" := IsoDate.text_ne_empty _
    exact
      { symbol := cleanSymbol_upper hsymbol
        effective := by
          refine ⟨(effective.getD startDate).text, ?_, heffective_ne, ?_⟩
          · simp [UniverseMembership.stored, firstText, heffective_ne]
          · intro announce hsome
            cases announceDate with
            | none => cases hsome
            | some date =>
              injection hsome with hsome
              rw [← hsome]
              apply not_lt.mp
              intro hlt
              exact hearly (by rw [Option.any_some]; exact decide_eq_true hlt)
        endDate := by
          cases endDate with
          | none => simp [UniverseMembership.stored]
          | some date => simpa [UniverseMembership.stored] using date.text_ne_empty }

theorem importIndexMembers_admitted (batchId source : String) (records : List IndexMember)
    (h : AllAdmitted db) :
    wp AllAdmitted (importIndexMembers batchId source records) (fun _ t => AllAdmitted t) db := by
  unfold importIndexMembers
  apply wp_bind
  have hloop := wp_forEach_keep AllAdmitted
    (fun record t ht => importIndexMember_admitted batchId source record ht) records db h
  refine wp_mono hloop (fun _ h => h) ?_
  intro result t ht
  cases result with
  | error message => exact ht
  | ok imported => exact wp_pure ht

/-! ## When the readers agree -/

/-- A membership has taken effect and has not ended. -/
def UniverseMembership.inForce (day : String) (row : UniverseMembership) : Bool :=
  row.effectiveDate.all (fun effective => effective ≤ day) &&
    row.endDate.all (fun last => day ≤ last)

/-- Each membership that is in force at the day, and that starts before the window ends, is of a
security listed at the day, and a membership of that symbol in force has started by the day. -/
def StartedAndListed (db : UniverseDb) (code stop day : String) : Prop :=
  ∀ row ∈ db.memberships, row.universeCode = code → row.startDate ≤ stop →
    row.inForce day = true →
      (find Security.symbol db.securities row.symbol).any (Security.listedAt day) = true ∧
        ∃ other ∈ db.memberships, other.universeCode = code ∧ other.symbol = row.symbol ∧
          other.startDate ≤ day ∧ other.inForce day = true

theorem Admitted.effective_eq (h : Admitted row) :
    row.effectiveDate = some row.effective ∧
      ∀ announce, row.announceDate = some announce → announce ≤ row.effective := by
  obtain ⟨effective, hsome, hne, hannounce⟩ := h.effective
  have hvalue : row.effective = effective := by
    rw [UniverseMembership.effective, hsome, firstText, if_neg hne]
  rw [hvalue]
  exact ⟨hsome, hannounce⟩

theorem Admitted.inForce_iff (h : Admitted row) {day : String} :
    row.inForce day = true ↔
      row.effective ≤ day ∧ row.endDate.all (fun last => day ≤ last) = true := by
  rw [UniverseMembership.inForce, h.effective_eq.1]
  simp

theorem Admitted.entry_covers (h : Admitted row) {start day stop : String} (hstart : start ≤ day)
    (hstop : day ≤ stop) :
    ((row.entry start stop).startDate ≤ day ∧
        (row.entry start stop).endDate.all (fun last => day ≤ last) = true) ↔
      row.inForce day = true := by
  rw [h.inForce_iff]
  have hfrom : (row.entry start stop).startDate ≤ day ↔ row.effective ≤ day := by
    show max row.effective start ≤ day ↔ _
    simp [hstart]
  have huntil : (row.entry start stop).endDate.all (fun last => day ≤ last) = true ↔
      row.endDate.all (fun last => day ≤ last) = true := by
    show (row.endDate.bind _).all _ = true ↔ _
    cases hend : row.endDate with
    | none => simp
    | some last =>
      have hne : last ≠ "" := by
        intro hempty
        exact h.endDate (by rw [hend, hempty])
      simp [hne, hstop]
  rw [hfrom, huntil]

theorem Admitted.inWindow_iff (h : Admitted row) {code start day stop : String}
    (hstart : start ≤ day) (hforce : row.inForce day = true) :
    row.inWindow code start stop = true ↔ row.universeCode = code ∧ row.startDate ≤ stop := by
  have hend : row.endDate.all (fun last => start ≤ last) = true := by
    have hlast := (h.inForce_iff.mp hforce).2
    cases hend : row.endDate with
    | none => rfl
    | some last =>
      rw [hend] at hlast
      simp only [Option.all_some, decide_eq_true_eq] at hlast ⊢
      exact hstart.trans hlast
  have hannounce : row.announceDate.all
      (fun announce => announce ≤ row.effectiveDate.getD row.startDate) = true := by
    have heffective := h.effective_eq
    cases hsome : row.announceDate with
    | none => rfl
    | some announce =>
      rw [heffective.1]
      simpa using heffective.2 announce hsome
  unfold UniverseMembership.inWindow
  rw [hend, hannounce]
  simp

theorem mem_scheduledSymbols (h : AllAdmitted db) {start day stop : String} (hstart : start ≤ day)
    (hstop : day ≤ stop) (code symbol : String) :
    symbol ∈ scheduledSymbols (membershipSchedule db code start stop) day ↔
      ∃ row ∈ db.memberships, row.universeCode = code ∧ row.startDate ≤ stop ∧
        row.inForce day = true ∧ row.symbol = symbol := by
  simp only [scheduledSymbols, membershipSchedule, List.mem_map, List.mem_filter, mem_orderBy,
    Bool.and_eq_true, decide_eq_true_eq]
  constructor
  · rintro ⟨_, ⟨⟨row, ⟨⟨hrow, hwindow⟩, -⟩, rfl⟩, hcovers⟩, rfl⟩
    have hadmitted := h row hrow
    have hforce := (hadmitted.entry_covers hstart hstop).mp hcovers
    have hscope := (hadmitted.inWindow_iff hstart hforce).mp hwindow
    exact ⟨row, hrow, hscope.1, hscope.2, hforce, hadmitted.symbol.symm⟩
  · rintro ⟨row, hrow, hcode, hbefore, hforce, rfl⟩
    have hadmitted := h row hrow
    have heffective := (hadmitted.inForce_iff.mp hforce).1
    exact ⟨row.entry start stop,
      ⟨⟨row, ⟨⟨hrow, (hadmitted.inWindow_iff hstart hforce).mpr ⟨hcode, hbefore⟩⟩,
        heffective.trans hstop⟩, rfl⟩, (hadmitted.entry_covers hstart hstop).mpr hforce⟩,
      hadmitted.symbol⟩

theorem Admitted.visibleAt_iff (h : Admitted row) {code day : String} :
    row.visibleAt code day = true ↔
      row.universeCode = code ∧ row.startDate ≤ day ∧ row.inForce day = true := by
  have heffective := h.effective_eq
  have hannounce : row.effective ≤ day →
      row.announceDate.all (fun date => date ≤ day) = true := by
    intro hbefore
    cases hsome : row.announceDate with
    | none => rfl
    | some announce => simpa using (heffective.2 announce hsome).trans hbefore
  unfold UniverseMembership.visibleAt
  rw [h.inForce_iff, heffective.1]
  simp only [Bool.and_eq_true, beq_iff_eq, decide_eq_true_eq, Option.all_some]
  constructor
  · rintro ⟨⟨⟨⟨hcode, hstarted⟩, hlast⟩, -⟩, hbefore⟩
    exact ⟨hcode, hstarted, hbefore, hlast⟩
  · rintro ⟨hcode, hstarted, hbefore, hlast⟩
    exact ⟨⟨⟨⟨hcode, hstarted⟩, hlast⟩, hannounce hbefore⟩, hbefore⟩

theorem mem_universeSymbols (h : AllAdmitted db) (code day symbol : String) :
    symbol ∈ universeSymbols (universeAsOf db code day) ↔
      (find Security.symbol db.securities symbol).any (Security.listedAt day) = true ∧
        ∃ row ∈ db.memberships, row.universeCode = code ∧ row.symbol = symbol ∧
          row.startDate ≤ day ∧ row.inForce day = true := by
  simp only [universeSymbols, universeAsOf, List.mem_map, mem_orderBy, List.mem_filterMap,
    List.mem_filter, Option.map_eq_some_iff, Option.filter_eq_some_iff]
  constructor
  · rintro ⟨_, ⟨row, ⟨hrow, hvisible⟩, security, ⟨hfind, hlisted⟩, rfl⟩, rfl⟩
    have hscope := (h row hrow).visibleAt_iff.mp hvisible
    refine ⟨?_, row, hrow, hscope.1, rfl, hscope.2⟩
    show (find Security.symbol db.securities row.symbol).any (Security.listedAt day) = true
    rw [hfind]
    exact hlisted
  · rintro ⟨hlisted, row, hrow, hcode, rfl, hstarted, hforce⟩
    obtain ⟨security, hfind, hlisted⟩ := (Option.any_eq_true _ _).mp hlisted
    exact ⟨{ membership := row, security := security },
      ⟨row, ⟨hrow, (h row hrow).visibleAt_iff.mpr ⟨hcode, hstarted, hforce⟩⟩, security,
        ⟨hfind, hlisted⟩, rfl⟩, rfl⟩

/-- The schedule of a window and the point-in-time query have the same symbols at a day of the
window exactly when each membership in force is started and listed. -/
theorem schedule_agrees {db : UniverseDb} (h : AllAdmitted db) {start day stop : String}
    (hstart : start ≤ day) (hstop : day ≤ stop) (code : String) :
    (∀ symbol, symbol ∈ scheduledSymbols (membershipSchedule db code start stop) day ↔
        symbol ∈ universeSymbols (universeAsOf db code day)) ↔
      StartedAndListed db code stop day := by
  constructor
  · intro hagree row hrow hcode hbefore hforce
    have hscheduled := (mem_scheduledSymbols h hstart hstop code row.symbol).mpr
      ⟨row, hrow, hcode, hbefore, hforce, rfl⟩
    exact (mem_universeSymbols h code day row.symbol).mp ((hagree row.symbol).mp hscheduled)
  · intro hcondition symbol
    rw [mem_scheduledSymbols h hstart hstop, mem_universeSymbols h]
    constructor
    · rintro ⟨row, hrow, hcode, hbefore, hforce, rfl⟩
      exact hcondition row hrow hcode hbefore hforce
    · rintro ⟨-, row, hrow, hcode, hsymbol, hstarted, hforce⟩
      exact ⟨row, hrow, hcode, hstarted.trans hstop, hforce, hsymbol⟩

/-! ## A membership that takes effect before it starts -/

/-- A record of the importer with the two dates of a membership. -/
def sampleMember (symbol : String) (startDate effectiveDate : RawDate IsoDate) : IndexMember where
  universeCode := "CSI300"
  symbol := symbol
  name := none
  startDate := startDate
  endDate := .missing
  announceDate := .missing
  effectiveDate := effectiveDate
  listedDate := none
  industry := none
  weight := .null
  source := none

/-- The tables after one import, which starts on empty ones. -/
def imported (records : List IndexMember) : UniverseDb :=
  (importIndexMembers "batch" "manual" records { securities := [], memberships := [] }).state

theorem imported_admitted (records : List IndexMember) : AllAdmitted (imported records) := by
  apply (importIndexMembers_admitted "batch" "manual" records _).2
  intro row hrow
  cases hrow

/-- The membership starts in March and takes effect in February. -/
def earlyMembers : List IndexMember :=
  [sampleMember "SH600519" (.day ⟨"2024-03-01", by decide +kernel⟩)
    (.day ⟨"2024-02-01", by decide +kernel⟩)]

/-- The schedule has the symbol from February on, the point-in-time query only from March. -/
theorem schedule_before_start :
    AllAdmitted (imported earlyMembers) ∧
      scheduledSymbols (membershipSchedule (imported earlyMembers) "CSI300" "2024-01-01"
        "2024-12-31") "2024-02-15" = ["600519"] ∧
      universeSymbols (universeAsOf (imported earlyMembers) "CSI300" "2024-02-15") = [] :=
  ⟨imported_admitted earlyMembers, by decide +kernel, by decide +kernel⟩

/-- Two memberships that start and take effect on the same day. -/
def regularMembers : List IndexMember :=
  [sampleMember "SH600519" (.day ⟨"2024-02-01", by decide +kernel⟩) .missing,
    sampleMember "000001" (.day ⟨"2024-03-01", by decide +kernel⟩)
      (.day ⟨"2024-03-01", by decide +kernel⟩)]

theorem schedule_agrees_regular :
    ("2024-01-01" ≤ "2024-02-15" ∧ "2024-02-15" ≤ "2024-12-31") ∧
      ((∀ symbol,
          symbol ∈ scheduledSymbols (membershipSchedule (imported regularMembers) "CSI300"
            "2024-01-01" "2024-12-31") "2024-02-15" ↔
          symbol ∈ universeSymbols (universeAsOf (imported regularMembers) "CSI300"
            "2024-02-15")) ↔
        StartedAndListed (imported regularMembers) "CSI300" "2024-12-31" "2024-02-15") :=
  ⟨⟨by decide +kernel, by decide +kernel⟩,
    schedule_agrees (imported_admitted regularMembers) (by decide +kernel) (by decide +kernel)
      "CSI300"⟩

end LocalPlatform.Universe
