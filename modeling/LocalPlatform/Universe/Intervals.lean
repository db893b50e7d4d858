import LocalPlatform.Lib.Spans
import LocalPlatform.Lib.Rows
import LocalPlatform.Universe.Symbols
import Mathlib.Data.Prod.Lex

/-!
# Membership intervals from an event log

`build_membership_intervals` turns the initial members of an index and its add and delete events
into intervals.

* `action` reads the spellings of an event, `cleanIndexSymbol` its symbol.
* `buildMembershipIntervals` is the loop over the sorted events, with a table `active` that holds
  the position of the interval that is still open for a symbol.
* `previousTradeDate` is the day before an event on which an interval ends.
* What the loop holds of one symbol is a track of its changes (`applyEvents_follows`), from the
  span of the initial record that it keeps (`addInitials_follows`).
-/

namespace LocalPlatform.Universe

open Paper Spans Tables

/-! ## Reading a record -/

/-- `_is_missing` of a text. -/
def isMissing (text : String) : Bool :=
  strip text == "" || (["nan", "none", "null", "--", "-"] : List String).contains
    (lower (strip text))

/-- `_action` -/
def action (text : String) : Option Change :=
  let raw := if isMissing text then "" else lower (strip text)
  if raw = "" then none
  else if (["add", "in", "include", "included"] : List String).contains raw ||
      ["调入", "纳入", "新增", "加入", "新进", "进入"].any (mentions raw) then
    some .enter
  else if (["delete", "del", "remove", "removed", "out", "exclude", "excluded"] :
      List String).contains raw || ["调出", "剔除", "删除", "退出", "移出"].any (mentions raw) then
    some .remove
  else none

/-- `\d+\.0` -/
def isWholeFloat (text : String) : Bool :=
  match text.toList.reverse with
  | '0' :: '.' :: digits => !digits.isEmpty && digits.all Char.isDigit
  | _ => false

/-- `[036]\d{5}` -/
def isMainlandShare (symbol : String) : Bool :=
  isDigits symbol && symbol.length == 6 && startsWithAny ["0", "3", "6"] symbol

/-- `_clean_symbol` -/
def cleanIndexSymbol (text : String) : Option String :=
  if isMissing text then none
  else
    let value := upper (strip text)
    let whole := if isWholeFloat value then (rsplitDot value).1 else value
    let compact := String.ofList (whole.toList.filter (· ≠ ' '))
    let padded := if isDigits compact && decide (compact.length < 6) then zfill 6 compact
      else compact
    (normalizeSymbol padded).toOption.filter isMainlandShare

/-- `_optional_date` -/
def optionalDay : RawDate Day → Except String (Option Day)
  | .missing => .ok none
  | .day day => .ok (some day)
  | .invalid text => .error s!"Invalid date: '{text}'; expected YYYY-MM-DD or YYYYMMDD."

/-- `_date` -/
def requiredDay (field : String) : RawDate Day → Except String Day
  | .missing => .error s!"{field} is required."
  | .day day => .ok day
  | .invalid text => .error s!"Invalid {field}: '{text}'; expected YYYY-MM-DD or YYYYMMDD."

/-- `_float` of a record's weight. -/
def weightOf (text : Option String) : Option ℚ :=
  text.bind (fun text =>
    if isMissing text then none
    else parseFloat (String.ofList ((strip text).toList.filter (· ≠ '%'))))

/-! ## The request and the result -/

/-- A record of the initial members.  `symbols` are the values under `symbol`, `code`, `证券代码`
and `股票代码`; `names` those under `name`, `证券名称` and `股票名称`. -/
structure MemberRecord where
  symbols : List (Option String)
  names : List (Option String)
  startDate : RawDate Day
  endDate : RawDate Day
  announceDate : RawDate Day
  effectiveDate : RawDate Day
  listedDate : RawDate Day
  delistedDate : RawDate Day
  weight : Option String

/-- A row of `index_membership_events`. -/
structure MembershipEvent where
  symbol : String
  name : Option String
  actionType : String
  announceDate : RawDate Day
  effectiveDate : RawDate Day
  weight : Option String

/-- The arguments of `build_membership_intervals`. -/
structure IntervalRequest where
  indexCode : String
  initialMembers : List MemberRecord
  initialEffectiveDate : RawDate Day
  initialAnnounceDate : RawDate Day
  events : List MembershipEvent
  source : String
  batchId : String

structure Interval where
  universeCode : String
  symbol : String
  name : String
  startDate : Day
  endDate : Option Day
  announceDate : Day
  effectiveDate : Day
  weight : Option ℚ
  source : String
  batchId : String
  listedDate : Day
  delistedDate : Option Day
  deriving DecidableEq

inductive IntervalWarning where
  | initialMemberSkipped (record : MemberRecord)
  | duplicateInitialMember (symbol : String)
  | eventSymbolInvalid (symbol : String)
  | deleteWithoutActiveMember (symbol : String) (effective : Day)
  | deleteBeforeIntervalStart (symbol : String) (effective : Day)
  | addWhileAlreadyActive (symbol : String) (effective : Day)
  | unknownAction (actionType symbol : String) (effective : Day)

structure IntervalResult where
  intervals : List Interval
  warnings : List IntervalWarning
  batchId : String

/-! ## The loop -/

/-- What the loop carries.  `active` holds the position in `intervals` of the interval that is
still open for a symbol. -/
structure Building where
  active : List (String × Nat)
  intervals : List Interval
  warnings : List IntervalWarning

def Building.warn (building : Building) (warning : IntervalWarning) : Building :=
  { building with warnings := building.warnings ++ [warning] }

/-- A new interval, which is open for its symbol. -/
def Building.start (building : Building) (interval : Interval) : Building :=
  { building with
    active := (interval.symbol, building.intervals.length) :: building.active
    intervals := building.intervals ++ [interval] }

/-- `_member_record` -/
def memberRecord (request : IntervalRequest) (start announce : Day) (record : MemberRecord) :
    Except String (Option Interval) := do
  match cleanIndexSymbol (firstText record.symbols) with
  | none => return none
  | some symbol =>
    let startDate := (← optionalDay record.startDate).getD start
    let announceDate := (← optionalDay record.announceDate).getD announce
    let endDate ← optionalDay record.endDate
    let effectiveDate := (← optionalDay record.effectiveDate).getD startDate
    let listedDate := (← optionalDay record.listedDate).getD startDate
    let delistedDate ← optionalDay record.delistedDate
    return some
      { universeCode := upper request.indexCode
        symbol := symbol
        name := firstText (record.names ++ [some symbol])
        startDate := startDate
        endDate := endDate
        announceDate := announceDate
        effectiveDate := effectiveDate
        weight := weightOf record.weight
        source := request.source
        batchId := request.batchId
        listedDate := listedDate
        delistedDate := delistedDate }

/-- One turn of the loop over the initial members. -/
def addInitial (request : IntervalRequest) (start announce : Day) (building : Building)
    (record : MemberRecord) : Except String Building := do
  match ← memberRecord request start announce record with
  | none => return building.warn (.initialMemberSkipped record)
  | some member =>
    if (building.active.lookup member.symbol).isSome then
      return building.warn (.duplicateInitialMember member.symbol)
    else return building.start member

/-- The end of an interval, which is not before its start. -/
def Interval.endAt (endDate : Day) (interval : Interval) : Interval :=
  { interval with
    endDate := some (if endDate < interval.startDate then interval.startDate else endDate) }

/-- The `delete` branch of the loop over the events. -/
def Building.delete (previous : Day → Day) (building : Building) (symbol : String)
    (effective : Day) : Building :=
  match building.active.lookup symbol with
  | none => building.warn (.deleteWithoutActiveMember symbol effective)
  | some position =>
    let endDate := previous effective
    let early := (building.intervals[position]?).any (fun interval => endDate < interval.startDate)
    { active := building.active.filter (fun entry => entry.1 ≠ symbol)
      intervals := building.intervals.modify position (Interval.endAt endDate)
      warnings := building.warnings ++
        (if early then [.deleteBeforeIntervalStart symbol effective] else []) }

/-- The interval that an `add` event opens. -/
def addedInterval (request : IntervalRequest) (event : MembershipEvent) (symbol : String)
    (effective announce : Day) : Interval where
  universeCode := upper request.indexCode
  symbol := symbol
  name := firstText [event.name, some symbol]
  startDate := effective
  endDate := none
  announceDate := announce
  effectiveDate := effective
  weight := weightOf event.weight
  source := request.source
  batchId := request.batchId
  listedDate := effective
  delistedDate := none

/-- The `add` branch of the loop over the events. -/
def Building.add (request : IntervalRequest) (building : Building) (event : MembershipEvent)
    (symbol : String) (effective announce : Day) : Building :=
  if (building.active.lookup symbol).isSome then
    building.warn (.addWhileAlreadyActive symbol effective)
  else building.start (addedInterval request event symbol effective announce)

/-- One turn of the loop over the events. -/
def applyEvent (previous : Day → Day) (request : IntervalRequest) (building : Building)
    (entry : Day × MembershipEvent) : Except String Building := do
  let (effective, event) := entry
  match cleanIndexSymbol event.symbol with
  | none => return building.warn (.eventSymbolInvalid event.symbol)
  | some symbol =>
    let announce ← requiredDay "announce_date" event.announceDate
    if effective < announce then
      throw "CSI300 event effective_date cannot be earlier than announce_date."
    match action event.actionType with
    | some .remove => return building.delete previous symbol effective
    | some .enter => return building.add request event symbol effective announce
    | none => return building.warn (.unknownAction event.actionType symbol effective)

/-- An event with the date that the sort reads. -/
def dated (event : MembershipEvent) : Except String (Day × MembershipEvent) := do
  return (← requiredDay "effective_date" event.effectiveDate, event)

/-- The order of the loop: by date, then by the spelling of the action, then by symbol. -/
def sortEvents (log : List (Day × MembershipEvent)) : List (Day × MembershipEvent) :=
  orderBy (fun entry => toLex (entry.1,
    toLex ((if entry.2.actionType = "delete" then 0 else 1 : Nat), entry.2.symbol))) log

/-- `build_membership_intervals` -/
def buildMembershipIntervals (previous : Day → Day) (request : IntervalRequest) :
    Except String IntervalResult := do
  let start ← requiredDay "initial_effective_date" request.initialEffectiveDate
  let announce ← requiredDay "initial_announce_date" request.initialAnnounceDate
  let initial ← request.initialMembers.foldlM (addInitial request start announce)
    { active := [], intervals := [], warnings := [] }
  let log ← request.events.mapM dated
  let final ← (sortEvents log).foldlM (applyEvent previous request) initial
  return { intervals := orderBy (fun interval => toLex (interval.symbol, interval.startDate))
             final.intervals
           warnings := final.warnings
           batchId := request.batchId }

/-! ## The day before an event -/

/-- A row of `trade_calendar`. -/
structure CalendarDay where
  market : String
  tradeDate : Day
  isOpen : Bool
  deriving DecidableEq

def openDays (calendar : List CalendarDay) (market : String) : List Day :=
  (calendar.filter (fun row => row.market == market && row.isOpen)).map CalendarDay.tradeDate

/-- `previous_trade_date` -/
def previousTradeDate (calendar : List CalendarDay) (market : String) (effective : Day) : Day :=
  match ((openDays calendar market).filter (· < effective)).max? with
  | some candidate => if effective - candidate ≤ 14 then candidate else effective - 1
  | none => effective - 1

/-! ## The loop as one track for each symbol -/

def Interval.span (interval : Interval) : Span Day :=
  { first := interval.startDate, last := interval.endDate }

/-- The spans of a symbol, in the order in which the loop opened them. -/
def spansOf (intervals : List Interval) (symbol : String) : List (Span Day) :=
  (intervals.filter (fun interval => interval.symbol = symbol)).map Interval.span

theorem spansOf_append (a b : List Interval) (symbol : String) :
    spansOf (a ++ b) symbol = spansOf a symbol ++ spansOf b symbol := by
  simp [spansOf]

theorem spansOf_cons_self (interval : Interval) (rest : List Interval) :
    spansOf (interval :: rest) interval.symbol = interval.span :: spansOf rest interval.symbol := by
  simp [spansOf]

variable {symbol : String}

theorem spansOf_cons_other {interval : Interval} (h : interval.symbol ≠ symbol)
    (rest : List Interval) : spansOf (interval :: rest) symbol = spansOf rest symbol := by
  simp [spansOf, h]

/-- The interval at a position is the last one of its symbol, and the track's open span. -/
structure OpenAt (intervals : List Interval) (position : Nat) (symbol : String)
    (track : Track Day) (interval : Interval) (before after : List Interval) : Prop where
  split : intervals = before ++ interval :: after
  index : before.length = position
  owner : interval.symbol = symbol
  closed : track.closed = spansOf before symbol
  active : track.active = some interval.span
  last : spansOf after symbol = []

/-- What the loop holds of one symbol is a track. -/
def Follows (building : Building) (symbol : String) (track : Track Day) : Prop :=
  match building.active.lookup symbol with
  | none => track.closed = spansOf building.intervals symbol ∧ track.active = none
  | some position =>
    ∃ interval before after, OpenAt building.intervals position symbol track interval before after

variable {building : Building} {track : Track Day}

theorem Follows.spans (h : Follows building symbol track) :
    track.spans = spansOf building.intervals symbol := by
  unfold Follows at h
  cases hlookup : building.active.lookup symbol with
  | none =>
    rw [hlookup] at h
    rw [Track.spans, h.1, h.2]
    simp
  | some position =>
    rw [hlookup] at h
    obtain ⟨interval, before, after, hopen⟩ := h
    have howner := hopen.owner
    subst howner
    rw [Track.spans, hopen.closed, hopen.active, hopen.split, spansOf_append, spansOf_cons_self,
      hopen.last]
    rfl

theorem Follows.lookup_isSome (h : Follows building symbol track) :
    (building.active.lookup symbol).isSome = track.active.isSome := by
  unfold Follows at h
  cases hlookup : building.active.lookup symbol with
  | none =>
    rw [hlookup] at h
    rw [h.2]
    rfl
  | some position =>
    rw [hlookup] at h
    obtain ⟨interval, before, after, hopen⟩ := h
    rw [hopen.active]
    rfl

theorem Follows.warn (h : Follows building symbol track) (warning : IntervalWarning) :
    Follows (building.warn warning) symbol track := h

variable {tracks : String → Track Day}

theorem Follows.start (h : ∀ symbol, Follows building symbol (tracks symbol)) {interval : Interval}
    (hfree : (building.active.lookup interval.symbol).isSome = false) (symbol : String) :
    Follows (building.start interval) symbol
      (if symbol = interval.symbol then
        { tracks symbol with active := some interval.span } else tracks symbol) := by
  have hsymbol := h symbol
  unfold Follows at hsymbol ⊢
  by_cases heq : symbol = interval.symbol
  · subst heq
    have hnone : building.active.lookup interval.symbol = none := by
      simpa using hfree
    rw [hnone] at hsymbol
    rw [if_pos rfl]
    simp only [Building.start, List.lookup_cons_self]
    exact ⟨interval, building.intervals, [],
      { split := rfl, index := rfl, owner := rfl, closed := hsymbol.1, active := rfl,
        last := rfl }⟩
  · rw [if_neg heq]
    have hne : (symbol == interval.symbol) = false := by
      simpa using heq
    simp only [Building.start, List.lookup_cons, hne]
    cases hlookup : building.active.lookup symbol with
    | none =>
      rw [hlookup] at hsymbol
      refine ⟨?_, hsymbol.2⟩
      rw [hsymbol.1, spansOf_append, spansOf_cons_other (Ne.symm heq)]
      simp [spansOf]
    | some position =>
      rw [hlookup] at hsymbol
      obtain ⟨old, before, after, hopen⟩ := hsymbol
      refine ⟨old, before, after ++ [interval], { hopen with split := ?_, last := ?_ }⟩
      · rw [hopen.split]
        simp
      · rw [spansOf_append, hopen.last, spansOf_cons_other (Ne.symm heq)]
        rfl

theorem modify_append_cons {α : Type} (f : α → α) (before : List α) (x : α) (after : List α) :
    (before ++ x :: after).modify before.length f = before ++ f x :: after := by
  induction before with
  | nil => rfl
  | cons y before ih => simpa using ih

theorem lookup_filter_self (active : List (String × Nat)) (symbol : String) :
    (active.filter (fun entry => entry.1 ≠ symbol)).lookup symbol = none := by
  rw [List.lookup_eq_none_iff]
  intro entry hentry
  have hne : entry.1 ≠ symbol := by simpa using (List.mem_filter.mp hentry).2
  simpa using Ne.symm hne

theorem lookup_filter_ne {active : List (String × Nat)} {target : String} (h : symbol ≠ target) :
    (active.filter (fun entry => entry.1 ≠ target)).lookup symbol = active.lookup symbol := by
  induction active with
  | nil => rfl
  | cons entry active ih =>
    by_cases hentry : entry.1 = target
    · have hne : (symbol == entry.1) = false := by
        simpa [hentry] using h
      rw [List.filter_cons, if_neg (by simpa using hentry), ih, List.lookup_cons, hne]
    · rw [List.filter_cons, if_pos (by simpa using hentry), List.lookup_cons, List.lookup_cons, ih]

theorem Interval.span_endAt (interval : Interval) (previous : Day → Day) (date : Day) :
    (interval.endAt (previous date)).span = interval.span.close previous date := by
  unfold Interval.endAt Interval.span Span.close
  by_cases h : previous date < interval.startDate
  · simp [h, max_eq_right h.le]
  · simp [h, max_eq_left (not_lt.mp h)]

theorem OpenAt.other {intervals : List Interval} {position other : Nat} {symbol' : String}
    {track' : Track Day} {interval interval' : Interval}
    {before after before' after' : List Interval} (hne : symbol ≠ symbol')
    (h : OpenAt intervals position symbol track interval before after)
    (h' : OpenAt intervals other symbol' track' interval' before' after') {changed : Interval}
    (hchanged : changed.symbol = symbol) :
    ∃ before'' after'',
      OpenAt (before ++ changed :: after) other symbol' track' interval' before'' after'' := by
  have hsplit : before ++ interval :: after = before' ++ interval' :: after' := by
    rw [← h.split, ← h'.split]
  have hold : interval.symbol ≠ symbol' := by
    rw [h.owner]
    exact hne
  have hnew : changed.symbol ≠ symbol' := by
    rw [hchanged]
    exact hne
  rcases List.append_eq_append_iff.mp hsplit with ⟨between, hbefore, hrest⟩ |
    ⟨between, hbefore, hrest⟩
  · -- the changed interval stands before the other one
    cases between with
    | nil =>
      simp only [List.nil_append, List.cons.injEq] at hrest
      exact absurd (hrest.1 ▸ h'.owner) hold
    | cons first between =>
      simp only [List.cons_append, List.cons.injEq] at hrest
      obtain ⟨rfl, rfl⟩ := hrest
      refine ⟨before ++ changed :: between, after', ?_, ?_, h'.owner, ?_, h'.active, h'.last⟩
      · simp
      · rw [← h'.index, hbefore]
        simp
      · rw [h'.closed, hbefore, spansOf_append, spansOf_append, spansOf_cons_other hold,
          spansOf_cons_other hnew]
  · cases between with
    | nil =>
      simp only [List.nil_append, List.cons.injEq] at hrest
      exact absurd (hrest.1.symm ▸ h'.owner) hold
    | cons first between =>
      simp only [List.cons_append, List.cons.injEq] at hrest
      obtain ⟨rfl, rfl⟩ := hrest
      refine ⟨before', between ++ changed :: after, { h' with split := ?_, last := ?_ }⟩
      · rw [hbefore]
        simp
      · have hlast := h'.last
        rw [spansOf_append, spansOf_cons_other hold] at hlast
        rw [spansOf_append, spansOf_cons_other hnew]
        exact hlast

theorem Follows.delete (h : ∀ symbol, Follows building symbol (tracks symbol))
    (previous : Day → Day) (target : String) (effective : Day) (symbol : String) :
    Follows (building.delete previous target effective) symbol
      (if symbol = target then (tracks symbol).step previous (effective, .remove)
        else tracks symbol) := by
  have htarget := h target
  have hsymbol := h symbol
  unfold Building.delete
  cases hlookup : building.active.lookup target with
  | none =>
    unfold Follows at htarget
    rw [hlookup] at htarget
    by_cases heq : symbol = target
    · subst heq
      rw [if_pos rfl]
      simp only [Track.step, htarget.2]
      exact hsymbol
    · rw [if_neg heq]
      exact hsymbol
  | some position =>
    unfold Follows at htarget
    rw [hlookup] at htarget
    obtain ⟨interval, before, after, hopen⟩ := htarget
    have hintervals : building.intervals.modify position
        (Interval.endAt (previous effective)) =
          before ++ interval.endAt (previous effective) :: after := by
      rw [hopen.split, ← hopen.index, modify_append_cons]
    unfold Follows at hsymbol ⊢
    simp only [hintervals]
    by_cases heq : symbol = target
    · subst heq
      have hgone : (building.active.filter (fun entry => entry.1 ≠ symbol)).lookup symbol = none :=
        lookup_filter_self building.active symbol
      rw [if_pos rfl, hgone]
      simp only [Track.step, hopen.active]
      refine ⟨?_, trivial⟩
      have hsame : (interval.endAt (previous effective)).symbol = symbol := hopen.owner
      rw [hopen.closed, ← interval.span_endAt, spansOf_append]
      nth_rewrite 3 [← hsame]
      rw [spansOf_cons_self, hsame, hopen.last]
    · have hkept : (building.active.filter (fun entry => entry.1 ≠ target)).lookup symbol =
          building.active.lookup symbol := lookup_filter_ne heq
      rw [if_neg heq, hkept]
      cases hlookup' : building.active.lookup symbol with
      | none =>
        rw [hlookup'] at hsymbol
        refine ⟨?_, hsymbol.2⟩
        have hold : interval.symbol ≠ symbol := hopen.owner ▸ Ne.symm heq
        have hnew : (interval.endAt (previous effective)).symbol ≠ symbol := hold
        rw [hsymbol.1, hopen.split, spansOf_append, spansOf_append, spansOf_cons_other hold,
          spansOf_cons_other hnew]
      | some position' =>
        rw [hlookup'] at hsymbol
        obtain ⟨interval', before', after', hopen'⟩ := hsymbol
        have hchanged : (interval.endAt (previous effective)).symbol = target := hopen.owner
        obtain ⟨before'', after'', hother⟩ := hopen.other (Ne.symm heq) hopen' hchanged
        exact ⟨interval', before'', after'', hother⟩

theorem Follows.add (h : ∀ symbol, Follows building symbol (tracks symbol)) (previous : Day → Day)
    (request : IntervalRequest) (event : MembershipEvent) (target : String)
    (effective announce : Day) (symbol : String) :
    Follows (building.add request event target effective announce) symbol
      (if symbol = target then (tracks symbol).step previous (effective, .enter)
        else tracks symbol) := by
  have hactive := (h target).lookup_isSome
  unfold Building.add
  by_cases hsome : (building.active.lookup target).isSome = true
  · rw [if_pos hsome]
    by_cases heq : symbol = target
    · subst heq
      rw [if_pos rfl]
      obtain ⟨span, hspan⟩ := Option.isSome_iff_exists.mp (hactive ▸ hsome)
      simp only [Track.step, hspan]
      exact (h symbol).warn _
    · rw [if_neg heq]
      exact (h symbol).warn _
  · rw [if_neg hsome]
    have hnone : (tracks target).active = none := by
      rw [hactive] at hsome
      simpa using hsome
    have hstart : Follows (building.start (addedInterval request event target effective announce))
        symbol (if symbol = target then
          { tracks symbol with active := some { first := effective, last := none } }
          else tracks symbol) :=
      Follows.start h (eq_false_of_ne_true hsome) symbol
    by_cases heq : symbol = target
    · subst heq
      rw [if_pos rfl] at hstart ⊢
      simp only [Track.step, hnone]
      exact hstart
    · rw [if_neg heq] at hstart ⊢
      exact hstart

/-! ## The log of a symbol -/

def changeOf (symbol : String) (entry : Day × MembershipEvent) : Option (Day × Change) :=
  if cleanIndexSymbol entry.2.symbol = some symbol then
    (action entry.2.actionType).map (fun change => (entry.1, change))
  else none

def historyOf (symbol : String) (log : List (Day × MembershipEvent)) : List (Day × Change) :=
  log.filterMap (changeOf symbol)

variable {request : IntervalRequest}

theorem applyEvent_follows {previous : Day → Day} {next : Building} {entry : Day × MembershipEvent}
    (h : ∀ symbol, Follows building symbol (tracks symbol))
    (hnext : applyEvent previous request building entry = .ok next) (symbol : String) :
    Follows next symbol
      ((changeOf symbol entry).toList.foldl (Track.step previous) (tracks symbol)) := by
  obtain ⟨effective, event⟩ := entry
  unfold applyEvent at hnext
  unfold changeOf
  dsimp only at hnext ⊢
  cases hclean : cleanIndexSymbol event.symbol with
  | none =>
    rw [hclean] at hnext
    injection hnext with hnext
    subst hnext
    simpa using (h symbol).warn _
  | some target =>
    rw [hclean] at hnext
    dsimp only at hnext
    cases hannounce : requiredDay "announce_date" event.announceDate with
    | error message =>
      rw [hannounce] at hnext
      cases hnext
    | ok announce =>
      rw [hannounce] at hnext
      simp only [bind, Except.bind, pure, Except.pure] at hnext
      by_cases hearly : effective < announce
      · rw [if_pos hearly] at hnext
        cases hnext
      · rw [if_neg hearly] at hnext
        cases haction : action event.actionType with
        | none =>
          rw [haction] at hnext
          injection hnext with hnext
          subst hnext
          simpa using (h symbol).warn _
        | some change =>
          rw [haction] at hnext
          have hentry : (if some target = some symbol then
              (some change).map (fun change => (effective, change)) else none).toList =
                if symbol = target then [(effective, change)] else [] := by
            by_cases heq : symbol = target
            · simp [heq]
            · simp [heq, Ne.symm heq]
          rw [hentry]
          cases change with
          | remove =>
            injection hnext with hnext
            subst hnext
            have hdelete := Follows.delete h previous target effective symbol
            by_cases heq : symbol = target
            · rw [if_pos heq] at hdelete ⊢
              exact hdelete
            · rw [if_neg heq] at hdelete ⊢
              exact hdelete
          | enter =>
            injection hnext with hnext
            subst hnext
            have hadd := Follows.add h previous request event target effective announce symbol
            by_cases heq : symbol = target
            · rw [if_pos heq] at hadd ⊢
              exact hadd
            · rw [if_neg heq] at hadd ⊢
              exact hadd

theorem applyEvents_follows {previous : Day → Day} {log : List (Day × MembershipEvent)} :
    ∀ {building final : Building} {tracks : String → Track Day},
      (∀ symbol, Follows building symbol (tracks symbol)) →
      log.foldlM (applyEvent previous request) building = .ok final →
      ∀ symbol, Follows final symbol
        ((historyOf symbol log).foldl (Track.step previous) (tracks symbol)) := by
  induction log with
  | nil =>
    intro building final tracks h hfinal symbol
    injection hfinal with hfinal
    rw [← hfinal]
    exact h symbol
  | cons entry log ih =>
    intro building final tracks h hfinal symbol
    rw [List.foldlM_cons] at hfinal
    cases hnext : applyEvent previous request building entry with
    | error message =>
      rw [hnext] at hfinal
      cases hfinal
    | ok next =>
      rw [hnext] at hfinal
      have hrest := ih (applyEvent_follows h hnext) hfinal symbol
      have hhistory : historyOf symbol (entry :: log) =
          (changeOf symbol entry).toList ++ historyOf symbol log := by
        unfold historyOf
        rw [List.filterMap_cons]
        cases changeOf symbol entry <;> rfl
      rw [hhistory, List.foldl_append]
      exact hrest

/-! ## The initial members -/

/-- The record that the loop keeps for a symbol: the first one with it. -/
def initialRecord (records : List MemberRecord) (symbol : String) : Option MemberRecord :=
  records.find? (fun record => cleanIndexSymbol (firstText record.symbols) = some symbol)

/-- The span of an initial member, which may have dates of its own. -/
def MemberRecord.span (start : Day) (record : MemberRecord) : Span Day :=
  { first := record.startDate.day?.getD start, last := record.endDate.day? }

def initialTrack (records : List MemberRecord) (start : Day) (symbol : String) : Track Day :=
  { closed := [], active := (initialRecord records symbol).map (MemberRecord.span start) }

theorem optionalDay_ok {value : RawDate Day} {day : Option Day} (h : optionalDay value = .ok day) :
    day = value.day? := by
  cases value with
  | missing => injection h with h; exact h.symm
  | day day' => injection h with h; exact h.symm
  | invalid text => cases h

theorem requiredDay_ok {field : String} {value : RawDate Day} {day : Day}
    (h : requiredDay field value = .ok day) : value.day? = some day := by
  cases value with
  | missing => cases h
  | day day' => injection h with h; exact congrArg some h
  | invalid text => cases h

theorem memberRecord_ok {start announce : Day} {record : MemberRecord} {member : Option Interval}
    (h : memberRecord request start announce record = .ok member) :
    cleanIndexSymbol (firstText record.symbols) = member.map Interval.symbol ∧
      ∀ interval, member = some interval → interval.span = record.span start := by
  unfold memberRecord at h
  cases hclean : cleanIndexSymbol (firstText record.symbols) with
  | none =>
    rw [hclean] at h
    injection h with h
    rw [← h]
    exact ⟨rfl, by simp⟩
  | some symbol =>
    rw [hclean] at h
    cases hstart : optionalDay record.startDate with
    | error message => rw [hstart] at h; cases h
    | ok startDate =>
    rw [hstart] at h
    cases hannounce : optionalDay record.announceDate with
    | error message => rw [hannounce] at h; cases h
    | ok announceDate =>
    rw [hannounce] at h
    cases hend : optionalDay record.endDate with
    | error message => rw [hend] at h; cases h
    | ok endDate =>
    rw [hend] at h
    cases heffective : optionalDay record.effectiveDate with
    | error message => rw [heffective] at h; cases h
    | ok effectiveDate =>
    rw [heffective] at h
    cases hlisted : optionalDay record.listedDate with
    | error message => rw [hlisted] at h; cases h
    | ok listedDate =>
    rw [hlisted] at h
    cases hdelisted : optionalDay record.delistedDate with
    | error message => rw [hdelisted] at h; cases h
    | ok delistedDate =>
    rw [hdelisted] at h
    injection h with h
    rw [← h]
    refine ⟨rfl, ?_⟩
    intro interval hinterval
    injection hinterval with hinterval
    rw [← hinterval]
    show Span.mk (startDate.getD start) endDate = record.span start
    rw [optionalDay_ok hstart, optionalDay_ok hend]
    rfl

theorem addInitial_follows {start announce : Day} {next : Building} {done : List MemberRecord}
    {record : MemberRecord} (h : ∀ symbol, Follows building symbol (initialTrack done start symbol))
    (hnext : addInitial request start announce building record = .ok next) (symbol : String) :
    Follows next symbol (initialTrack (done ++ [record]) start symbol) := by
  have happend : initialRecord (done ++ [record]) symbol =
      (initialRecord done symbol).or
        (if cleanIndexSymbol (firstText record.symbols) = some symbol then some record
          else none) := by
    unfold initialRecord
    rw [List.find?_append, List.find?_singleton]
    simp
  unfold addInitial at hnext
  cases hmember : memberRecord request start announce record with
  | error message => rw [hmember] at hnext; cases hnext
  | ok member =>
  rw [hmember] at hnext
  have hrecord := memberRecord_ok hmember
  cases member with
  | none =>
    injection hnext with hnext
    subst hnext
    have hsame : initialTrack (done ++ [record]) start symbol = initialTrack done start symbol := by
      unfold initialTrack
      rw [happend, hrecord.1]
      simp
    rw [hsame]
    exact (h symbol).warn _
  | some interval =>
    have hlookup := (h interval.symbol).lookup_isSome
    simp only [bind, Except.bind, pure, Except.pure] at hnext
    by_cases hsome : (building.active.lookup interval.symbol).isSome = true
    · rw [if_pos hsome] at hnext
      injection hnext with hnext
      subst hnext
      have hsame : initialTrack (done ++ [record]) start symbol =
          initialTrack done start symbol := by
        unfold initialTrack
        rw [happend, hrecord.1]
        by_cases heq : symbol = interval.symbol
        · subst heq
          rw [hsome] at hlookup
          have hfound : (initialRecord done interval.symbol).isSome = true := by
            simpa [initialTrack] using hlookup.symm
          obtain ⟨first, hfirst⟩ := Option.isSome_iff_exists.mp hfound
          rw [hfirst]
          rfl
        · simp [Ne.symm heq]
      rw [hsame]
      exact (h symbol).warn _
    · rw [if_neg hsome] at hnext
      injection hnext with hnext
      subst hnext
      have hstart := Follows.start h (eq_false_of_ne_true hsome) symbol
      have htrack : initialTrack (done ++ [record]) start symbol =
          if symbol = interval.symbol then
            { initialTrack done start symbol with active := some interval.span }
          else initialTrack done start symbol := by
        unfold initialTrack
        rw [happend, hrecord.1]
        by_cases heq : symbol = interval.symbol
        · subst heq
          have hnone : initialRecord done interval.symbol = none := by
            rw [hlookup] at hsome
            simpa [initialTrack] using hsome
          rw [hnone, if_pos rfl, hrecord.2 interval rfl]
          simp
        · simp [heq, Ne.symm heq]
      rw [htrack]
      exact hstart

theorem addInitials_follows {start announce : Day} {records : List MemberRecord} :
    ∀ {building final : Building} {done : List MemberRecord},
      (∀ symbol, Follows building symbol (initialTrack done start symbol)) →
      records.foldlM (addInitial request start announce) building = .ok final →
      ∀ symbol, Follows final symbol (initialTrack (done ++ records) start symbol) := by
  induction records with
  | nil =>
    intro building final done h hfinal symbol
    injection hfinal with hfinal
    rw [← hfinal, List.append_nil]
    exact h symbol
  | cons record records ih =>
    intro building final done h hfinal symbol
    rw [List.foldlM_cons] at hfinal
    cases hnext : addInitial request start announce building record with
    | error message => rw [hnext] at hfinal; cases hfinal
    | ok next =>
      rw [hnext] at hfinal
      have hrest := ih (addInitial_follows h hnext) hfinal symbol
      rw [List.append_assoc] at hrest
      exact hrest

end LocalPlatform.Universe
