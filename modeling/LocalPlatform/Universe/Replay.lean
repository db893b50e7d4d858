import LocalPlatform.Universe.Intervals

/-!
# Membership intervals replay the event log

`replay` is what the intervals of an index are for: the members after all events up to a day,
where the deletes of a day come before its adds.

The loop of `buildMembershipIntervals` sorts by the spelling of the action and acts on the
action that the spelling names, and it ends an interval on its first day when an event
would end it before that day.  `Replayable` excludes these two, and initial members with
dates of their own that the log does not change.  Then the intervals cover an open day
exactly for the members of the replay, and those of one symbol are disjoint
(`intervals_replay`).
-/

namespace LocalPlatform.Universe

open Paper Spans Tables

/-! ## The replay -/

def datedEvents (events : List MembershipEvent) : List (Day × MembershipEvent) :=
  events.filterMap (fun event => event.effectiveDate.day?.map (fun day => (day, event)))

def replayOrder (log : List (Day × MembershipEvent)) : List (Day × MembershipEvent) :=
  orderBy (fun entry => toLex (entry.1,
    (if action entry.2.actionType = some .remove then 0 else 1 : Nat))) log

def replayEvent (members : List String) (entry : Day × MembershipEvent) : List String :=
  match cleanIndexSymbol entry.2.symbol, action entry.2.actionType with
  | some symbol, some .remove => members.filter (fun member => member ≠ symbol)
  | some symbol, some .enter => if symbol ∈ members then members else symbol :: members
  | _, _ => members

def initialSymbols (records : List MemberRecord) : List String :=
  records.filterMap (fun record => cleanIndexSymbol (firstText record.symbols))

def replay (request : IntervalRequest) (day : Day) : List String :=
  ((replayOrder (datedEvents request.events)).filter (fun entry => entry.1 ≤ day)).foldl
    replayEvent (initialSymbols request.initialMembers)

/-! ## When the intervals replay the log -/

/-- What the loop needs of the initial members and of the order of its events. -/
structure Replayable (isOpen : Day → Prop) (request : IntervalRequest) (origin : Day) : Prop where
  /-- An initial member starts by the first open day from the initial date on. -/
  started : ∀ symbol record, initialRecord request.initialMembers symbol = some record →
    ∀ day, isOpen day → origin ≤ day → (record.span origin).first ≤ day
  /-- It has no end of its own, unless an event deletes it. -/
  ended : ∀ symbol record, initialRecord request.initialMembers symbol = some record →
    (record.span origin).last = none ∨
      ∃ change ∈ historyOf symbol (sortEvents (datedEvents request.events)), change.2 = .remove
  /-- It is deleted after its start. -/
  deleted_after : ∀ symbol record, initialRecord request.initialMembers symbol = some record →
    ∀ change ∈ historyOf symbol (sortEvents (datedEvents request.events)),
      change.2 = .remove → (record.span origin).first < change.1
  /-- In the order of the loop, no delete follows an add of the same date. -/
  deletes_first : ∀ symbol,
    (historyOf symbol (sortEvents (datedEvents request.events))).Pairwise
      (fun a b => ¬ (a.1 = b.1 ∧ a.2 = .enter ∧ b.2 = .remove))

theorem mapM_dated {events : List MembershipEvent} :
    ∀ {log : List (Day × MembershipEvent)}, events.mapM dated = .ok log →
      log = datedEvents events := by
  induction events with
  | nil =>
    intro log h
    injection h with h
    exact h.symm
  | cons event events ih =>
    intro log h
    rw [List.mapM_cons] at h
    cases hday : requiredDay "effective_date" event.effectiveDate with
    | error message =>
      have hdated : dated event = .error message := by
        unfold dated
        rw [hday]
        rfl
      rw [hdated] at h
      cases h
    | ok day =>
      have hdated : dated event = .ok (day, event) := by
        unfold dated
        rw [hday]
        rfl
      rw [hdated] at h
      cases hrest : events.mapM dated with
      | error message =>
        rw [hrest] at h
        cases h
      | ok rest =>
        rw [hrest] at h
        injection h with h
        rw [← h, ih hrest]
        unfold datedEvents
        rw [List.filterMap_cons, requiredDay_ok hday]
        rfl

/-! ## The history of a symbol -/

variable {symbol : String}

theorem changeOf_eq_some {entry : Day × MembershipEvent} {change : Day × Change}
    (h : changeOf symbol entry = some change) :
    change.1 = entry.1 ∧ action entry.2.actionType = some change.2 := by
  unfold changeOf at h
  by_cases hclean : cleanIndexSymbol entry.2.symbol = some symbol
  · rw [if_pos hclean, Option.map_eq_some_iff] at h
    obtain ⟨kind, hkind, hchange⟩ := h
    rw [← hchange]
    exact ⟨rfl, hkind⟩
  · rw [if_neg hclean] at h
    cases h

theorem mem_replayEvent (symbol : String) (members : List String) (entry : Day × MembershipEvent) :
    decide (symbol ∈ replayEvent members entry) =
      match changeOf symbol entry with
      | some change => change.2 == .enter
      | none => decide (symbol ∈ members) := by
  unfold replayEvent changeOf
  cases hclean : cleanIndexSymbol entry.2.symbol with
  | none => simp
  | some target =>
    cases haction : action entry.2.actionType with
    | none => simp
    | some change =>
      by_cases heq : target = symbol
      · subst heq
        cases change with
        | remove => simp
        | enter => by_cases hmem : target ∈ members <;> simp [hmem]
      · cases change with
        | remove => simp [heq, Ne.symm heq]
        | enter => by_cases hmem : target ∈ members <;> simp [hmem, heq, Ne.symm heq]

theorem mem_replayEvents (symbol : String) (day : Day) (log : List (Day × MembershipEvent)) :
    ∀ members : List String,
      decide (symbol ∈ (log.filter (fun entry => entry.1 ≤ day)).foldl replayEvent members) =
        memberAt (decide (symbol ∈ members)) (historyOf symbol log) day := by
  induction log with
  | nil =>
    intro members
    rfl
  | cons entry log ih =>
    intro members
    have hentry := mem_replayEvent symbol members entry
    unfold historyOf at ih ⊢
    by_cases hday : entry.1 ≤ day
    · rw [List.filter_cons, if_pos (by simpa using hday), List.foldl_cons, ih, hentry]
      cases hchange : changeOf symbol entry with
      | none => rw [List.filterMap_cons, hchange]
      | some change =>
        have hdate : change.1 ≤ day := (changeOf_eq_some hchange).1 ▸ hday
        rw [List.filterMap_cons, hchange]
        show _ = memberAt _ (change :: log.filterMap (changeOf symbol)) day
        rw [memberAt_cons, if_pos hdate]
    · rw [List.filter_cons, if_neg (by simpa using hday), ih]
      cases hchange : changeOf symbol entry with
      | none => rw [List.filterMap_cons, hchange]
      | some change =>
        have hdate : ¬ change.1 ≤ day := (changeOf_eq_some hchange).1 ▸ hday
        rw [List.filterMap_cons, hchange]
        show _ = memberAt _ (change :: log.filterMap (changeOf symbol)) day
        rw [memberAt_cons, if_neg hdate]

theorem historyOf_replayOrder (log : List (Day × MembershipEvent)) (symbol : String) :
    (historyOf symbol (replayOrder log)).Pairwise Ordered := by
  unfold historyOf
  rw [List.pairwise_filterMap]
  refine (orderBy_sorted _ log).imp ?_
  intro a b hle first hfirst second hsecond
  have ha := changeOf_eq_some hfirst
  have hb := changeOf_eq_some hsecond
  rw [Prod.Lex.toLex_le_toLex, ← ha.1, ← hb.1, ha.2, hb.2] at hle
  cases hle with
  | inl hlt => exact .inl hlt
  | inr hsame =>
    refine .inr ⟨hsame.1, ?_⟩
    cases hkind : second.2 with
    | enter => exact .inr rfl
    | remove =>
      have hflag := hsame.2
      rw [hkind] at hflag
      cases hkind' : first.2 with
      | remove => exact .inl rfl
      | enter =>
        rw [hkind'] at hflag
        simp at hflag

theorem historyOf_sortEvents (log : List (Day × MembershipEvent)) (symbol : String) :
    (historyOf symbol (sortEvents log)).Pairwise (fun a b => a.1 ≤ b.1) := by
  unfold historyOf
  rw [List.pairwise_filterMap]
  refine (orderBy_sorted _ log).imp ?_
  intro a b hle first hfirst second hsecond
  rw [(changeOf_eq_some hfirst).1, (changeOf_eq_some hsecond).1]
  rw [Prod.Lex.toLex_le_toLex] at hle
  cases hle with
  | inl hlt => exact hlt.le
  | inr hsame => exact hsame.1.le

variable {log : List (Day × MembershipEvent)}

theorem historyOf_eq (h : (historyOf symbol (sortEvents log)).Pairwise
      (fun a b => ¬ (a.1 = b.1 ∧ a.2 = .enter ∧ b.2 = .remove))) :
    (historyOf symbol (sortEvents log)).Pairwise Ordered ∧
      historyOf symbol (sortEvents log) = historyOf symbol (replayOrder log) := by
  have hordered : (historyOf symbol (sortEvents log)).Pairwise Ordered := by
    refine ((historyOf_sortEvents log symbol).and h).imp ?_
    intro a b hab
    cases lt_or_eq_of_le hab.1 with
    | inl hlt => exact .inl hlt
    | inr heq =>
      refine .inr ⟨heq, ?_⟩
      cases ha : a.2 with
      | remove => exact .inl rfl
      | enter =>
        cases hb : b.2 with
        | enter => exact .inr rfl
        | remove => exact absurd ⟨heq, ha, hb⟩ hab.2
  have hperm : (historyOf symbol (sortEvents log)).Perm (historyOf symbol (replayOrder log)) :=
    ((orderBy_perm _ log).trans (orderBy_perm _ log).symm).filterMap _
  exact ⟨hordered, eq_of_ordered hperm hordered (historyOf_replayOrder log symbol)⟩

theorem deletes_first_of_spelling (h : ∀ entry ∈ log, action entry.2.actionType = some .remove →
      entry.2.actionType = "delete") (symbol : String) :
    (historyOf symbol (sortEvents log)).Pairwise
      (fun a b => ¬ (a.1 = b.1 ∧ a.2 = .enter ∧ b.2 = .remove)) := by
  unfold historyOf
  rw [List.pairwise_filterMap]
  refine (orderBy_sorted _ log).imp_of_mem ?_
  intro a b ha hb hle first hfirst second hsecond
  have hfirst' := changeOf_eq_some hfirst
  have hsecond' := changeOf_eq_some hsecond
  intro hswap
  have hdelete : b.2.actionType = "delete" :=
    h b (mem_orderBy.mp hb) (by rw [hsecond'.2, hswap.2.2])
  have hadd : a.2.actionType ≠ "delete" := by
    intro hspelled
    have hkind := hfirst'.2
    rw [hspelled, hswap.2.1] at hkind
    exact absurd hkind (by decide +kernel)
  rw [Prod.Lex.toLex_le_toLex, ← hfirst'.1, ← hsecond'.1, if_neg hadd, if_pos hdelete,
    Prod.Lex.toLex_le_toLex] at hle
  cases hle with
  | inl hlt => exact absurd hswap.1 hlt.ne
  | inr hsame =>
    cases hsame.2 with
    | inl hlt => simp at hlt
    | inr hflag => simp at hflag

/-! ## The intervals -/

theorem mem_initialSymbols {records : List MemberRecord} :
    symbol ∈ initialSymbols records ↔ (initialRecord records symbol).isSome = true := by
  unfold initialSymbols initialRecord
  rw [List.mem_filterMap, List.find?_isSome]
  simp

theorem spansOf_perm {a b : List Interval} (h : a.Perm b) (symbol : String) :
    (spansOf a symbol).Perm (spansOf b symbol) := (h.filter _).map _

theorem mem_spansOf {intervals : List Interval} {span : Span Day} :
    span ∈ spansOf intervals symbol ↔
      ∃ interval ∈ intervals, interval.symbol = symbol ∧ interval.span = span := by
  simp [spansOf, and_assoc]

/-- The span of the initial record of a symbol. -/
def initialSpan (request : IntervalRequest) (origin : Day) (symbol : String) : Option (Span Day) :=
  (initialRecord request.initialMembers symbol).map (MemberRecord.span origin)

/-- The changes of a symbol in the order of the loop. -/
def loopHistory (request : IntervalRequest) (symbol : String) : List (Day × Change) :=
  historyOf symbol (sortEvents (datedEvents request.events))

variable {request : IntervalRequest} {origin : Day}

theorem buildMembershipIntervals_track {previous : Day → Day} {result : IntervalResult}
    (horigin : request.initialEffectiveDate = .day origin)
    (hresult : buildMembershipIntervals previous request = .ok result) (symbol : String) :
    (spansOf result.intervals symbol).Perm
      (Track.run previous (initialSpan request origin symbol)
        (loopHistory request symbol)).spans := by
  unfold buildMembershipIntervals at hresult
  rw [horigin] at hresult
  cases hannounce : requiredDay "initial_announce_date" request.initialAnnounceDate with
  | error message => rw [hannounce] at hresult; cases hresult
  | ok announce =>
  rw [hannounce] at hresult
  simp only [requiredDay, bind, Except.bind] at hresult
  cases hinitial : request.initialMembers.foldlM (addInitial request origin announce)
      { active := [], intervals := [], warnings := [] } with
  | error message => rw [hinitial] at hresult; cases hresult
  | ok initial =>
  rw [hinitial] at hresult
  cases hlog : request.events.mapM dated with
  | error message => rw [hlog] at hresult; cases hresult
  | ok log =>
  rw [hlog] at hresult
  dsimp only at hresult
  cases hfinal : (sortEvents log).foldlM (applyEvent previous request) initial with
  | error message => rw [hfinal] at hresult; cases hresult
  | ok final =>
  rw [hfinal] at hresult
  injection hresult with hresult
  have hempty : ∀ symbol, Follows { active := [], intervals := [], warnings := [] } symbol
      (initialTrack [] origin symbol) := fun symbol => ⟨rfl, rfl⟩
  have hstart : ∀ symbol, Follows initial symbol
      (initialTrack request.initialMembers origin symbol) :=
    fun symbol => addInitials_follows hempty hinitial symbol
  have hend := (applyEvents_follows hstart hfinal symbol).spans
  have hdated := mapM_dated hlog
  subst hdated
  rw [← hresult]
  refine (spansOf_perm (orderBy_perm _ final.intervals) symbol).trans ?_
  rw [← hend]
  exact List.Perm.refl _

variable {isOpen : Day → Prop}

theorem Replayable.tracked {previous : Day → Day} (hprevious : Previous isOpen previous)
    (h : Replayable isOpen request origin) (symbol : String) :
    Tracked isOpen origin (initialSpan request origin symbol) (loopHistory request symbol)
      (Track.run previous (initialSpan request origin symbol) (loopHistory request symbol)) := by
  apply run_tracked hprevious
  · intro span hspan
    obtain ⟨record, hrecord, rfl⟩ := Option.map_eq_some_iff.mp hspan
    exact h.started symbol record hrecord
  · exact (historyOf_eq (h.deletes_first symbol)).1
  · intro span hspan
    obtain ⟨record, hrecord, rfl⟩ := Option.map_eq_some_iff.mp hspan
    exact h.deleted_after symbol record hrecord

theorem Replayable.ends (h : Replayable isOpen request origin) (symbol : String) (span : Span Day)
    (hspan : initialSpan request origin symbol = some span) :
    span.last = none ∨ ∃ change ∈ loopHistory request symbol, change.2 = .remove := by
  obtain ⟨record, hrecord, rfl⟩ := Option.map_eq_some_iff.mp hspan
  exact h.ended symbol record hrecord

theorem Replayable.mem_replay (h : Replayable isOpen request origin) (symbol : String) (day : Day) :
    symbol ∈ replay request day ↔
      memberAt (initialSpan request origin symbol).isSome (loopHistory request symbol) day = true := by
  have hinitial : decide (symbol ∈ initialSymbols request.initialMembers) =
      (initialSpan request origin symbol).isSome := by
    unfold initialSpan
    rw [Option.isSome_map, Bool.eq_iff_iff, decide_eq_true_iff]
    exact mem_initialSymbols
  unfold loopHistory
  rw [(historyOf_eq (h.deletes_first symbol)).2, ← hinitial, ← mem_replayEvents,
    decide_eq_true_iff]
  rfl

/-- The intervals cover an open day exactly for the members of the replay, and those of one
symbol are disjoint and end after they start. -/
theorem intervals_replay {isOpen : Day → Prop} {previous : Day → Day}
    (hprevious : Previous isOpen previous) {request : IntervalRequest} {result : IntervalResult}
    {origin : Day} (horigin : request.initialEffectiveDate = .day origin)
    (hresult : buildMembershipIntervals previous request = .ok result)
    (h : Replayable isOpen request origin) :
    (∀ day, isOpen day → origin ≤ day → ∀ symbol,
      (∃ interval ∈ result.intervals, interval.symbol = symbol ∧ interval.span.Covers day) ↔
        symbol ∈ replay request day) ∧
      (∀ symbol, (spansOf result.intervals symbol).Pairwise Span.Disjoint) ∧
      ∀ interval ∈ result.intervals, ∀ last, interval.endDate = some last →
        interval.startDate ≤ last := by
  have hperm := buildMembershipIntervals_track horigin hresult
  refine ⟨?_, ?_, ?_⟩
  · intro day hopen hday symbol
    have hcovers := (h.tracked hprevious symbol).covers_iff (h.ends symbol) hopen hday
    rw [h.mem_replay symbol day, ← hcovers]
    constructor
    · rintro ⟨interval, hinterval, hsymbol, hcover⟩
      have hmem := mem_spansOf.mpr ⟨interval, hinterval, hsymbol, rfl⟩
      exact ⟨interval.span, (hperm symbol).mem_iff.mp hmem, hcover⟩
    · rintro ⟨span, hspan, hcover⟩
      obtain ⟨interval, hinterval, hsymbol, rfl⟩ :=
        mem_spansOf.mp ((hperm symbol).mem_iff.mpr hspan)
      exact ⟨interval, hinterval, hsymbol, hcover⟩
  · intro symbol
    have hdisjoint := ((h.tracked hprevious symbol).spans_disjoint (h.ends symbol)).1
    exact ((hperm symbol).pairwise_iff (fun h => h.symm)).mpr hdisjoint
  · intro interval hinterval last hlast
    have hmem : interval.span ∈ spansOf result.intervals interval.symbol :=
      mem_spansOf.mpr ⟨interval, hinterval, rfl, rfl⟩
    have hended := ((h.tracked hprevious interval.symbol).spans_disjoint
      (h.ends interval.symbol)).2
    exact hended interval.span ((hperm interval.symbol).mem_iff.mp hmem) last hlast

/-! ## The calendar -/

theorem previousTradeDate_previous (calendar : List CalendarDay) (market : String) :
    Previous (fun day => day ∈ openDays calendar market) (previousTradeDate calendar market) := by
  constructor
  · intro date
    unfold previousTradeDate
    cases hmax : ((openDays calendar market).filter (· < date)).max? with
    | none => exact sub_one_lt date
    | some candidate =>
      have hlt : candidate < date := by
        simpa using (List.mem_filter.mp (List.max?_eq_some_iff.mp hmax).1).2
      show (if date - candidate ≤ 14 then candidate else date - 1) < date
      split_ifs
      · exact hlt
      · exact sub_one_lt date
  · intro date day hopen hday
    unfold previousTradeDate
    have hmem : day ∈ (openDays calendar market).filter (· < date) :=
      List.mem_filter.mpr ⟨hopen, by simpa using hday⟩
    cases hmax : ((openDays calendar market).filter (· < date)).max? with
    | none =>
      rw [List.max?_eq_none_iff] at hmax
      rw [hmax] at hmem
      cases hmem
    | some candidate =>
      have hle : day ≤ candidate := (List.max?_eq_some_iff.mp hmax).2 day hmem
      show day ≤ if date - candidate ≤ 14 then candidate else date - 1
      split_ifs
      · exact hle
      · exact Int.le_sub_one_of_lt hday

/-! ## Sample logs -/

def sampleRecord (symbol : String) : MemberRecord where
  symbols := [some symbol]
  names := []
  startDate := .missing
  endDate := .missing
  announceDate := .missing
  effectiveDate := .missing
  listedDate := .missing
  delistedDate := .missing
  weight := none

def sampleEvent (symbol actionType : String) (day : Day) : MembershipEvent where
  symbol := symbol
  name := none
  actionType := actionType
  announceDate := .day 5
  effectiveDate := .day day
  weight := none

/-- An index with two members on day 10. -/
def sampleRequest (events : List MembershipEvent) : IntervalRequest where
  indexCode := "CSI300"
  initialMembers := [sampleRecord "600519", sampleRecord "000001"]
  initialEffectiveDate := .day 10
  initialAnnounceDate := .day 5
  events := events
  source := "sample"
  batchId := "batch"

def sampleCalendar : List CalendarDay :=
  (List.range 30).map (fun day => { market := "china", tradeDate := day, isOpen := true })

/-- A replacement on day 20, with a spelling of the delete that the sort does not know. -/
def misspelledReplacement : List MembershipEvent :=
  [sampleEvent "600519" "add" 20, sampleEvent "600519" "remove" 20]

/-- The replay keeps the symbol on day 20, and no interval covers that day. -/
theorem replacement_lost :
    (20 : Day) ∈ openDays sampleCalendar "china" ∧
      "600519" ∈ replay (sampleRequest misspelledReplacement) 20 ∧
      (buildMembershipIntervals (previousTradeDate sampleCalendar "china")
        (sampleRequest misspelledReplacement)).toOption.any (fun result =>
          decide (∀ interval ∈ result.intervals,
            ¬ (interval.symbol = "600519" ∧ interval.span.Covers 20))) = true := by
  decide +kernel

def regularChanges : List MembershipEvent :=
  [sampleEvent "300750" "include" 15, sampleEvent "000001" "delete" 15,
    sampleEvent "000001" "add" 20, sampleEvent "600519" "delete" 20, sampleEvent "600519" "add" 20]

theorem mem_historyOf {change : Day × Change} (h : change ∈ historyOf symbol log) :
    ∃ entry ∈ log, entry.1 = change.1 := by
  obtain ⟨entry, hentry, hchange⟩ := List.mem_filterMap.mp h
  exact ⟨entry, hentry, (changeOf_eq_some hchange).1.symm⟩

theorem regularChanges_replayable (isOpen : Day → Prop) :
    Replayable isOpen (sampleRequest regularChanges) 10 := by
  have hspan : ∀ symbol record,
      initialRecord (sampleRequest regularChanges).initialMembers symbol = some record →
        record.span 10 = { first := 10, last := none } := by
    intro symbol record hrecord
    have hmem := List.mem_of_find?_eq_some hrecord
    simp only [sampleRequest, List.mem_cons, List.not_mem_nil, or_false] at hmem
    cases hmem with
    | inl h => rw [h]; rfl
    | inr h => rw [h]; rfl
  have hdates : ∀ entry ∈ sortEvents (datedEvents regularChanges), 10 < entry.1 := by
    intro entry hentry
    have hafter : ∀ entry ∈ datedEvents regularChanges, 10 < entry.1 := by decide +kernel
    exact hafter entry (mem_orderBy.mp hentry)
  exact
    { started := by
        intro symbol record hrecord day hopen hday
        rw [hspan symbol record hrecord]
        exact hday
      ended := by
        intro symbol record hrecord
        rw [hspan symbol record hrecord]
        exact .inl rfl
      deleted_after := by
        intro symbol record hrecord change hchange hremove
        obtain ⟨entry, hentry, hdate⟩ := mem_historyOf hchange
        rw [hspan symbol record hrecord, ← hdate]
        exact hdates entry hentry
      deletes_first := by
        intro symbol
        apply deletes_first_of_spelling
        decide +kernel }

theorem intervals_replay_regular :
    ∃ result,
      buildMembershipIntervals (previousTradeDate sampleCalendar "china")
        (sampleRequest regularChanges) = .ok result ∧
      (∀ day, day ∈ openDays sampleCalendar "china" → 10 ≤ day → ∀ symbol,
        (∃ interval ∈ result.intervals, interval.symbol = symbol ∧ interval.span.Covers day) ↔
          symbol ∈ replay (sampleRequest regularChanges) day) ∧
        (∀ symbol, (spansOf result.intervals symbol).Pairwise Span.Disjoint) ∧
        ∀ interval ∈ result.intervals, ∀ last, interval.endDate = some last →
          interval.startDate ≤ last := by
  cases hresult : buildMembershipIntervals (previousTradeDate sampleCalendar "china")
      (sampleRequest regularChanges) with
  | error message =>
    have hok : (buildMembershipIntervals (previousTradeDate sampleCalendar "china")
      (sampleRequest regularChanges)).isOk = true := by decide +kernel
    rw [hresult] at hok
    cases hok
  | ok result =>
    exact ⟨result, rfl, intervals_replay (previousTradeDate_previous sampleCalendar "china") rfl
      hresult (regularChanges_replayable _)⟩

end LocalPlatform.Universe
