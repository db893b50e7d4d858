import LocalPlatform.DataSync.Watermarks
import LocalPlatform.Lib.Results

/-!
# What the watermarks cover

* `Truthful`: every open session of a watermark lies in a committed work item of its scope, or is
  the date of a committed session of the whole market.
* `Attached` is the condition on the state that a synchronisation meets: an instrument is asked for
  from the end of its watermark on, a scope that is moved with the market is not behind its start,
  and the history of a security before its watermark is among the sessions that are committed.
* `Reached` is what a synchronisation by sessions has come through, and carries the proof.
-/

namespace LocalPlatform.DataSync.Coverage

open Dates Tables DataSync.Replay
open Machines Results

/-! ## The promise -/

def WorkItem.covers (scope : String) (date : Date) : WorkItem → Prop
  | .instrument symbol first last => symbol = scope ∧ first ≤ date ∧ date ≤ last
  | .tradeDate other => other = date

def Covered (s : World) (scope : String) (date : Date) : Prop :=
  ∃ work ∈ s.committed, work.item.covers scope date

def Truthful (calendar : TradeCalendar) (s : World) : Prop :=
  ∀ watermark ∈ s.watermarks, ∀ date, calendar.Open date → watermark.coverageStart ≤ date →
    date ≤ watermark.coverageEnd → Covered s watermark.scope date

/-! ## The condition -/

/-- No open session lies between the stored end and the first date of a request. -/
def Joins (calendar : TradeCalendar) (s : World) (entry : Entry) : Prop :=
  ∀ watermark ∈ s.watermarks, watermark.scope = entry.symbol →
    ∀ date, calendar.Open date → watermark.coverageEnd < date → entry.first ≤ date

/-- No scope that is moved to `reach` is behind the start. -/
def Level (calendar : TradeCalendar) (moves : String → Prop) (s : World)
    (startAfter reach : Date) : Prop :=
  ∀ watermark ∈ s.watermarks, moves watermark.scope →
    ∀ date, calendar.Open date → watermark.coverageEnd < date → date ≤ reach → startAfter < date

/-- The history of a security before its watermark is among the sessions up to `reach`. -/
structure Begun (calendar : TradeCalendar) (s : World) (startAfter reach : Date)
    (security : Security) : Prop where
  fetched : ∀ date, calendar.Open date → security.listedDate.getD unknownListing ≤ date →
    date ≤ reach → (∀ watermark ∈ s.watermarks, watermark.scope = security.symbol →
      date < watermark.coverageStart) → startAfter < date
  joined : ∀ watermark ∈ s.watermarks, watermark.scope = security.symbol → ∀ date,
    calendar.Open date → security.listedDate.getD unknownListing ≤ date →
      date < watermark.coverageStart → date ≤ watermark.coverageEnd → date ≤ reach

/-- The scopes that a synchronisation by sessions moves. -/
def Request.moves (request : Request) (scope : String) : Prop :=
  request.function = .marketRaw → scope = "global"

def AttachedTo (calendar : TradeCalendar) (s : World) (sync : Synchronisation) : Plan → Prop
  | .raises => True
  | .instruments entries => ∀ entry ∈ entries, entry.first ≤ entry.last → Joins calendar s entry
  | .sessions startAfter =>
    (∀ reach ∈ ((pending calendar sync.request s startAfter).take sync.outcome.count).getLast?,
      Level calendar sync.request.moves s startAfter reach) ∧
    ∀ reach ∈ advanceTo calendar sync s startAfter,
      Level calendar sync.request.moves s startAfter reach ∧
        ∀ security ∈ advanced sync.request.securities reach,
          Begun calendar s startAfter reach security

def Attached (settings : Settings) (calendar : TradeCalendar) (s : World)
    (sync : Synchronisation) : Prop :=
  AttachedTo calendar s sync (sync.request.plan settings calendar s)

def synchronisations (settings : Settings) (calendar : TradeCalendar) :
    Machine World Synchronisation where
  allowed := fun _ _ => True
  next := World.next settings calendar

/-! ## Instruments -/

section Proofs

variable {settings : Settings} {calendar : TradeCalendar} {s : World} {date : Date}

theorem Covered.mono {t : World} {scope : String} (h : Covered s scope date)
    (hsubset : s.committed ⊆ t.committed) : Covered t scope date := by
  obtain ⟨work, hwork, hcovers⟩ := h
  exact ⟨work, hsubset hwork, hcovers⟩

theorem persistInstrument_committed (runId : String) (s : World) (entry : Entry) :
    s.committed ⊆ (persistInstrument runId s entry).committed :=
  fun _ hwork => List.mem_append_left _ hwork

variable {entry : Entry}

theorem covered_entry (runId : String) (s : World) (hfirst : entry.first ≤ date)
    (hlast : date ≤ entry.last) : Covered (persistInstrument runId s entry) entry.symbol date :=
  ⟨_, List.mem_append_right _ (List.mem_singleton.mpr rfl), rfl, hfirst, hlast⟩

theorem Truthful.persistInstrument (h : Truthful calendar s) (runId : String)
    (hjoins : entry.first ≤ entry.last → Joins calendar s entry) :
    Truthful calendar (persistInstrument runId s entry) := by
  have hkept : ∀ watermark ∈ s.watermarks, ∀ date, calendar.Open date →
      watermark.coverageStart ≤ date → date ≤ watermark.coverageEnd →
        Covered (Coverage.persistInstrument runId s entry) watermark.scope date :=
    fun watermark hwatermark date hopen hstart hend =>
      (h watermark hwatermark date hopen hstart hend).mono (persistInstrument_committed runId s entry)
  intro watermark hwatermark date hopen hstart hend
  by_cases hle : entry.first ≤ entry.last
  · unfold Coverage.persistInstrument at hwatermark
    dsimp only at hwatermark
    rw [if_pos hle] at hwatermark
    rcases mem_upsert_key hwatermark with hold | ⟨rfl, -⟩ | ⟨old, hold, hscope, rfl⟩
    · exact hkept watermark hold date hopen hstart hend
    · exact covered_entry runId s hstart hend
    · have hscope : old.scope = entry.symbol := hscope
      by_cases hfirst : entry.first ≤ date
      · show Covered _ old.scope date
        rw [hscope]
        exact covered_entry runId s hfirst hend
      · -- The date is before the entry, so it is in the stored interval.
        have hbelow := not_le.mp hfirst
        have hstored : old.coverageStart ≤ date :=
          (min_le_iff.mp hstart).resolve_left (not_le.mpr hbelow)
        apply hkept old hold date hopen hstored
        by_contra hafter
        exact hfirst (hjoins hle old hold hscope date hopen (not_le.mp hafter))
  · unfold Coverage.persistInstrument at hwatermark
    dsimp only at hwatermark
    rw [if_neg hle] at hwatermark
    exact hkept watermark hwatermark date hopen hstart hend

variable {runId : String}

theorem mem_persistInstrument {watermark : Watermark}
    (h : watermark ∈ (persistInstrument runId s entry).watermarks)
    (hscope : watermark.scope ≠ entry.symbol) : watermark ∈ s.watermarks := by
  unfold persistInstrument at h
  dsimp only at h
  split_ifs at h with hle
  · rcases mem_upsert_key h with hold | ⟨rfl, -⟩ | ⟨old, hold, hkey, rfl⟩
    · exact hold
    · exact absurd rfl hscope
    · exact absurd hkey hscope
  · exact h

theorem Truthful.persistInstruments (runId : String) : ∀ {entries : List Entry} {s : World},
    Truthful calendar s → (entries.map Entry.symbol).Nodup →
    (∀ entry ∈ entries, entry.first ≤ entry.last → Joins calendar s entry) →
      Truthful calendar (entries.foldl (Coverage.persistInstrument runId) s) := by
  intro entries
  induction entries with
  | nil => exact fun h _ _ => h
  | cons entry entries ih =>
    intro s h hnodup hjoins
    obtain ⟨hfresh, hrest⟩ := List.nodup_cons.mp hnodup
    apply ih (h.persistInstrument runId (hjoins entry List.mem_cons_self)) hrest
    intro other hother hle watermark hwatermark hscope
    have hne : watermark.scope ≠ entry.symbol := by
      rw [hscope]
      intro heq
      exact hfresh (heq ▸ List.mem_map_of_mem hother)
    exact hjoins other (List.mem_cons_of_mem _ hother) hle watermark
      (mem_persistInstrument hwatermark hne) hscope

variable {request : Request}

theorem entries_nodup {entries : List Entry}
    (h : request.selected.mapM (request.entry s) = some entries) :
    (entries.map Entry.symbol).Nodup := by
  have hsymbol : ∀ security entry, request.entry s security = some entry →
      entry.symbol = security.symbol := by
    intro security entry hentry
    obtain ⟨first, _, rfl⟩ := Option.map_eq_some_iff.mp hentry
    rfl
  rw [map_of_mapM hsymbol h]
  unfold Request.selected
  split_ifs
  · exact request.keyed.sublist (List.filter_sublist.map _)
  · exact request.keyed

/-! ## Sessions -/

/-- Every open session after the start is committed, up to a date. -/
def Reached (calendar : TradeCalendar) (s : World) (startAfter reach : Date) : Prop :=
  ∀ date, calendar.Open date → startAfter < date → date ≤ reach →
    ∃ work ∈ s.committed, work.item = .tradeDate date

variable {startAfter reach : Date}

theorem Reached.covered (h : Reached calendar s startAfter reach) (hopen : calendar.Open date)
    (hafter : startAfter < date) (hreach : date ≤ reach) (scope : String) :
    Covered s scope date := by
  obtain ⟨work, hwork, hitem⟩ := h date hopen hafter hreach
  refine ⟨work, hwork, ?_⟩
  rw [hitem]
  rfl

theorem mem_pending :
    date ∈ pending calendar request s startAfter ↔
      (calendar.Open date ∧ date ≤ request.endDate) ∧
        startAfter < date ∧ ⟨request.runId, .tradeDate date⟩ ∉ s.committed := by
  unfold pending
  rw [List.mem_filter, mem_sessions, decide_eq_true_eq]

theorem pending_sorted (calendar : TradeCalendar) (request : Request) (s : World)
    (startAfter : Date) : (pending calendar request s startAfter).Pairwise (· < ·) :=
  (sessions_sorted calendar request.endDate).filter _

theorem pending_take {last : Date} {count : ℕ}
    (hlast : ((pending calendar request s startAfter).take count).getLast? = some last)
    (hopen : calendar.Open date) (hafter : startAfter < date) (hle : date ≤ last) :
    ⟨request.runId, .tradeDate date⟩ ∈ s.committed ∨
      date ∈ (pending calendar request s startAfter).take count := by
  have hmem := List.mem_of_getLast? hlast
  by_cases hdone : (⟨request.runId, .tradeDate date⟩ : Committed) ∈ s.committed
  · exact .inl hdone
  · right
    have hend := (mem_pending.mp (List.mem_of_mem_take hmem)).1.2
    have hpending : date ∈ pending calendar request s startAfter :=
      mem_pending.mpr ⟨⟨hopen, hle.trans hend⟩, hafter, hdone⟩
    have hsplit := List.take_append_drop count (pending calendar request s startAfter)
    have hsorted := pending_sorted calendar request s startAfter
    rw [← hsplit] at hpending hsorted
    rcases List.mem_append.mp hpending with htaken | hleft
    · exact htaken
    · exact absurd hle (not_le.mpr ((List.pairwise_append.mp hsorted).2.2 last hmem date hleft))

theorem reached_of_pending_nil (h : pending calendar request s startAfter = []) :
    Reached calendar s startAfter request.endDate := by
  intro date hopen hafter hend
  by_contra hnone
  have hpending : date ∈ pending calendar request s startAfter :=
    mem_pending.mpr ⟨⟨hopen, hend⟩, hafter, fun hdone => hnone ⟨_, hdone, rfl⟩⟩
  rw [h] at hpending
  exact absurd hpending List.not_mem_nil

section TradeDates

variable {request : Request} {startAfter last : Date} {count : ℕ}

theorem reached_persist
    (hlast : ((pending calendar request s startAfter).take count).getLast? = some last) :
    Reached calendar (persistTradeDates request.runId s
      ((pending calendar request s startAfter).take count)) startAfter last := by
  intro date hopen hafter hle
  unfold persistTradeDates
  rw [hlast]
  rcases pending_take hlast hopen hafter hle with hdone | htaken
  · exact ⟨_, List.mem_append_left _ hdone, rfl⟩
  · exact ⟨_, List.mem_append_right _ (List.mem_map_of_mem htaken), rfl⟩

theorem reach_cases (last : Date) (watermark : Watermark) :
    (watermark.reach last).scope = watermark.scope ∧
      (watermark.reach last).coverageStart = watermark.coverageStart ∧
        watermark.coverageEnd ≤ (watermark.reach last).coverageEnd ∧
          ∀ date, date ≤ (watermark.reach last).coverageEnd →
            date ≤ watermark.coverageEnd ∨ date ≤ last := by
  unfold Watermark.reach
  split_ifs with hlt
  · exact ⟨rfl, rfl, hlt.le, fun date hle => .inr hle⟩
  · exact ⟨rfl, rfl, le_rfl, fun date hle => .inl hle⟩

theorem Truthful.persistTradeDates (h : Truthful calendar s)
    (hlevel : ∀ reach ∈ ((pending calendar request s startAfter).take count).getLast?,
      Level calendar (fun _ => True) s startAfter reach) :
    Truthful calendar (persistTradeDates request.runId s
      ((pending calendar request s startAfter).take count)) := by
  cases hlast : ((pending calendar request s startAfter).take count).getLast? with
  | none =>
    unfold Coverage.persistTradeDates
    rw [hlast]
    exact h
  | some last =>
    have hreached := reached_persist hlast
    intro watermark hwatermark date hopen hstart hend
    have hmem : watermark ∈ s.watermarks.map (Watermark.reach last) := by
      unfold Coverage.persistTradeDates at hwatermark
      rw [hlast] at hwatermark
      exact hwatermark
    obtain ⟨old, hold, rfl⟩ := List.mem_map.mp hmem
    obtain ⟨hscope, hstarts, _, hends⟩ := reach_cases last old
    rw [hscope]
    rw [hstarts] at hstart
    by_cases hin : date ≤ old.coverageEnd
    · apply (h old hold date hopen hstart hin).mono
      unfold Coverage.persistTradeDates
      rw [hlast]
      exact fun _ hwork => List.mem_append_left _ hwork
    · have hle := (hends date hend).resolve_left hin
      exact hreached.covered hopen
        (hlevel last hlast old hold trivial date hopen (not_le.mp hin) hle) hle _

end TradeDates

/-! ## Securities -/

def advanceOne (reach : Date) (s : World) (security : Security) : World :=
  { s with
    watermarks := upsert Watermark.scope Watermark.advance s.watermarks
      ⟨security.symbol, security.listedDate.getD unknownListing, reach⟩ }

theorem advanceSparse_eq (securities : List Security) (reach : Date) (s : World) :
    advanceSparse securities reach s =
      (advanced securities reach).foldl (advanceOne reach) s := by
  unfold advanceSparse
  generalize advanced securities reach = list
  induction list generalizing s with
  | nil => rfl
  | cons security list ih => exact ih (advanceOne reach s security)

variable {security : Security}

theorem Truthful.advance (h : Truthful calendar s) (hreached : Reached calendar s startAfter reach)
    (hlevel : Level calendar (fun _ => True) s startAfter reach)
    (hbegun : Begun calendar s startAfter reach security)
    (hkeyed : Unique Watermark.scope s.watermarks) :
    Truthful calendar (advanceOne reach s security) := by
  intro watermark hwatermark date hopen hstart hend
  rcases mem_upsert_key hwatermark with hold | ⟨rfl, hnone⟩ | ⟨old, hold, hscope, rfl⟩
  · exact h watermark hold date hopen hstart hend
  · apply hreached.covered hopen _ hend
    apply hbegun.fetched date hopen hstart hend
    intro other hother hscope
    have hfind := hkeyed.find_of_mem hother
    rw [hscope] at hfind
    rw [hfind] at hnone
    cases hnone
  · have hscope : old.scope = security.symbol := hscope
    show Covered _ old.scope date
    have hends : date ≤ reach ∨ date ≤ old.coverageEnd := le_max_iff.mp hend
    by_cases hstored : old.coverageStart ≤ date
    · by_cases hin : date ≤ old.coverageEnd
      · exact h old hold date hopen hstored hin
      · have hle := hends.resolve_right hin
        exact hreached.covered hopen
          (hlevel old hold trivial date hopen (not_le.mp hin) hle) hle _
    · have hbelow := not_le.mp hstored
      have hlisted := (min_le_iff.mp hstart).resolve_right hstored
      have hle : date ≤ reach := by
        rcases hends with hle | hin
        · exact hle
        · exact hbegun.joined old hold hscope date hopen hlisted hbelow hin
      apply hreached.covered hopen _ hle
      apply hbegun.fetched date hopen hlisted hle
      intro other hother hsame
      rw [hkeyed.eq hother hold (hsame.trans hscope.symm)]
      exact hbelow

theorem mem_advanceOne_iff {watermark : Watermark} (hscope : watermark.scope ≠ security.symbol) :
    watermark ∈ (advanceOne reach s security).watermarks ↔ watermark ∈ s.watermarks := by
  constructor
  · intro h
    rcases mem_upsert_key h with hold | ⟨rfl, -⟩ | ⟨old, hold, hkey, rfl⟩
    · exact hold
    · exact absurd rfl hscope
    · exact absurd hkey hscope
  · intro h
    have hmerge : ∀ old row : Watermark, (old.advance row).scope = old.scope := fun _ _ => rfl
    exact mem_upsert_of_ne hmerge h hscope

theorem Level.advanceOne (h : Level calendar (fun _ => True) s startAfter reach)
    (security : Security) :
    Level calendar (fun _ => True) (advanceOne reach s security) startAfter reach := by
  intro watermark hwatermark _ date hopen hafter hle
  rcases mem_upsert_key hwatermark with hold | ⟨rfl, -⟩ | ⟨old, hold, -, rfl⟩
  · exact h watermark hold trivial date hopen hafter hle
  · exact absurd hle (not_le.mpr hafter)
  · exact absurd hle (not_le.mpr (max_lt_iff.mp hafter).1)

theorem Begun.advanceOne {other : Security} (h : Begun calendar s startAfter reach other)
    (hne : other.symbol ≠ security.symbol) :
    Begun calendar (advanceOne reach s security) startAfter reach other := by
  have hkept : ∀ watermark : Watermark, watermark.scope = other.symbol →
      (watermark ∈ (Coverage.advanceOne reach s security).watermarks ↔
        watermark ∈ s.watermarks) := by
    intro watermark hscope
    apply mem_advanceOne_iff
    rw [hscope]
    exact hne
  constructor
  · intro date hopen hlisted hle hbefore
    apply h.fetched date hopen hlisted hle
    intro watermark hwatermark hscope
    exact hbefore watermark ((hkept watermark hscope).mpr hwatermark) hscope
  · intro watermark hwatermark hscope
    exact h.joined watermark ((hkept watermark hscope).mp hwatermark) hscope

theorem Truthful.advanceAll : ∀ {securities : List Security} {s : World},
    Truthful calendar s → Unique Watermark.scope s.watermarks →
    Reached calendar s startAfter reach → Level calendar (fun _ => True) s startAfter reach →
    (securities.map Security.symbol).Nodup →
    (∀ security ∈ securities, Begun calendar s startAfter reach security) →
      Truthful calendar (securities.foldl (advanceOne reach) s) := by
  intro securities
  induction securities with
  | nil => exact fun h _ _ _ _ _ => h
  | cons security securities ih =>
    intro s h hkeyed hreached hlevel hnodup hbegun
    obtain ⟨hfresh, hrest⟩ := List.nodup_cons.mp hnodup
    apply ih (h.advance hreached hlevel (hbegun security List.mem_cons_self) hkeyed)
      (hkeyed.upsert _ _) hreached (hlevel.advanceOne security) hrest
    intro other hother
    apply (hbegun other (List.mem_cons_of_mem _ hother)).advanceOne
    intro heq
    exact hfresh (heq ▸ List.mem_map_of_mem hother)

/-! ## The whole market -/

theorem Truthful.persistGlobals {last : Date} (runId : String) :
    ∀ {dates : List Date} {s : World}, Truthful calendar s → dates.Pairwise (· < ·) →
    (∀ date ∈ dates, startAfter < date ∧ date ≤ last) →
    Level calendar (· = "global") s startAfter last →
    (∀ date, calendar.Open date → startAfter < date → date ≤ last →
      (∃ work ∈ s.committed, work.item = .tradeDate date) ∨ date ∈ dates) →
      Truthful calendar (dates.foldl (persistGlobal runId) s) := by
  intro dates
  induction dates with
  | nil => exact fun h _ _ _ _ => h
  | cons next dates ih =>
    intro s h hsorted hwithin hlevel hknown
    obtain ⟨hlater, hrest⟩ := List.pairwise_cons.mp hsorted
    obtain ⟨hafter, hle⟩ := hwithin next List.mem_cons_self
    have hmono : s.committed ⊆ (persistGlobal runId s next).committed :=
      fun _ hwork => List.mem_append_left _ hwork
    have hnext : ∀ scope, Covered (persistGlobal runId s next) scope next := fun scope =>
      ⟨⟨runId, .tradeDate next⟩, List.mem_append_right _ (List.mem_singleton.mpr rfl), rfl⟩
    -- A session up to this one is committed before, or is this one.
    have hcommitted : ∀ date, calendar.Open date → startAfter < date → date ≤ next →
        ∀ scope, Covered (persistGlobal runId s next) scope date := by
      intro date hopen hstart hbound scope
      rcases hknown date hopen hstart (hbound.trans hle) with ⟨work, hwork, hitem⟩ | hmem
      · refine ⟨work, hmono hwork, ?_⟩
        rw [hitem]
        rfl
      · rcases List.mem_cons.mp hmem with rfl | hmem
        · exact hnext scope
        · exact absurd hbound (not_le.mpr (hlater date hmem))
    apply ih _ hrest (fun date hdate => hwithin date (List.mem_cons_of_mem _ hdate))
    · intro watermark hwatermark hscope date hopen hbeyond hbound
      rcases mem_upsert_key hwatermark with hold | ⟨rfl, -⟩ | ⟨old, hold, -, rfl⟩
      · exact hlevel watermark hold hscope date hopen hbeyond hbound
      · exact hafter.trans hbeyond
      · exact hafter.trans hbeyond
    · intro date hopen hstart hbound
      rcases hknown date hopen hstart hbound with ⟨work, hwork, hitem⟩ | hmem
      · exact .inl ⟨work, hmono hwork, hitem⟩
      · rcases List.mem_cons.mp hmem with rfl | hmem
        · exact .inl ⟨⟨runId, .tradeDate date⟩,
            List.mem_append_right _ (List.mem_singleton.mpr rfl), rfl⟩
        · exact .inr hmem
    · intro watermark hwatermark date hopen hstart hend
      rcases mem_upsert_key hwatermark with hold | ⟨rfl, -⟩ | ⟨old, hold, hscope, rfl⟩
      · exact (h watermark hold date hopen hstart hend).mono hmono
      · rw [le_antisymm hend hstart]
        exact hnext _
      · show Covered _ old.scope date
        by_cases hin : date ≤ old.coverageEnd
        · rcases min_le_iff.mp hstart with hsame | hstored
          · rw [le_antisymm hend hsame]
            exact hnext _
          · exact (h old hold date hopen hstored hin).mono hmono
        · apply hcommitted date hopen _ hend
          exact hlevel old hold hscope date hopen (not_le.mp hin) (le_trans hend hle)

/-! ## One synchronisation -/

/-- What holds of every state. -/
structure Sound (calendar : TradeCalendar) (s : World) : Prop where
  keyed : Unique Watermark.scope s.watermarks
  truthful : Truthful calendar s

theorem keyed_foldl {β : Type} {f : World → β → World}
    (hf : ∀ s b, Unique Watermark.scope s.watermarks → Unique Watermark.scope (f s b).watermarks) :
    ∀ {steps : List β} {s : World}, Unique Watermark.scope s.watermarks →
      Unique Watermark.scope (steps.foldl f s).watermarks := by
  intro steps
  induction steps with
  | nil => exact fun h => h
  | cons b steps ih => exact fun h => ih (hf _ b h)

theorem keyed_persistInstrument (s : World) (entry : Entry)
    (h : Unique Watermark.scope s.watermarks) :
    Unique Watermark.scope (persistInstrument runId s entry).watermarks := by
  unfold persistInstrument
  dsimp only
  split_ifs
  · exact h.upsert _ _
  · exact h

theorem keyed_persistTradeDates {dates : List Date} (h : Unique Watermark.scope s.watermarks) :
    Unique Watermark.scope (persistTradeDates runId s dates).watermarks := by
  unfold persistTradeDates
  cases dates.getLast? with
  | none => exact h
  | some last => exact h.map (fun watermark _ => (reach_cases last watermark).1)

section Sessions

variable {sync : Synchronisation} {startAfter reach : Date}

theorem reached_advanceTo (h : advanceTo calendar sync s startAfter = some reach) :
    Reached calendar (persistTradeDates sync.request.runId s
      ((pending calendar sync.request s startAfter).take sync.outcome.count)) startAfter reach := by
  unfold advanceTo at h
  split_ifs at h with hfinished hpending hfast
  · obtain ⟨published, -, rfl⟩ := Option.map_eq_some_iff.mp h
    rw [hpending, List.take_nil]
    intro date hopen hafter hle
    exact reached_of_pending_nil hpending date hopen hafter (hle.trans (min_le_right _ _))
  · exact reached_persist h

theorem mem_persistTradeDates {dates : List Date} {watermark : Watermark}
    (h : watermark ∈ (persistTradeDates sync.request.runId s dates).watermarks) :
    ∃ old ∈ s.watermarks, watermark.scope = old.scope ∧
      watermark.coverageStart = old.coverageStart ∧ old.coverageEnd ≤ watermark.coverageEnd ∧
        ∀ date, date ≤ watermark.coverageEnd →
          date ≤ old.coverageEnd ∨ ∃ last ∈ dates.getLast?, date ≤ last := by
  unfold persistTradeDates at h
  cases hlast : dates.getLast? with
  | none =>
    rw [hlast] at h
    exact ⟨watermark, h, rfl, rfl, le_rfl, fun date hdate => .inl hdate⟩
  | some last =>
    rw [hlast] at h
    obtain ⟨old, hold, rfl⟩ := List.mem_map.mp h
    obtain ⟨hscope, hstart, hle, hends⟩ := reach_cases last old
    exact ⟨old, hold, hscope, hstart, hle,
      fun date hdate => (hends date hdate).imp_right (fun hbound => ⟨last, rfl, hbound⟩)⟩

theorem mem_persistTradeDates_of_mem {dates : List Date} {old : Watermark}
    (h : old ∈ s.watermarks) :
    ∃ watermark ∈ (persistTradeDates sync.request.runId s dates).watermarks,
      watermark.scope = old.scope ∧ watermark.coverageStart = old.coverageStart := by
  unfold persistTradeDates
  cases dates.getLast? with
  | none => exact ⟨old, h, rfl, rfl⟩
  | some last =>
    exact ⟨old.reach last, List.mem_map_of_mem h, (reach_cases last old).1,
      (reach_cases last old).2.1⟩

theorem advanceTo_last (h : advanceTo calendar sync s startAfter = some reach) :
    ∀ last ∈ ((pending calendar sync.request s startAfter).take sync.outcome.count).getLast?,
      last = reach := by
  intro last hlast
  unfold advanceTo at h
  split_ifs at h with hfinished hpending hfast
  · rw [hpending, List.take_nil] at hlast
    cases hlast
  · rw [Option.mem_def, h] at hlast
    exact (Option.some.inj hlast).symm

theorem Sound.syncSessions (h : Sound calendar s)
    (hlevel : ∀ reach ∈
      ((pending calendar sync.request s startAfter).take sync.outcome.count).getLast?,
        Level calendar sync.request.moves s startAfter reach)
    (hadvance : ∀ reach ∈ advanceTo calendar sync s startAfter,
      Level calendar sync.request.moves s startAfter reach ∧
        ∀ security ∈ advanced sync.request.securities reach,
          Begun calendar s startAfter reach security) :
    Sound calendar (syncSessions calendar sync s startAfter) := by
  unfold Coverage.syncSessions
  dsimp only
  split_ifs with hraw
  · refine ⟨keyed_foldl (fun _ _ hkeyed => hkeyed.upsert _ _) h.keyed, ?_⟩
    cases hlast :
        ((pending calendar sync.request s startAfter).take sync.outcome.count).getLast? with
    | none =>
      rw [List.getLast?_eq_none_iff.mp hlast]
      exact h.truthful
    | some last =>
      have hsorted := (pending_sorted calendar sync.request s startAfter).sublist
        (List.take_sublist sync.outcome.count _)
      apply h.truthful.persistGlobals _ hsorted
      · intro date hdate
        have hpending := (mem_pending.mp (List.mem_of_mem_take hdate)).2.1
        refine ⟨hpending, ?_⟩
        have hordered : orderBy id
            ((pending calendar sync.request s startAfter).take sync.outcome.count) =
              (pending calendar sync.request s startAfter).take sync.outcome.count :=
          orderBy_of_sorted (hsorted.imp le_of_lt)
        rw [← hordered] at hlast
        exact (le_of_getLast?_orderBy hlast).2 date hdate
      · intro watermark hwatermark hscope
        exact hlevel last hlast watermark hwatermark (fun _ => hscope)
      · intro date hopen hafter hle
        exact (pending_take hlast hopen hafter hle).imp_left (fun hdone => ⟨_, hdone, rfl⟩)
  · have hall : ∀ {reach : Date}, Level calendar sync.request.moves s startAfter reach →
        Level calendar (fun _ => True) s startAfter reach :=
      fun hmoves watermark hwatermark _ =>
        hmoves watermark hwatermark (fun heq => absurd heq hraw)
    have hdates : Truthful calendar (persistTradeDates sync.request.runId s
        ((pending calendar sync.request s startAfter).take sync.outcome.count)) :=
      h.truthful.persistTradeDates (fun reach hreach => hall (hlevel reach hreach))
    have hkeyed : Unique Watermark.scope (persistTradeDates sync.request.runId s
        ((pending calendar sync.request s startAfter).take sync.outcome.count)).watermarks :=
      keyed_persistTradeDates h.keyed
    cases hadvanceTo : advanceTo calendar sync s startAfter with
    | none => exact ⟨hkeyed, hdates⟩
    | some reach =>
      obtain ⟨hlevelReach, hbegun⟩ := hadvance reach hadvanceTo
      dsimp only
      rw [advanceSparse_eq]
      refine ⟨keyed_foldl (fun _ _ hunique => hunique.upsert _ _) hkeyed, ?_⟩
      apply hdates.advanceAll hkeyed (reached_advanceTo hadvanceTo)
      · intro watermark hwatermark _ date hopen hbeyond hle
        obtain ⟨old, hold, -, -, hends, -⟩ := mem_persistTradeDates hwatermark
        exact hall hlevelReach old hold trivial date hopen (lt_of_le_of_lt hends hbeyond) hle
      · exact sync.request.keyed.sublist (List.filter_sublist.map _)
      · intro security hsecurity
        have hbefore := hbegun security hsecurity
        constructor
        · intro date hopen hlisted hle hunstarted
          apply hbefore.fetched date hopen hlisted hle
          intro old hold hscope
          obtain ⟨watermark, hwatermark, hsame, hstart⟩ := mem_persistTradeDates_of_mem hold
          rw [← hstart]
          exact hunstarted watermark hwatermark (hsame.trans hscope)
        · intro watermark hwatermark hscope date hopen hlisted hunstarted hin
          obtain ⟨old, hold, hsame, hstart, -, hends⟩ := mem_persistTradeDates hwatermark
          rw [hstart] at hunstarted
          rcases hends date hin with hstored | ⟨last, hlast, hle⟩
          · exact hbefore.joined old hold (hsame.symm.trans hscope) date hopen hlisted hunstarted
              hstored
          · rw [advanceTo_last hadvanceTo last hlast] at hle
            exact hle

end Sessions

theorem Sound.next {sync : Synchronisation} (h : Sound calendar s)
    (hattached : Attached settings calendar s sync) :
    Sound calendar (s.next settings calendar sync) := by
  unfold Attached at hattached
  unfold World.next
  cases hplan : sync.request.plan settings calendar s with
  | raises => exact h
  | instruments entries =>
    rw [hplan] at hattached
    have hjoins : ∀ entry ∈ entries, entry.first ≤ entry.last → Joins calendar s entry := hattached
    have hnodup : (entries.map Entry.symbol).Nodup := by
      unfold Request.plan at hplan
      dsimp only at hplan
      split at hplan
      · cases hplan
      · cases hplan
      · split at hplan
        · cases hplan
          exact entries_nodup ‹_›
        · cases hplan
    refine ⟨keyed_foldl keyed_persistInstrument h.keyed, ?_⟩
    apply h.truthful.persistInstruments _ (hnodup.sublist (List.filter_sublist.map _))
    exact fun entry hentry => hjoins entry (List.mem_of_mem_filter hentry)
  | sessions startAfter =>
    rw [hplan] at hattached
    exact h.syncSessions hattached.1 hattached.2

/-- In a run of attached synchronisations every watermark tells the truth. -/
theorem watermarks_truthful (settings : Settings) (calendar : TradeCalendar) (s : World)
    (hs : Sound calendar s) (before after : List Synchronisation)
    (haccepts : ((synchronisations settings calendar).restrict
      (Attached settings calendar)).Accepts s (before ++ after)) :
    Truthful calendar ((synchronisations settings calendar).after s before) := by
  have hstep : ∀ (t : World) sync, Sound calendar t →
      ((synchronisations settings calendar).restrict (Attached settings calendar)).allowed t sync →
        Sound calendar (t.next settings calendar sync) :=
    fun _ _ ht hsync => ht.next hsync.2
  exact (Machine.invariant hstep before s hs
    ((Machine.accepts_append before s after).mp haccepts).1).truthful

end Proofs

/-! ## A backfill of the last year -/

section Decidable

variable (calendar : TradeCalendar) (s : World)

theorem forall_open_iff {P : Date → Prop} : (∀ date, calendar.Open date → P date) ↔
    ∀ row ∈ calendar.rows, row.market = "china" → row.isOpen → P row.tradeDate := by
  constructor
  · exact fun h row hrow hmarket hopen => h _ ⟨row, hrow, hmarket, hopen, rfl⟩
  · rintro h date ⟨row, hrow, hmarket, hopen, rfl⟩
    exact h row hrow hmarket hopen

instance (P : Date → Prop) [DecidablePred P] : Decidable (∀ date, calendar.Open date → P date) :=
  decidable_of_iff _ (forall_open_iff calendar).symm

instance (entry : Entry) : Decidable (Joins calendar s entry) :=
  inferInstanceAs (Decidable (∀ watermark ∈ s.watermarks, watermark.scope = entry.symbol →
    ∀ date, calendar.Open date → watermark.coverageEnd < date → entry.first ≤ date))

instance (moves : String → Prop) [DecidablePred moves] (startAfter reach : Date) :
    Decidable (Level calendar moves s startAfter reach) :=
  inferInstanceAs (Decidable (∀ watermark ∈ s.watermarks, moves watermark.scope →
    ∀ date, calendar.Open date → watermark.coverageEnd < date → date ≤ reach →
      startAfter < date))

instance (startAfter reach : Date) (security : Security) :
    Decidable (Begun calendar s startAfter reach security) :=
  decidable_of_iff
    ((∀ date, calendar.Open date → security.listedDate.getD unknownListing ≤ date →
        date ≤ reach → (∀ watermark ∈ s.watermarks, watermark.scope = security.symbol →
          date < watermark.coverageStart) → startAfter < date) ∧
      ∀ watermark ∈ s.watermarks, watermark.scope = security.symbol → ∀ date,
        calendar.Open date → security.listedDate.getD unknownListing ≤ date →
          date < watermark.coverageStart → date ≤ watermark.coverageEnd → date ≤ reach)
    ⟨fun h => ⟨h.1, h.2⟩, fun h => ⟨h.fetched, h.joined⟩⟩

instance (request : Request) : DecidablePred request.moves := fun scope =>
  inferInstanceAs (Decidable (request.function = .marketRaw → scope = "global"))

instance (sync : Synchronisation) : ∀ plan, Decidable (AttachedTo calendar s sync plan)
  | .raises => .isTrue trivial
  | .instruments entries => inferInstanceAs (Decidable (∀ entry ∈ entries,
      entry.first ≤ entry.last → Joins calendar s entry))
  | .sessions startAfter => inferInstanceAs (Decidable
      ((∀ reach ∈ ((pending calendar sync.request s startAfter).take sync.outcome.count).getLast?,
        Level calendar sync.request.moves s startAfter reach) ∧
      ∀ reach ∈ advanceTo calendar sync s startAfter,
        Level calendar sync.request.moves s startAfter reach ∧
          ∀ security ∈ advanced sync.request.securities reach,
            Begun calendar s startAfter reach security))

instance (settings : Settings) (sync : Synchronisation) :
    Decidable (Attached settings calendar s sync) :=
  inferInstanceAs (Decidable (AttachedTo _ _ _ _))

instance (settings : Settings) (sync : Synchronisation) :
    Decidable ((synchronisations settings calendar).allowed s sync) :=
  .isTrue trivial

end Decidable

def emptyWorld : World := ⟨[], []⟩

theorem emptyWorld_sound (calendar : TradeCalendar) : Sound calendar emptyWorld :=
  ⟨List.nodup_nil, fun _ hwatermark => absurd hwatermark List.not_mem_nil⟩

/-- A synchronisation by sessions of a dataset with one security. -/
def sampleSync (listed endDate : Date) (fullRefresh : Bool) (minimumStart : Option Date)
    (count : ℕ) : Synchronisation where
  request :=
    { function := .fast
      runId := if fullRefresh then "run-1" else "run-2"
      endDate := endDate
      fullRefresh := fullRefresh
      minimumStart := minimumStart
      retryFailedOnly := false
      retrySymbols := []
      securities := [⟨"600000", true, some listed, none⟩]
      keyed := List.nodup_singleton _
      resumedSymbolWork := false
      dateEndpoint := true
      latest := fun _ => none
      latestRaw := none
      root := none }
  outcome := ⟨[], count, true⟩

def sampleSyncs : List Synchronisation :=
  [sampleSync (july 1) (july 12) true none 3, sampleSync (july 1) (july 12) false none 9]

theorem sampleSyncs_truthful : Truthful sampleCalendar
    ((synchronisations sampleSettings sampleCalendar).after emptyWorld sampleSyncs) :=
  watermarks_truthful sampleSettings sampleCalendar emptyWorld (emptyWorld_sound _) sampleSyncs []
    (by decide +kernel)

def listingDay : Date := ⟨2000, 1, 4, by decide⟩

def asOfDate : Date := ⟨2026, 7, 10, by decide⟩

/-- A session of the first year, and one of the last. -/
def longCalendar : TradeCalendar where
  rows := [⟨"china", listingDay, true⟩, ⟨"china", asOfDate, true⟩]
  keyed := by decide +kernel

def backfill : Synchronisation :=
  sampleSync listingDay asOfDate true (some ⟨2025, 4, 6, by decide⟩) 1

theorem backfill_untruthful : Sound longCalendar emptyWorld ∧
    ¬ Truthful longCalendar
      ((synchronisations sampleSettings longCalendar).after emptyWorld [backfill]) := by
  refine ⟨emptyWorld_sound _, fun h => ?_⟩
  have hwatermarks : ((synchronisations sampleSettings longCalendar).after emptyWorld
      [backfill]).watermarks = [⟨"600000", listingDay, asOfDate⟩] := by
    decide +kernel
  have hcommitted : ((synchronisations sampleSettings longCalendar).after emptyWorld
      [backfill]).committed = [⟨"run-1", .tradeDate asOfDate⟩] := by
    decide +kernel
  obtain ⟨work, hwork, hcovers⟩ := h _ (hwatermarks ▸ List.mem_cons_self) listingDay
    ⟨_, List.mem_cons_self, rfl, rfl, rfl⟩ le_rfl (by decide)
  rw [hcommitted] at hwork
  rw [List.mem_singleton.mp hwork] at hcovers
  have hsame : asOfDate = listingDay := hcovers
  exact absurd hsame (by decide)

end LocalPlatform.DataSync.Coverage
