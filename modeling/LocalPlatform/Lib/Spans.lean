import Mathlib.Order.MinMax
import Mathlib.Data.List.Induction

/-!
# Spans of membership from a log of changes

A member enters and is removed, each on a date, and a `Track` turns the log of these changes
into spans: an enter opens a span, and a remove closes the open one on the last open day before it.

* `memberAt` replays the log up to a date.
* `Ordered` is the order of a log: by date, and on one date the removes first.
* `Previous` says what a calendar has to answer for the closing day.
* `cells` are the spans between the dates of snapshots, which have no log: `cells_covers_iff` says
  which of them covers an open day.
* `run_tracked` is the invariant of a track along an ordered log, and `covers_iff` and
  `spans_disjoint` are read from it.
-/

namespace LocalPlatform.Spans

variable {τ : Type} [LinearOrder τ]

/-- What a log records of a member. -/
inductive Change where
  | remove
  | enter
  deriving DecidableEq

/-- The days from `first` to `last`, or from `first` on. -/
structure Span (τ : Type) where
  first : τ
  last : Option τ
  deriving DecidableEq

def Span.Covers (span : Span τ) (day : τ) : Prop :=
  span.first ≤ day ∧ ∀ last, span.last = some last → day ≤ last

instance (span : Span τ) (day : τ) : Decidable (span.Covers day) :=
  decidable_of_iff (span.first ≤ day ∧ span.last.all (fun last => day ≤ last) = true) (by
    unfold Span.Covers
    cases span.last <;> simp)

/-- The spans that are closed, in order, and the open one. -/
structure Track (τ : Type) where
  closed : List (Span τ)
  active : Option (Span τ)
  deriving DecidableEq

/-- The spans in the order in which they were opened. -/
def Track.spans (track : Track τ) : List (Span τ) := track.closed ++ track.active.toList

/-- The open span ends on the day before the remove, and not before it began. -/
def Span.close (previous : τ → τ) (span : Span τ) (date : τ) : Span τ :=
  { span with last := some (max (previous date) span.first) }

def Track.step (previous : τ → τ) (track : Track τ) : τ × Change → Track τ
  | (date, .remove) =>
    match track.active with
    | some span => { closed := track.closed ++ [span.close previous date], active := none }
    | none => track
  | (date, .enter) =>
    match track.active with
    | some _ => track
    | none => { track with active := some { first := date, last := none } }

/-- The track of a log, from the span that is open at its start. -/
def Track.run (previous : τ → τ) (start : Option (Span τ)) (log : List (τ × Change)) : Track τ :=
  log.foldl (Track.step previous) { closed := [], active := start }

/-- Membership at a date, by replaying the log up to it. -/
def memberAt (initial : Bool) (log : List (τ × Change)) (day : τ) : Bool :=
  ((log.filter (fun change => change.1 ≤ day)).map Prod.snd).foldl
    (fun _ change => change == .enter) initial

/-- By date, and the removes of a date before its enters. -/
def Ordered (a b : τ × Change) : Prop :=
  a.1 < b.1 ∨ a.1 = b.1 ∧ (a.2 = .remove ∨ b.2 = .enter)

/-- `previous` answers a day before the one it is asked about, with no open day between. -/
structure Previous (isOpen : τ → Prop) (previous : τ → τ) : Prop where
  lt : ∀ date, previous date < date
  no_gap : ∀ date day, isOpen day → day < date → day ≤ previous date

/-! ## One change -/

theorem memberAt_snoc (initial : Bool) (log : List (τ × Change)) (date : τ) (change : Change)
    (day : τ) : memberAt initial (log ++ [(date, change)]) day =
      if date ≤ day then change == .enter else memberAt initial log day := by
  unfold memberAt
  by_cases h : date ≤ day <;> simp [List.filter_append, h]

theorem memberAt_cons (initial : Bool) (change : τ × Change) (log : List (τ × Change)) (day : τ) :
    memberAt initial (change :: log) day =
      memberAt (if change.1 ≤ day then change.2 == .enter else initial) log day := by
  unfold memberAt
  by_cases h : change.1 ≤ day <;> simp [h]

theorem Ordered.le {a b : τ × Change} (h : Ordered a b) : a.1 ≤ b.1 := by
  cases h with
  | inl h => exact h.le
  | inr h => exact h.1.le

theorem Ordered.antisymm {a b : τ × Change} (hab : Ordered a b) (hba : Ordered b a) : a = b := by
  have hdate : a.1 = b.1 := le_antisymm hab.le hba.le
  have hchange : a.2 = b.2 := by
    rcases hab with h | ⟨-, hab⟩
    · exact absurd hdate h.ne
    rcases hba with h | ⟨-, hba⟩
    · exact absurd hdate h.ne'
    cases ha : a.2 <;> cases hb : b.2 <;> simp_all
  exact Prod.ext hdate hchange

variable {previous : τ → τ} {isOpen : τ → Prop} {span : Span τ} {day : τ}

theorem Span.close_covers (h : Previous isOpen previous) {date : τ} (hfirst : span.first < date)
    (hopen : isOpen day) :
    (span.close previous date).Covers day ↔ span.first ≤ day ∧ day < date := by
  constructor
  · intro hcovers
    have hlast := hcovers.2 _ rfl
    exact ⟨hcovers.1, lt_of_le_of_lt hlast (max_lt (h.lt date) hfirst)⟩
  · intro hbounds
    refine ⟨hbounds.1, ?_⟩
    intro last hlast
    injection hlast with hlast
    rw [← hlast]
    exact le_trans (h.no_gap date day hopen hbounds.2) (le_max_left _ _)

/-! ## A whole log -/

/-- What a track keeps along an ordered log, from the span that is open at its start. -/
structure Tracked (isOpen : τ → Prop) (origin : τ) (start : Option (Span τ))
    (log : List (τ × Change)) (track : Track τ) : Prop where
  closed_ended : ∀ span ∈ track.closed,
    ∃ last, span.last = some last ∧ span.first ≤ last ∧ ∃ change ∈ log, last < change.1
  closed_disjoint : track.closed.Pairwise (fun a b => ∀ last, a.last = some last → last < b.first)
  active_after : ∀ span, track.active = some span →
    ∀ old ∈ track.closed, ∀ last, old.last = some last → last < span.first
  active_origin : ∀ span, track.active = some span →
    (start = some span ∧ ∀ change ∈ log, change.2 = .enter) ∨
      (span.last = none ∧ (span.first, .enter) ∈ log)
  covers : ∀ day, isOpen day → origin ≤ day →
    (((∃ span ∈ track.closed, span.Covers day) ∨
        ∃ span, track.active = some span ∧ span.first ≤ day) ↔
      memberAt start.isSome log day = true)

section Run

variable {isOpen : τ → Prop} {previous : τ → τ} {origin : τ} {start : Option (Span τ)}
  {log : List (τ × Change)} {track : Track τ} {date : τ}

theorem Tracked.closed_before (h : Tracked isOpen origin start log track)
    (hdate : ∀ change ∈ log, change.1 ≤ date) {span : Span τ} (hspan : span ∈ track.closed) :
    ∃ last, span.last = some last ∧ last < date := by
  obtain ⟨last, hlast, -, change, hchange, hlt⟩ := h.closed_ended span hspan
  exact ⟨last, hlast, lt_of_lt_of_le hlt (hdate change hchange)⟩

theorem Tracked.not_covers_closed (h : Tracked isOpen origin start log track) {day : τ}
    (hdate : ∀ change ∈ log, change.1 ≤ date) (hday : date ≤ day) :
    ¬ ∃ span ∈ track.closed, span.Covers day := by
  rintro ⟨span, hspan, hcovers⟩
  obtain ⟨last, hlast, hlt⟩ := h.closed_before hdate hspan
  exact absurd (hcovers.2 last hlast) (not_le.mpr (lt_of_lt_of_le hlt hday))

theorem Tracked.enter (h : Tracked isOpen origin start log track)
    (hdate : ∀ change ∈ log, change.1 ≤ date)
    (hstarted : ∀ span, start = some span → ∀ day, isOpen day → origin ≤ day → span.first ≤ day) :
    Tracked isOpen origin start (log ++ [(date, .enter)])
      (track.step previous (date, .enter)) := by
  have hended : ∀ span ∈ track.closed, ∃ last, span.last = some last ∧ span.first ≤ last ∧
      ∃ change ∈ log ++ [(date, .enter)], last < change.1 := by
    intro span hspan
    obtain ⟨last, hlast, hle, change, hchange, hlt⟩ := h.closed_ended span hspan
    exact ⟨last, hlast, hle, change, List.mem_append_left _ hchange, hlt⟩
  cases hactive : track.active with
  | some open_ =>
    have hstep : track.step previous (date, .enter) = track := by
      simp [Track.step, hactive]
    rw [hstep]
    have horigin := h.active_origin open_ hactive
    exact
      { closed_ended := hended
        closed_disjoint := h.closed_disjoint
        active_after := h.active_after
        active_origin := by
          intro span hspan
          rw [hactive] at hspan
          injection hspan with hspan
          subst hspan
          cases horigin with
          | inl hstart =>
            refine .inl ⟨hstart.1, ?_⟩
            intro change hchange
            cases List.mem_append.mp hchange with
            | inl hold => exact hstart.2 change hold
            | inr hnew => rw [List.mem_singleton.mp hnew]
          | inr hentered =>
            exact .inr ⟨hentered.1, List.mem_append_left _ hentered.2⟩
        covers := by
          intro day hopen hday
          rw [memberAt_snoc]
          by_cases hafter : date ≤ day
          · rw [if_pos hafter]
            have hfirst : open_.first ≤ day := by
              cases horigin with
              | inl hstart => exact hstarted open_ hstart.1 day hopen hday
              | inr hentered => exact le_trans (hdate _ hentered.2) hafter
            simp only [beq_self_eq_true, iff_true]
            exact .inr ⟨open_, hactive, hfirst⟩
          · rw [if_neg hafter]
            exact h.covers day hopen hday }
  | none =>
    have hstep : track.step previous (date, .enter) =
        { track with active := some { first := date, last := none } } := by
      simp [Track.step, hactive]
    rw [hstep]
    exact
      { closed_ended := hended
        closed_disjoint := h.closed_disjoint
        active_after := by
          intro span hspan old hold last hlast
          injection hspan with hspan
          obtain ⟨last', hlast', hlt⟩ := h.closed_before hdate hold
          rw [hlast] at hlast'
          injection hlast' with hlast'
          rw [← hspan, hlast']
          exact hlt
        active_origin := by
          intro span hspan
          injection hspan with hspan
          subst hspan
          exact .inr ⟨rfl, by simp⟩
        covers := by
          intro day hopen hday
          rw [memberAt_snoc]
          by_cases hafter : date ≤ day
          · rw [if_pos hafter]
            simp only [beq_self_eq_true, iff_true]
            exact .inr ⟨_, rfl, hafter⟩
          · rw [if_neg hafter, ← h.covers day hopen hday, hactive]
            simp [hafter] }

theorem Tracked.remove (h : Tracked isOpen origin start log track)
    (hprevious : Previous isOpen previous)
    (hordered : ∀ change ∈ log, Ordered change (date, .remove))
    (hremoved : ∀ span, start = some span → span.first < date) :
    Tracked isOpen origin start (log ++ [(date, .remove)])
      (track.step previous (date, .remove)) := by
  have hdate : ∀ change ∈ log, change.1 ≤ date := fun change hchange =>
    (hordered change hchange).le
  have hended : ∀ span ∈ track.closed, ∃ last, span.last = some last ∧ span.first ≤ last ∧
      ∃ change ∈ log ++ [(date, .remove)], last < change.1 := by
    intro span hspan
    obtain ⟨last, hlast, hle, change, hchange, hlt⟩ := h.closed_ended span hspan
    exact ⟨last, hlast, hle, change, List.mem_append_left _ hchange, hlt⟩
  cases hactive : track.active with
  | none =>
    have hstep : track.step previous (date, .remove) = track := by
      simp [Track.step, hactive]
    rw [hstep]
    exact
      { closed_ended := hended
        closed_disjoint := h.closed_disjoint
        active_after := h.active_after
        active_origin := by
          intro span hspan
          rw [hactive] at hspan
          cases hspan
        covers := by
          intro day hopen hday
          rw [memberAt_snoc]
          by_cases hafter : date ≤ day
          · have hnot := h.not_covers_closed hdate hafter
            rw [if_pos hafter, hactive]
            simpa using hnot
          · rw [if_neg hafter]
            exact h.covers day hopen hday }
  | some span =>
    -- the open span began before the remove, since a date's removes come first
    have hfirst : span.first < date := by
      cases h.active_origin span hactive with
      | inl hstart => exact hremoved span hstart.1
      | inr hentered =>
        cases hordered _ hentered.2 with
        | inl hlt => exact hlt
        | inr hsame => simp at hsame
    have hstep : track.step previous (date, .remove) =
        { closed := track.closed ++ [span.close previous date], active := none } := by
      simp [Track.step, hactive]
    rw [hstep]
    exact
      { closed_ended := by
          intro old hold
          cases List.mem_append.mp hold with
          | inl hold => exact hended old hold
          | inr hnew =>
            rw [List.mem_singleton.mp hnew]
            exact ⟨_, rfl, le_max_right _ _, (date, .remove), by simp,
              max_lt (hprevious.lt date) hfirst⟩
        closed_disjoint := by
          rw [List.pairwise_append]
          refine ⟨h.closed_disjoint, List.pairwise_singleton _ _, ?_⟩
          intro old hold new hnew last hlast
          rw [List.mem_singleton.mp hnew]
          exact h.active_after span hactive old hold last hlast
        active_after := by
          intro other hother
          cases hother
        active_origin := by
          intro other hother
          cases hother
        covers := by
          intro day hopen hday
          have hnew : (span.close previous date).Covers day ↔ span.first ≤ day ∧ day < date :=
            span.close_covers hprevious hfirst hopen
          rw [memberAt_snoc]
          by_cases hafter : date ≤ day
          · have hnot := h.not_covers_closed hdate hafter
            rw [if_pos hafter]
            simp only [List.mem_append, List.mem_singleton, or_and_right, exists_or,
              exists_eq_left, hnew, not_lt.mpr hafter, and_false, or_false]
            simpa using hnot
          · rw [if_neg hafter, ← h.covers day hopen hday, hactive]
            simp [or_and_right, exists_or, hnew, not_le.mp hafter] }

theorem run_tracked (hprevious : Previous isOpen previous)
    (hstarted : ∀ span, start = some span → ∀ day, isOpen day → origin ≤ day → span.first ≤ day)
    (hordered : log.Pairwise Ordered)
    (hremoved : ∀ span, start = some span →
      ∀ change ∈ log, change.2 = .remove → span.first < change.1) :
    Tracked isOpen origin start log (Track.run previous start log) := by
  induction log using List.reverseRecOn with
  | nil =>
    exact
      { closed_ended := by simp [Track.run]
        closed_disjoint := List.Pairwise.nil
        active_after := by simp [Track.run]
        active_origin := fun span hspan => .inl ⟨hspan, by simp⟩
        covers := by
          intro day hopen hday
          show _ ↔ start.isSome = true
          cases hstart : start with
          | none => simp [Track.run]
          | some span => simpa [Track.run] using hstarted span hstart day hopen hday }
  | append_singleton log change ih =>
    rw [List.pairwise_append] at hordered
    have hbefore : ∀ old ∈ log, Ordered old change := fun old hold =>
      hordered.2.2 old hold change List.mem_cons_self
    have hprefix := ih hordered.1 (fun span hspan old hold =>
      hremoved span hspan old (List.mem_append_left _ hold))
    have hstep : Track.run previous start (log ++ [change]) =
        (Track.run previous start log).step previous change := by
      simp [Track.run, List.foldl_append]
    rw [hstep]
    obtain ⟨date, change⟩ := change
    cases change with
    | enter =>
      exact hprefix.enter (fun old hold => (hbefore old hold).le) hstarted
    | remove =>
      exact hprefix.remove hprevious hbefore
        (fun span hspan => hremoved span hspan (date, .remove) (by simp) rfl)

theorem Tracked.active_open (h : Tracked isOpen origin start log track)
    (hends : ∀ span, start = some span →
      span.last = none ∨ ∃ change ∈ log, change.2 = .remove)
    {span : Span τ} (hspan : track.active = some span) : span.last = none := by
  cases h.active_origin span hspan with
  | inr hentered => exact hentered.1
  | inl hstart =>
    cases hends span hstart.1 with
    | inl hnone => exact hnone
    | inr hremove =>
      obtain ⟨change, hchange, hremove⟩ := hremove
      have henter := hstart.2 change hchange
      rw [hremove] at henter
      cases henter

theorem Tracked.covers_iff (h : Tracked isOpen origin start log track)
    (hends : ∀ span, start = some span →
      span.last = none ∨ ∃ change ∈ log, change.2 = .remove)
    {day : τ} (hopen : isOpen day) (hday : origin ≤ day) :
    (∃ span ∈ track.spans, span.Covers day) ↔ memberAt start.isSome log day = true := by
  rw [← h.covers day hopen hday]
  have hactive : (∃ span ∈ track.active.toList, span.Covers day) ↔
      ∃ span, track.active = some span ∧ span.first ≤ day := by
    constructor
    · rintro ⟨span, hspan, hcovers⟩
      exact ⟨span, Option.mem_toList.mp hspan, hcovers.1⟩
    · rintro ⟨span, hspan, hfirst⟩
      refine ⟨span, Option.mem_toList.mpr hspan, hfirst, ?_⟩
      intro last hlast
      rw [h.active_open hends hspan] at hlast
      cases hlast
  rw [← hactive]
  simp [Track.spans, or_and_right, exists_or]

def Span.Disjoint (a b : Span τ) : Prop := ∀ day, ¬ (a.Covers day ∧ b.Covers day)

theorem Span.Disjoint.symm {a b : Span τ} (h : a.Disjoint b) : b.Disjoint a :=
  fun day hcovers => h day ⟨hcovers.2, hcovers.1⟩

theorem Span.disjoint_of_lt {a b : Span τ} {last : τ} (hlast : a.last = some last)
    (h : last < b.first) : a.Disjoint b := by
  intro day hcovers
  exact absurd (lt_of_le_of_lt (hcovers.1.2 last hlast) h) (not_lt.mpr hcovers.2.1)

theorem Tracked.spans_disjoint (h : Tracked isOpen origin start log track)
    (hends : ∀ span, start = some span →
      span.last = none ∨ ∃ change ∈ log, change.2 = .remove) :
    track.spans.Pairwise Span.Disjoint ∧
      ∀ span ∈ track.spans, ∀ last, span.last = some last → span.first ≤ last := by
  have hclosed : ∀ span ∈ track.closed, ∀ next : Span τ,
      (∀ last, span.last = some last → last < next.first) → span.Disjoint next := by
    intro span hspan next hnext
    obtain ⟨last, hlast, -⟩ := h.closed_ended span hspan
    exact Span.disjoint_of_lt hlast (hnext last hlast)
  constructor
  · unfold Track.spans
    rw [List.pairwise_append]
    refine ⟨?_, ?_, ?_⟩
    · exact h.closed_disjoint.imp_of_mem (fun ha _ hlt => hclosed _ ha _ hlt)
    · cases track.active with
      | none => exact List.Pairwise.nil
      | some span => exact List.pairwise_singleton _ _
    · intro old hold span hspan
      exact hclosed old hold span
        (h.active_after span (Option.mem_toList.mp hspan) old hold)
  · intro span hspan last hlast
    cases List.mem_append.mp hspan with
    | inl hspan =>
      obtain ⟨last', hlast', hle, -⟩ := h.closed_ended span hspan
      rw [hlast] at hlast'
      injection hlast' with hlast'
      rw [hlast']
      exact hle
    | inr hspan =>
      rw [h.active_open hends (Option.mem_toList.mp hspan)] at hlast
      cases hlast

end Run

theorem eq_of_ordered {a b : List (τ × Change)} (hperm : a.Perm b) (ha : a.Pairwise Ordered)
    (hb : b.Pairwise Ordered) : a = b :=
  hperm.eq_of_pairwise (fun _ _ _ _ hab hba => hab.antisymm hba) ha hb

/-! ## Spans between dates -/

/-- Each date opens a span, which ends on the day before the next date. -/
def cells (previous : τ → τ) : List τ → List (Span τ)
  | [] => []
  | [date] => [{ first := date, last := none }]
  | date :: next :: rest =>
    { first := date, last := some (previous next) } :: cells previous (next :: rest)

/-- A date is the last one that is not after a day. -/
structure Latest (dates : List τ) (day date : τ) : Prop where
  mem : date ∈ dates
  le : date ≤ day
  last : ∀ other ∈ dates, other ≤ day → other ≤ date

/-- A date is the first one after another. -/
structure Adjacent (dates : List τ) (date next : τ) : Prop where
  mem : date ∈ dates
  mem_next : next ∈ dates
  lt : date < next
  first : ∀ other ∈ dates, date < other → next ≤ other

variable {dates : List τ}

theorem Latest.unique {a b : τ} (ha : Latest dates day a) (hb : Latest dates day b) : a = b :=
  le_antisymm (hb.last a ha.mem ha.le) (ha.last b hb.mem hb.le)

theorem exists_latest {date : τ} (hmem : date ∈ dates) (hle : date ≤ day) :
    ∃ latest, Latest dates day latest := by
  have hin : date ∈ dates.filter (· ≤ day) := List.mem_filter.mpr ⟨hmem, by simpa using hle⟩
  cases hmax : (dates.filter (· ≤ day)).max? with
  | none =>
    rw [List.max?_eq_none_iff] at hmax
    rw [hmax] at hin
    cases hin
  | some latest =>
    have hspec := List.max?_eq_some_iff.mp hmax
    have hparts := List.mem_filter.mp hspec.1
    refine ⟨latest, hparts.1, by simpa using hparts.2, ?_⟩
    intro other hother hday
    exact hspec.2 other (List.mem_filter.mpr ⟨hother, by simpa using hday⟩)

theorem Adjacent.cons {head date next : τ} {rest : List τ} (hhead : ∀ other ∈ rest, head < other)
    (h : Adjacent rest date next) : Adjacent (head :: rest) date next := by
  refine ⟨List.mem_cons_of_mem _ h.mem, List.mem_cons_of_mem _ h.mem_next, h.lt, ?_⟩
  intro other hother hlt
  cases List.mem_cons.mp hother with
  | inl heq =>
    rw [heq] at hlt
    exact absurd hlt (hhead date h.mem).asymm
  | inr hin => exact h.first other hin hlt

theorem mem_cells (hsorted : dates.Pairwise (· < ·)) (h : span ∈ cells previous dates) :
    span.first ∈ dates ∧
      (span.last = none ∧ (∀ other ∈ dates, other ≤ span.first) ∨
        ∃ next, Adjacent dates span.first next ∧ span.last = some (previous next)) := by
  induction dates with
  | nil => cases h
  | cons date rest ih =>
    have hparts := List.pairwise_cons.mp hsorted
    cases rest with
    | nil =>
      rw [List.mem_singleton.mp h]
      exact ⟨List.mem_cons_self, .inl ⟨rfl, fun other hother => (List.mem_singleton.mp hother).le⟩⟩
    | cons next rest =>
      cases List.mem_cons.mp h with
      | inl hfirst =>
        rw [hfirst]
        refine ⟨List.mem_cons_self, .inr ⟨next, ?_, rfl⟩⟩
        refine ⟨List.mem_cons_self, List.mem_cons_of_mem _ List.mem_cons_self,
          hparts.1 next List.mem_cons_self, ?_⟩
        intro other hother hlt
        rcases List.mem_cons.mp hother with heq | hin
        · exact absurd hlt (heq ▸ lt_irrefl _)
        · rcases List.mem_cons.mp hin with heq | hlater
          · exact heq.ge
          · exact ((List.pairwise_cons.mp hparts.2).1 other hlater).le
      | inr hlater =>
        have hih := ih hparts.2 hlater
        refine ⟨List.mem_cons_of_mem _ hih.1, ?_⟩
        rcases hih.2 with ⟨hlast, hmax⟩ | ⟨after, hadjacent, hlast⟩
        · refine .inl ⟨hlast, ?_⟩
          intro other hother
          cases List.mem_cons.mp hother with
          | inl heq =>
            rw [heq]
            exact (hparts.1 span.first hih.1).le
          | inr hin => exact hmax other hin
        · exact .inr ⟨after, hadjacent.cons hparts.1, hlast⟩

omit [LinearOrder τ] in
theorem map_first_cells (previous : τ → τ) (dates : List τ) :
    (cells previous dates).map Span.first = dates := by
  induction dates with
  | nil => rfl
  | cons date rest ih =>
    cases rest with
    | nil => rfl
    | cons next rest =>
      show date :: (cells previous (next :: rest)).map Span.first = _
      rw [ih]

theorem cells_covers_iff (h : Previous isOpen previous) (hsorted : dates.Pairwise (· < ·))
    (hopen : isOpen day) (hspan : span ∈ cells previous dates) :
    span.Covers day ↔ Latest dates day span.first := by
  have hmem := mem_cells hsorted hspan
  constructor
  · intro hcovers
    refine ⟨hmem.1, hcovers.1, ?_⟩
    intro other hother hday
    rcases hmem.2 with ⟨-, hmax⟩ | ⟨next, hadjacent, hlast⟩
    · exact hmax other hother
    · by_contra hlater
      have hnext := hadjacent.first other hother (not_le.mp hlater)
      have hend : day ≤ previous next := hcovers.2 _ hlast
      exact absurd ((hnext.trans hday).trans hend) (not_le.mpr (h.lt next))
  · intro hlatest
    refine ⟨hlatest.le, ?_⟩
    intro last hlast
    rcases hmem.2 with ⟨hnone, -⟩ | ⟨next, hadjacent, hsome⟩
    · rw [hnone] at hlast
      cases hlast
    · rw [hsome] at hlast
      cases hlast
      apply h.no_gap next day hopen
      by_contra hlater
      have hle := hlatest.last next hadjacent.mem_next (not_lt.mp hlater)
      exact absurd hadjacent.lt (not_lt.mpr hle)

theorem cells_disjoint (h : Previous isOpen previous) (hsorted : dates.Pairwise (· < ·))
    {a b : Span τ} (ha : a ∈ cells previous dates) (hb : b ∈ cells previous dates)
    (hcovers : a.Covers day) (hcovers' : b.Covers day) : a.first = b.first := by
  have hlt : ∀ a ∈ cells previous dates, ∀ b ∈ cells previous dates, a.Covers day → b.Covers day →
      ¬ a.first < b.first := by
    intro a ha b hb hcovers hcovers' hlt
    have hmem := mem_cells hsorted hb
    rcases (mem_cells hsorted ha).2 with ⟨-, hmax⟩ | ⟨next, hadjacent, hlast⟩
    · exact absurd hlt (not_lt.mpr (hmax b.first hmem.1))
    · have hend : day ≤ previous next := hcovers.2 _ hlast
      have hnext : next ≤ day := (hadjacent.first b.first hmem.1 hlt).trans hcovers'.1
      exact absurd (hnext.trans hend) (not_le.mpr (h.lt next))
  exact le_antisymm (not_lt.mp (hlt b hb a ha hcovers' hcovers))
    (not_lt.mp (hlt a ha b hb hcovers hcovers'))

theorem cells_ordered_iff (hsorted : dates.Pairwise (· < ·)) :
    (∀ span ∈ cells previous dates, ∀ last, span.last = some last → span.first ≤ last) ↔
      ∀ date next, Adjacent dates date next → date ≤ previous next := by
  constructor
  · intro hordered date next hadjacent
    have hdate := hadjacent.mem
    rw [← map_first_cells previous dates] at hdate
    obtain ⟨span, hspan, rfl⟩ := List.mem_map.mp hdate
    rcases (mem_cells hsorted hspan).2 with ⟨-, hmax⟩ | ⟨other, hother, hlast⟩
    · exact absurd hadjacent.lt (not_lt.mpr (hmax next hadjacent.mem_next))
    · have hsame : other = next := le_antisymm
        (hother.first next hadjacent.mem_next hadjacent.lt)
        (hadjacent.first other hother.mem_next hother.lt)
      rw [← hsame]
      exact hordered span hspan _ hlast
  · intro htimely span hspan last hlast
    rcases (mem_cells hsorted hspan).2 with ⟨hnone, -⟩ | ⟨next, hadjacent, hsome⟩
    · rw [hnone] at hlast
      cases hlast
    · rw [hsome] at hlast
      cases hlast
      exact htimely _ _ hadjacent

end LocalPlatform.Spans
