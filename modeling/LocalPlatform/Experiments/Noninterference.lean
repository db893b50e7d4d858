import LocalPlatform.Experiments.Quarantine
import LocalPlatform.Lib.Ranking

/-!
# What the selection of a window depends on

`_advance_walk_forward_selection` must freeze a window from its validation items
alone, whatever the other items did and in whatever order the items are read.

* `SortKey.level` reads a sort key in a linear order.  `lt` on tuples says nothing
  about two keys whose first difference is a `nan`, so the order of such rows is
  the order of the items.
* `Clears` says that the loop gets past a window: no count of it that is read is
  an infinity or `nan`, which `int` raises on.
* `eventAfter` is the event of a window after the loop.  It is computed from the
  validation items, and it does not depend on their order if its rows compare.
* `Determined` is when no order of the items makes a difference.  Where two rows
  do not compare, or a window is frozen before or after one that raises, another
  order of the items freezes something else.
-/

namespace LocalPlatform.Experiments

open Floats Paper Transaction Transaction.TxM Machines Tables Rankings

/-! ## The order of sort keys -/

def SortKey.level (key : SortKey) : (ℤ ×ₗ ℚ) ×ₗ (ℤ ×ₗ ℚ) ×ₗ (ℤ ×ₗ ℚ) ×ₗ String :=
  toLex (key.score.level, toLex (key.drawdown.level, toLex (key.turnover.level, key.candidateKey)))

theorem SortKey.level_lt {a b : SortKey} (h : a.lt b = true) : a.level < b.level := by
  unfold SortKey.lt at h
  unfold SortKey.level
  cases hscore : a.score.same b.score with
  | false =>
    rw [hscore] at h
    exact lex_lt_left (PyFloat.level_lt h)
  | true =>
    rw [hscore] at h
    refine lex_lt_right (by rw [PyFloat.eq_of_same hscore]) ?_
    cases hdrawdown : a.drawdown.same b.drawdown with
    | false =>
      rw [hdrawdown] at h
      exact lex_lt_left (PyFloat.level_lt h)
    | true =>
      rw [hdrawdown] at h
      refine lex_lt_right (by rw [PyFloat.eq_of_same hdrawdown]) ?_
      cases hturnover : a.turnover.same b.turnover with
      | false =>
        rw [hturnover] at h
        exact lex_lt_left (PyFloat.level_lt h)
      | true =>
        rw [hturnover] at h
        exact lex_lt_right (by rw [PyFloat.eq_of_same hturnover]) (of_decide_eq_true h)

/-- One component of the comparison of two tuples. -/
def firstDiffers (x y : PyFloat) (rest : Bool) : Bool := if !x.same y then x.lt y else rest

theorem firstDiffers_trans {x y z : PyFloat} {p q r : Bool} (hxy : firstDiffers x y p = true)
    (hyz : firstDiffers y z q = true) (h : p = true → q = true → r = true) :
    firstDiffers x z r = true := by
  unfold firstDiffers at hxy hyz ⊢
  cases hx : x.same y with
  | true =>
    rw [PyFloat.eq_of_same hx]
    cases hy : y.same z with
    | true => simp_all
    | false => simp_all
  | false =>
    cases hy : y.same z with
    | true =>
      rw [← PyFloat.eq_of_same hy]
      simp_all
    | false =>
      simp only [hx, hy, Bool.not_false, if_true] at hxy hyz
      have hlt : x.lt z = true := PyFloat.lt_trans hxy hyz
      have hne : x.same z = false := by
        rw [← Bool.not_eq_true]
        intro hsame
        exact absurd (PyFloat.level_lt hlt) (by rw [PyFloat.eq_of_same hsame]; exact lt_irrefl _)
      simp [hne, hlt]

theorem SortKey.lt_trans {a b c : SortKey} (hab : a.lt b = true) (hbc : b.lt c = true) :
    a.lt c = true := by
  have hlt : ∀ x y : SortKey, x.lt y = firstDiffers x.score y.score
      (firstDiffers x.drawdown y.drawdown (firstDiffers x.turnover y.turnover
        (x.candidateKey < y.candidateKey))) := fun _ _ => rfl
  rw [hlt] at hab hbc ⊢
  refine firstDiffers_trans hab hbc (fun hab hbc => firstDiffers_trans hab hbc
    (fun hab hbc => firstDiffers_trans hab hbc (fun hab hbc => ?_)))
  exact decide_eq_true ((of_decide_eq_true hab).trans (of_decide_eq_true hbc))

def SortKey.Compares (a b : SortKey) : Prop := a.lt b = true ∨ b.lt a = true

instance (a b : SortKey) : Decidable (SortKey.Compares a b) :=
  inferInstanceAs (Decidable (_ ∨ _))

theorem SortKey.Compares.lt_iff {a b : SortKey} (h : SortKey.Compares a b) :
    a.lt b = true ↔ a.level < b.level := by
  refine ⟨SortKey.level_lt, fun hlevel => ?_⟩
  rcases h with h | h
  · exact h
  · exact absurd (SortKey.level_lt h) (lt_asymm hlevel)

def Comparable (objective : Objective) (rows : List RankingRow) : Prop :=
  ∀ a ∈ rows, ∀ b ∈ rows, a ≠ b → SortKey.Compares (a.sortKey objective) (b.sortKey objective)

instance (objective : Objective) (rows : List RankingRow) : Decidable (Comparable objective rows) :=
  inferInstanceAs (Decidable (∀ a ∈ rows, ∀ b ∈ rows, a ≠ b →
    SortKey.Compares (a.sortKey objective) (b.sortKey objective)))

def rowLevel (objective : Objective) (row : RankingRow) :
    (ℤ ×ₗ ℚ) ×ₗ (ℤ ×ₗ ℚ) ×ₗ (ℤ ×ₗ ℚ) ×ₗ String := (row.sortKey objective).level

section Order

variable {objective : Objective} {rows rows' : List RankingRow}

theorem Comparable.sortRanking (h : Comparable objective rows) :
    sortRanking objective rows = rank (rowLevel objective) rows := by
  refine mergeSort_eq_rank (fun a ha b hb => ?_)
  by_cases hab : a = b
  · subst hab
    have hnot : ¬ (a.sortKey objective).lt (a.sortKey objective) = true :=
      fun hlt => lt_irrefl _ (SortKey.level_lt hlt)
    simp [hnot]
  · have hiff := (h b hb a ha (Ne.symm hab)).lt_iff
    rw [Bool.eq_iff_iff, Bool.not_eq_true', decide_eq_true_iff, ← Bool.not_eq_true, hiff, not_lt]
    rfl

theorem Comparable.sortRanking_perm (h : Comparable objective rows) (hperm : rows.Perm rows') :
    Experiments.sortRanking objective rows = Experiments.sortRanking objective rows' := by
  have h' : Comparable objective rows' :=
    fun a ha b hb => h a (hperm.symm.subset ha) b (hperm.symm.subset hb)
  rw [h.sortRanking, h'.sortRanking]
  refine rank_eq_of_perm hperm (fun a ha b hb hlevel => ?_)
  by_contra hab
  have hlevel' : (a.sortKey objective).level = (b.sortKey objective).level := hlevel
  rcases h a ha b hb hab with hlt | hlt
  · exact absurd hlevel' (SortKey.level_lt hlt).ne
  · exact absurd hlevel' (SortKey.level_lt hlt).ne'

/-- Rows of which two do not compare are ranked differently in different orders. -/
theorem exists_rankings_differ (h : ¬ Comparable objective rows) :
    ∃ rows₁ rows₂ : List RankingRow, rows₁.Perm rows ∧ rows₂.Perm rows ∧
      Experiments.sortRanking objective rows₁ ≠ Experiments.sortRanking objective rows₂ := by
  unfold Comparable at h
  push Not at h
  obtain ⟨a, ha, b, hb, hne, hnot⟩ := h
  exact exists_sorts_differ (rowLevel objective)
    (fun a b => (a.sortKey objective).lt (b.sortKey objective)) (fun _ _ _ hab hbc => SortKey.lt_trans hab hbc) (fun _ _ hlt => SortKey.level_lt hlt)
    ha hb hne hnot

end Order

/-! ## The validation items of a window -/

/-- What a selection reads of a validation item. -/
structure ValidationView where
  candidate : String
  overrides : Overrides
  status : ItemStatus
  metrics : Except BatchError ValidationMetrics
  deriving DecidableEq

def BatchItem.validationView (item : BatchItem) : ValidationView where
  candidate := item.candidate
  overrides := item.overrides
  status := item.status
  metrics := validationMetrics item.statistics

/-- The row of a view whose metrics can be read. -/
def ValidationView.row (view : ValidationView) : Option RankingRow :=
  view.metrics.toOption.map (fun metrics =>
    { candidateKey := view.candidate, parameters := view.overrides, metrics := metrics })

/-- The validation items of a window, as far as a selection reads them. -/
def viewsOf (items : List BatchItem) (key : WindowKey) : List ValidationView :=
  (phaseItems items key "validation").map BatchItem.validationView

def rowsOf (views : List ValidationView) : List RankingRow := views.filterMap ValidationView.row

/-- Two lists of items have the same validation items in every window. -/
def AgreeOnValidation (items items' : List BatchItem) : Prop :=
  ∀ key, (viewsOf items key).Perm (viewsOf items' key)

/-- Every validation item of a window has succeeded. -/
def AllSucceeded (views : List ValidationView) : Prop := ∀ view ∈ views, view.status = .success

def AllValued (objective : Objective) (rows : List RankingRow) : Prop :=
  ∀ row ∈ rows, (row.metrics.value objective).isSome = true

instance (views : List ValidationView) : Decidable (AllSucceeded views) :=
  inferInstanceAs (Decidable (∀ view ∈ views, view.status = .success))

instance (objective : Objective) (rows : List RankingRow) : Decidable (AllValued objective rows) :=
  inferInstanceAs (Decidable (∀ row ∈ rows, (row.metrics.value objective).isSome = true))

/-- The metrics of a window can be read, and its trades can be counted when there
is a value of the objective for all of it. -/
structure Counted (objective : Objective) (views : List ValidationView) : Prop where
  violations : ∀ view ∈ views, view.row.isSome = true
  trades : AllValued objective (rowsOf views) →
    ∀ row ∈ rowsOf views, ∀ trades ∈ row.metrics.trades, trades.toInt?.isSome = true

/-- A window that can be frozen. -/
def Rankable (objective : Objective) (views : List ValidationView) : Prop :=
  views ≠ [] ∧ AllSucceeded views ∧ AllValued objective (rowsOf views)

/-- The ranking of a window, from what a selection reads. -/
def frozenRanking (objective : Objective) (views : List ValidationView) :
    Option (List RankingRow) :=
  if views = [] ∨ ¬ AllSucceeded views ∨ ¬ AllValued objective (rowsOf views) then none
  else some (sortRanking objective (rowsOf views))

section Views

variable {objective : Objective} {views views' : List ValidationView}

theorem Rankable.perm (h : Rankable objective views) (hperm : views.Perm views') :
    Rankable objective views' := by
  have hrows : (rowsOf views).Perm (rowsOf views') := hperm.filterMap _
  refine ⟨fun hnil => h.1 ?_, fun view hview => h.2.1 view (hperm.symm.subset hview),
    fun row hrow => h.2.2 row (hrows.symm.subset hrow)⟩
  rw [hnil] at hperm
  exact hperm.eq_nil

theorem frozenRanking_ready (h : Rankable objective views) :
    frozenRanking objective views = some (sortRanking objective (rowsOf views)) := by
  unfold frozenRanking
  rw [if_neg]
  rintro (hnil | hnot | hnot)
  · exact h.1 hnil
  · exact hnot h.2.1
  · exact hnot h.2.2

theorem frozenRanking_not_ready (h : ¬ Rankable objective views) :
    frozenRanking objective views = none := by
  unfold frozenRanking
  rw [if_pos]
  by_contra hnone
  push Not at hnone
  exact h hnone

theorem frozenRanking_perm (hperm : views.Perm views')
    (hcomparable : Rankable objective views → Comparable objective (rowsOf views)) :
    frozenRanking objective views = frozenRanking objective views' := by
  by_cases h : Rankable objective views
  · have hrows : (rowsOf views).Perm (rowsOf views') := hperm.filterMap _
    rw [frozenRanking_ready h, frozenRanking_ready (h.perm hperm),
      (hcomparable h).sortRanking_perm hrows]
  · rw [frozenRanking_not_ready h, frozenRanking_not_ready (fun h' => h (h'.perm hperm.symm))]

end Views

variable {item : BatchItem}

theorem view_row_iff {row : RankingRow} :
    item.validationView.row = some row ↔ rankingRow item = .ok row := by
  unfold ValidationView.row BatchItem.validationView rankingRow
  cases validationMetrics item.statistics with
  | error e => exact ⟨fun h => (by cases h), fun h => (by cases h)⟩
  | ok metrics => exact ⟨fun h => congrArg _ (Option.some.inj h), fun h => congrArg _ (Except.ok.inj h)⟩

variable {validation : List BatchItem}

theorem exists_row {rows : List RankingRow}
    (h : List.Forall₂ (fun item row => rankingRow item = .ok row) validation rows)
    (hitem : item ∈ validation) : ∃ row ∈ rows, rankingRow item = .ok row := by
  induction h with
  | nil => cases hitem
  | cons hrow _ ih =>
    rcases List.mem_cons.mp hitem with rfl | hlater
    · exact ⟨_, List.mem_cons_self, hrow⟩
    · obtain ⟨row, hmem, hlaterRow⟩ := ih hlater
      exact ⟨row, List.mem_cons_of_mem _ hmem, hlaterRow⟩

theorem mapM_rowsOf : ∀ {validation : List BatchItem},
    (∀ view ∈ validation.map BatchItem.validationView, view.row.isSome = true) →
      validation.mapM rankingRow = .ok (rowsOf (validation.map BatchItem.validationView)) ∧
        (rowsOf (validation.map BatchItem.validationView)).length = validation.length := by
  intro validation
  induction validation with
  | nil => exact fun _ => ⟨rfl, rfl⟩
  | cons item rest ih =>
    intro h
    rw [List.map_cons] at h
    obtain ⟨hitem, hrest⟩ := List.forall_mem_cons.mp h
    obtain ⟨row, hrow⟩ := Option.isSome_iff_exists.mp hitem
    obtain ⟨hmap, hlength⟩ := ih hrest
    have hrows : rowsOf ((item :: rest).map BatchItem.validationView) =
        row :: rowsOf (rest.map BatchItem.validationView) := by
      unfold rowsOf
      rw [List.map_cons, List.filterMap_cons, hrow]
    rw [hrows]
    refine ⟨?_, by rw [List.length_cons, List.length_cons, hlength]⟩
    rw [List.mapM_cons, view_row_iff.mp hrow, hmap]
    rfl

theorem allSucceeded_iff :
    AllSucceeded (validation.map BatchItem.validationView) ↔
      ∀ item ∈ validation, item.status = .success := List.forall_mem_map

/-- The statuses of a window whose validation items have succeeded keep it from nothing. -/
theorem statuses_pass (hnil : validation ≠ [])
    (hall : AllSucceeded (validation.map BatchItem.validationView)) :
    ¬ (validation.isEmpty = true ∨
        validation.any (fun item => decide (item.status ∉ terminal)) = true) ∧
      ¬ validation.any (fun item => decide (item.status ≠ .success)) = true := by
  have hstatus := allSucceeded_iff.mp hall
  constructor
  · rintro (hempty | hopen)
    · exact hnil (List.isEmpty_iff.mp hempty)
    · obtain ⟨item, hitem, hother⟩ := List.any_eq_true.mp hopen
      rw [hstatus item hitem] at hother
      exact absurd hother (by decide)
  · intro hopen
    obtain ⟨item, hitem, hother⟩ := List.any_eq_true.mp hopen
    rw [hstatus item hitem] at hother
    exact absurd hother (by decide)

variable {objective : Objective}

theorem rankValidation_eq (hreadable : AllSucceeded (validation.map BatchItem.validationView) →
      ∀ view ∈ validation.map BatchItem.validationView, view.row.isSome = true) :
    rankValidation objective validation =
      .ok (frozenRanking objective (validation.map BatchItem.validationView)) := by
  unfold rankValidation frozenRanking
  by_cases hnil : validation = []
  · subst hnil
    simp
  by_cases hall : AllSucceeded (validation.map BatchItem.validationView)
  · obtain ⟨hterminal, hsuccess⟩ := statuses_pass hnil hall
    obtain ⟨hmap, hlength⟩ := mapM_rowsOf (hreadable hall)
    rw [if_neg hterminal, if_neg hsuccess, hmap]
    simp only
    by_cases hvalued : AllValued objective (rowsOf (validation.map BatchItem.validationView))
    · have hfilter : (rowsOf (validation.map BatchItem.validationView)).filter
          (fun row => (row.metrics.value objective).isSome) =
            rowsOf (validation.map BatchItem.validationView) := List.filter_eq_self.mpr hvalued
      rw [hfilter, if_neg (not_not.mpr hlength), if_neg]
      rintro (hempty | hopen | hopen)
      · exact hnil (List.map_eq_nil_iff.mp hempty)
      · exact hopen hall
      · exact hopen hvalued
    · rw [if_pos, if_pos (Or.inr (Or.inr hvalued))]
      intro hsame
      apply hvalued
      rw [← hlength] at hsame
      exact List.length_filter_eq_length_iff.mp hsame
  · rw [if_pos (Or.inr (Or.inl hall))]
    by_cases hterminal : validation.isEmpty = true ∨
        validation.any (fun item => decide (item.status ∉ terminal)) = true
    · rw [if_pos hterminal]
    · rw [if_neg hterminal, if_pos]
      rw [allSucceeded_iff] at hall
      push Not at hall
      obtain ⟨item, hitem, hother⟩ := hall
      exact List.any_eq_true.mpr ⟨item, hitem, decide_eq_true hother⟩

theorem readable_of_rankValidation {ranking : Option (List RankingRow)}
    (h : rankValidation objective validation = .ok ranking)
    (hall : AllSucceeded (validation.map BatchItem.validationView)) :
    ∀ view ∈ validation.map BatchItem.validationView, view.row.isSome = true := by
  by_cases hnil : validation = []
  · simp [hnil]
  obtain ⟨hterminal, hsuccess⟩ := statuses_pass hnil hall
  unfold rankValidation at h
  rw [if_neg hterminal, if_neg hsuccess] at h
  cases hrows : validation.mapM rankingRow with
  | error e =>
    rw [hrows] at h
    cases h
  | ok rows =>
    intro view hview
    obtain ⟨item, hitem, rfl⟩ := List.mem_map.mp hview
    obtain ⟨row, -, hrow⟩ := exists_row (mapM_rankingRow hrows) hitem
    rw [view_row_iff.mpr hrow]
    rfl

/-! ## The transaction of a window -/

/-- The loop gets past a window: if its validation items have succeeded, their metrics can be read,
and their trades can be counted if the window is to be frozen. -/
def Clears (objective : Objective) (items : List BatchItem) (db : ExperimentDb)
    (key : WindowKey) : Prop :=
  AllSucceeded (viewsOf items key) →
    (∀ view ∈ viewsOf items key, view.row.isSome = true) ∧
      (db.event key = none → AllValued objective (rowsOf (viewsOf items key)) →
        ∀ row ∈ rowsOf (viewsOf items key), ∀ trades ∈ row.metrics.trades,
          trades.toInt?.isSome = true)

variable {items : List BatchItem} {key : WindowKey} {db : ExperimentDb}

theorem clears_of_counted
    (h : AllSucceeded (viewsOf items key) → Counted objective (viewsOf items key)) :
    Clears objective items db key :=
  fun hall => ⟨(h hall).violations, fun _ => (h hall).trades⟩

/-- A window that the loop freezes when it comes to it. -/
def Freezes (objective : Objective) (items : List BatchItem) (db : ExperimentDb)
    (key : WindowKey) : Prop :=
  db.event key = none ∧ Rankable objective (viewsOf items key) ∧ Clears objective items db key

/-- No order of the items makes a difference: the loop does not run, or the rows of every window
that it freezes compare and it gets past every window. -/
def Determined (batch : Batch) (items : List BatchItem) (db : ExperimentDb) : Prop :=
  (batch.mode ≠ "walk_forward" ∨ batch.cancelRequested = true) ∨
    ∀ key, Freezes batch.objective items db key →
      Comparable batch.objective (rowsOf (viewsOf items key)) ∧
        ∀ other, Clears batch.objective items db other

/-- The event that a window is frozen with. -/
def frozenEvent (objective : Objective) (key : WindowKey) (views : List ValidationView) :
    Option SelectionEvent :=
  match frozenRanking objective views with
  | some (selected :: rest) =>
    some (selectionEvent objective key selected (selected :: rest))
  | _ => none

/-- The event of a window after the loop over the windows. -/
def eventAfter (objective : Objective) (items : List BatchItem) (db : ExperimentDb)
    (key : WindowKey) : Option SelectionEvent :=
  db.event key <|> frozenEvent objective key (viewsOf items key)

/-- What the plan of a batch gives for a window of its items. -/
structure PlannedWindow (items : List BatchItem) (db : ExperimentDb) (key : WindowKey) : Prop where
  window : key ∈ db.windows.map Window.key
  candidates : ∀ item ∈ phaseItems items key "validation",
    (key, item.candidate) ∈ db.candidates.map Candidate.name
  oos : ∀ item ∈ phaseItems items key "validation",
    ∃ other ∈ phaseItems items key "oos", other.candidate = item.candidate

section Freeze

variable {objective : Objective} {items : List BatchItem} {key : WindowKey}

theorem foldlM_storeCandidate_ok : ∀ (ranking : List (RankingRow × Nat))
    {candidates : List Candidate},
    (∀ ranked ∈ ranking, (key, ranked.1.candidateKey) ∈ candidates.map Candidate.name ∧
      ∀ trades ∈ ranked.1.metrics.trades, trades.toInt?.isSome = true) →
      ∃ candidates', ranking.foldlM (storeCandidate key) candidates = .ok candidates' := by
  intro ranking
  induction ranking with
  | nil => exact fun _ => ⟨_, rfl⟩
  | cons ranked rest ih =>
    intro candidates h
    obtain ⟨⟨hname, htrades⟩, hrest⟩ := List.forall_mem_cons.mp h
    have hany : candidates.any (fun candidate => candidate.window == key &&
        candidate.candidateKey == ranked.1.candidateKey) = true := by
      obtain ⟨candidate, hmem, heq⟩ := List.mem_map.mp hname
      refine List.any_eq_true.mpr ⟨candidate, hmem, ?_⟩
      have hwindow : candidate.window = key := congrArg Prod.fst heq
      have hkey : candidate.candidateKey = ranked.1.candidateKey := congrArg Prod.snd heq
      simp [hwindow, hkey]
    have hcount : ∃ trades, ranked.1.metrics.trades.mapM pyInt = .ok trades := by
      cases hvalue : ranked.1.metrics.trades with
      | none => exact ⟨none, rfl⟩
      | some trades =>
        obtain ⟨n, hn⟩ := Option.isSome_iff_exists.mp (htrades trades hvalue)
        refine ⟨some n, ?_⟩
        show (some trades).mapM pyInt = _
        have hint : pyInt trades = .ok n := by
          unfold pyInt
          rw [hn]
        simp [hint]
    obtain ⟨trades, hcount⟩ := hcount
    have hstored : ∃ stored, storeCandidate key candidates ranked = .ok stored := by
      unfold storeCandidate
      simp only
      rw [if_neg (not_not.mpr hany), hcount]
      exact ⟨_, rfl⟩
    obtain ⟨stored, hstored⟩ := hstored
    rw [List.foldlM_cons, hstored]
    refine ih (fun ranked' hmem => ?_)
    rw [storeCandidate_names hstored]
    exact hrest ranked' hmem

theorem mem_rowsOf {views : List ValidationView} {row : RankingRow} (h : row ∈ rowsOf views) :
    ∃ view ∈ views, view.candidate = row.candidateKey := by
  obtain ⟨view, hview, hrow⟩ := List.mem_filterMap.mp h
  refine ⟨view, hview, ?_⟩
  unfold ValidationView.row at hrow
  obtain ⟨metrics, -, hmetrics⟩ := Option.map_eq_some_iff.mp hrow
  rw [← hmetrics]

theorem item_of_row {row : RankingRow} (h : row ∈ rowsOf (viewsOf items key)) :
    ∃ item ∈ phaseItems items key "validation", item.candidate = row.candidateKey := by
  obtain ⟨view, hview, hcandidate⟩ := mem_rowsOf h
  obtain ⟨item, hitem, rfl⟩ := List.mem_map.mp hview
  exact ⟨item, hitem, hcandidate⟩

theorem frozenRanking_some {views : List ValidationView} {ranking : List RankingRow}
    (h : frozenRanking objective views = some ranking) :
    AllSucceeded views ∧ AllValued objective (rowsOf views) ∧
      ranking = sortRanking objective (rowsOf views) := by
  unfold frozenRanking at h
  split_ifs at h with hopen
  push Not at hopen
  exact ⟨hopen.2.1, hopen.2.2, (Option.some.inj h).symm⟩

/-- The transaction of a window of the plan commits, and writes the event of this
window only. -/
theorem freezeWindow_total {db : ExperimentDb} (hplanned : PlannedWindow items db key)
    (hclears : Clears objective items db key) :
    ∃ changed db', freezeWindow objective items key db = .ok (changed, db') ∧
      ∀ other, db'.event other =
        if other = key then eventAfter objective items db key else db.event other := by
  have hpass : eventAfter objective items db key = db.event key → ∀ other, db.event other =
      if other = key then eventAfter objective items db key else db.event other := by
    intro hsame other
    split_ifs with hother
    · rw [hother, hsame]
    · rfl
  have hranked : rankValidation objective (phaseItems items key "validation") =
      .ok (frozenRanking objective (viewsOf items key)) :=
    rankValidation_eq (fun hall => (hclears hall).1)
  unfold freezeWindow
  rw [hranked]
  cases hranking : frozenRanking objective (viewsOf items key) with
  | none =>
    refine ⟨_, _, rfl, hpass ?_⟩
    unfold eventAfter frozenEvent
    rw [hranking]
    cases db.event key <;> rfl
  | some ranking =>
    cases ranking with
    | nil =>
      refine ⟨_, _, rfl, hpass ?_⟩
      unfold eventAfter frozenEvent
      rw [hranking]
      cases db.event key <;> rfl
    | cons selected rest =>
      obtain ⟨hsucceeded, hvalued, hsorted⟩ := frozenRanking_some hranking
      have hrow : ∀ row ∈ selected :: rest, row ∈ rowsOf (viewsOf items key) := by
        intro row hmem
        rw [hsorted] at hmem
        exact (List.mergeSort_perm _ _).subset hmem
      have hwindow : db.windows.any (fun window => window.key == key) = true := by
        obtain ⟨window, hmem, hkey⟩ := List.mem_map.mp hplanned.window
        exact List.any_eq_true.mpr ⟨window, hmem, by simp [hkey]⟩
      simp only
      rw [if_neg (not_not.mpr hwindow)]
      cases hevent : db.event key with
      | some event =>
        refine ⟨_, _, rfl, hpass ?_⟩
        unfold eventAfter
        rw [hevent]
        rfl
      | none =>
        have hcandidates : ∃ candidates,
            (selected :: rest).zipIdx.foldlM (storeCandidate key) db.candidates =
              .ok candidates := by
          refine foldlM_storeCandidate_ok _ (fun ranked hmem => ?_)
          have hmem' := hrow ranked.1 (List.fst_mem_of_mem_zipIdx hmem)
          obtain ⟨item, hitem, hcandidate⟩ := item_of_row hmem'
          rw [← hcandidate]
          exact ⟨hplanned.candidates item hitem, (hclears hsucceeded).2 hevent hvalued _ hmem'⟩
        obtain ⟨candidates, hcandidates⟩ := hcandidates
        obtain ⟨item, hitem, hcandidate⟩ := item_of_row (hrow selected List.mem_cons_self)
        obtain ⟨oos, hoos, hsame⟩ := hplanned.oos item hitem
        have hlast : ∃ last, ((phaseItems items key "oos").filter
            (fun item => item.candidate == selected.candidateKey)).getLast? = some last := by
          rw [← Option.isSome_iff_exists, List.getLast?_isSome]
          refine List.ne_nil_of_mem (List.mem_filter.mpr ⟨hoos, ?_⟩)
          simp [hsame, hcandidate]
        obtain ⟨last, hlast⟩ := hlast
        rw [hcandidates]
        unfold storeSelection
        rw [hlast]
        refine ⟨_, _, rfl, fun other => ?_⟩
        have hfresh : Tables.find SelectionEvent.window db.events
            (selectionEvent objective key selected (selected :: rest)).window = none := hevent
        have hfind := find_append_singleton hfresh other
        unfold eventAfter frozenEvent
        rw [hranking, hevent]
        exact hfind

theorem trades_of_foldlM : ∀ (ranking : List (RankingRow × Nat)) {candidates stored : List Candidate},
    ranking.foldlM (storeCandidate key) candidates = .ok stored →
      ∀ ranked ∈ ranking, ∀ trades ∈ ranked.1.metrics.trades, trades.toInt?.isSome = true := by
  intro ranking
  induction ranking with
  | nil => exact fun _ ranked hranked => absurd hranked List.not_mem_nil
  | cons first rest ih =>
    intro candidates stored h
    rw [List.foldlM_cons] at h
    cases hfirst : storeCandidate key candidates first with
    | error e =>
      rw [hfirst] at h
      cases h
    | ok next =>
      rw [hfirst] at h
      refine List.forall_mem_cons.mpr ⟨fun trades htrades => ?_, ih h⟩
      unfold storeCandidate at hfirst
      simp only at hfirst
      split at hfirst
      · cases hfirst
      · rw [Option.mem_def.mp htrades, Option.mapM_some] at hfirst
        cases hint : trades.toInt? with
        | some n => rfl
        | none =>
          have hraises : ∃ e, pyInt trades = .error e := by
            unfold pyInt
            rw [hint]
            simp only
            split_ifs
            · exact ⟨_, rfl⟩
            · exact ⟨_, rfl⟩
          obtain ⟨e, he⟩ := hraises
          rw [he] at hfirst
          cases hfirst

/-- The transaction of a window of the plan raises where the loop does not get past it. -/
theorem clears_of_freezeWindow {db db' : ExperimentDb} {changed : Bool}
    (hplanned : PlannedWindow items db key)
    (h : freezeWindow objective items key db = .ok (changed, db')) :
    Clears objective items db key := by
  intro hall
  have hreadable : ∀ view ∈ viewsOf items key, view.row.isSome = true := by
    cases hranked : rankValidation objective (phaseItems items key "validation") with
    | error e =>
      unfold freezeWindow at h
      rw [hranked] at h
      cases h
    | ok ranking => exact readable_of_rankValidation hranked hall
  refine ⟨hreadable, fun hevent hvalued row hrow trades htrades => ?_⟩
  have hranked : rankValidation objective (phaseItems items key "validation") =
      .ok (frozenRanking objective (viewsOf items key)) := rankValidation_eq (fun _ => hreadable)
  have hfrozen : frozenRanking objective (viewsOf items key) =
      some (sortRanking objective (rowsOf (viewsOf items key))) := by
    refine frozenRanking_ready ⟨fun hnil => ?_, hall, hvalued⟩
    rw [hnil] at hrow
    cases hrow
  have hmem : row ∈ sortRanking objective (rowsOf (viewsOf items key)) :=
    (List.mergeSort_perm _ _).symm.subset hrow
  have hwindow : db.windows.any (fun window => window.key == key) = true := by
    obtain ⟨window, hwindow, hkey⟩ := List.mem_map.mp hplanned.window
    exact List.any_eq_true.mpr ⟨window, hwindow, by simp [hkey]⟩
  unfold freezeWindow at h
  rw [hranked, hfrozen] at h
  cases hsorted : sortRanking objective (rowsOf (viewsOf items key)) with
  | nil =>
    rw [hsorted] at hmem
    cases hmem
  | cons selected rest =>
    rw [hsorted] at h hmem
    simp only [hwindow, not_true_eq_false, if_false, hevent, Option.isSome_none] at h
    obtain ⟨i, hi, rfl⟩ := List.mem_iff_getElem.mp hmem
    cases hstored : (selected :: rest).zipIdx.foldlM (storeCandidate key) db.candidates with
    | error e =>
      rw [hstored] at h
      cases h
    | ok stored =>
      exact trades_of_foldlM _ hstored ((selected :: rest)[i], i)
        (List.mem_zipIdx_iff_getElem?.mpr (List.getElem?_eq_getElem hi)) trades htrades

end Freeze

theorem evolves_freezeWindow {metric : Objective} {db' : ExperimentDb} {changed : Bool}
    (h : freezeWindow metric items key db = .ok (changed, db')) : Evolves db db' := by
  rcases freezeWindow_cases h with ⟨-, rfl⟩ | ⟨-, selected, ranking, oos, hstep⟩
  · exact .refl db'
  · exact hstep.evolves

/-! ## The loop over the windows -/

theorem viewsOf_eq_nil (h : key ∉ groupKeys items) : viewsOf items key = [] := by
  unfold viewsOf
  rw [List.map_eq_nil_iff]
  unfold phaseItems
  refine List.filter_eq_nil_iff.mpr (fun item hitem hwindow => h ?_)
  simp only [Bool.and_eq_true, beq_iff_eq] at hwindow
  unfold groupKeys
  rw [List.mem_eraseDups]
  exact List.mem_filterMap.mpr ⟨item, hitem, hwindow.1⟩

theorem PlannedWindow.later {a b : ExperimentDb} (h : PlannedWindow items a key)
    (hevolves : Evolves a b) : PlannedWindow items b key where
  window := by
    rw [hevolves.windows]
    exact h.window
  candidates := by
    rw [hevolves.candidates]
    exact h.candidates
  oos := h.oos

theorem Clears.later {a b : ExperimentDb} (h : Clears objective items a key)
    (hevolves : Evolves a b) : Clears objective items b key := by
  refine fun hall => ⟨(h hall).1, fun hevent => (h hall).2 ?_⟩
  cases hbefore : a.event key with
  | none => rfl
  | some event =>
    rw [hevolves.event hbefore] at hevent
    cases hevent

theorem advanceSelection_total {batch : Batch}
    (hopen : ¬ (batch.mode ≠ "walk_forward" ∨ batch.cancelRequested = true))
    (hplanned : ∀ key ∈ groupKeys items, PlannedWindow items db key)
    (hclears : ∀ key, Clears batch.objective items db key) :
    (∃ changed, (advanceSelection batch items db).value = .ok changed) ∧
      ∀ key, (advanceSelection batch items db).state.event key =
        eventAfter batch.objective items db key := by
  have hidem : ∀ (t : ExperimentDb) k, t.event k = eventAfter batch.objective items db k →
      eventAfter batch.objective items t k = eventAfter batch.objective items db k := by
    intro t k hk
    unfold eventAfter at hk ⊢
    rw [hk]
    cases db.event k <;> cases frozenEvent batch.objective k (viewsOf items k) <;> rfl
  -- the windows that are not left to do have their event
  have hloop := wp_forEach (I := fun _ => True)
    (f := fun key => TxM.tx (freezeWindow batch.objective items key))
    (fun remaining t => Evolves db t ∧ (∀ k ∈ remaining, k ∈ groupKeys items) ∧ ∀ k,
      eventAfter batch.objective items t k = eventAfter batch.objective items db k ∧
        (k ∉ remaining → t.event k = eventAfter batch.objective items db k))
    (fun _ _ => False)
    (by
      rintro k rest t ⟨hevolves, hkeys, hevents⟩
      obtain ⟨changed, t', hrun, hevent⟩ := freezeWindow_total
        ((hplanned k (hkeys k List.mem_cons_self)).later hevolves) ((hclears k).later hevolves)
      refine wp_tx (fun changed' t'' hrun' => ⟨trivial, ?_⟩) (fun e hrun' => ?_)
      · rw [hrun] at hrun'
        obtain ⟨rfl, rfl⟩ := ok_inj hrun'
        have hstep : Evolves t t' := evolves_freezeWindow hrun
        refine ⟨hevolves.trans hstep, fun k' hk' => hkeys k' (List.mem_cons_of_mem _ hk'), ?_⟩
        intro k'
        by_cases hk' : k' = k
        · subst hk'
          have hdone : t'.event k' = eventAfter batch.objective items db k' := by
            rw [hevent, if_pos rfl, (hevents k').1]
          exact ⟨hidem t' k' hdone, fun _ => hdone⟩
        · have hsame : t'.event k' = t.event k' := by rw [hevent, if_neg hk']
          unfold eventAfter at hevents ⊢
          rw [hsame]
          refine ⟨(hevents k').1, fun hrest => (hevents k').2 ?_⟩
          exact fun hmem => hrest ((List.mem_cons.mp hmem).resolve_left hk')
      · rw [hrun] at hrun'
        cases hrun')
    (groupKeys items) db ⟨.refl db, fun _ h => h, fun k => ⟨rfl, fun hk => by
      unfold eventAfter
      rw [viewsOf_eq_nil hk]
      cases db.event k <;> rfl⟩⟩
  have hwp : wp (fun _ => True) (advanceSelection batch items)
      (fun r t => (∃ changed, r = .ok changed) ∧
        ∀ k, t.event k = eventAfter batch.objective items db k) db := by
    unfold advanceSelection
    rw [if_neg hopen]
    refine wp_bind (wp_mono hloop (fun _ h => h) ?_)
    rintro (e | changed) t ht
    · exact ht.elim
    · exact wp_pure ⟨⟨_, rfl⟩, fun k => (ht.2.2 k).2 List.not_mem_nil⟩
  exact hwp.2

/-! ## The plan -/

theorem mem_of_planOf_perm {a b : List BatchItem} (h : (planOf a).Perm (planOf b)) (hmem : item ∈ a)
    : ∃ item' ∈ b, item'.plan = item.plan :=
  List.mem_map.mp (h.subset (List.mem_map_of_mem hmem))

theorem mem_phaseItems {phase : String} :
    item ∈ phaseItems items key phase ↔
      item ∈ items ∧ item.window = some key ∧ item.phase = phase := by
  unfold phaseItems
  rw [List.mem_filter, Bool.and_eq_true, beq_iff_eq, beq_iff_eq]

theorem mem_groupKeys : key ∈ groupKeys items ↔ ∃ item ∈ items, item.window = some key := by
  unfold groupKeys
  rw [List.mem_eraseDups, List.mem_filterMap]

variable {candidates : String → List (String × Overrides)} {projects symbols : List String}
  {folds : List Int}

theorem expandWalkForward_oos {planned : PlannedItem}
    (h : planned ∈ expandWalkForward projects symbols folds candidates) :
    { planned with phase := "oos" } ∈ expandWalkForward projects symbols folds candidates := by
  simp only [expandWalkForward, List.mem_flatMap, List.mem_map] at h ⊢
  obtain ⟨projectId, hproject, symbol, hsymbol, fold, hfold, phase, -, candidate, hcandidate,
    rfl⟩ := h
  exact ⟨projectId, hproject, symbol, hsymbol, fold, hfold, "oos", by decide, candidate,
    hcandidate, rfl⟩

variable {kind : String} {start : ExperimentDb}

theorem createBatch_ok {objective : Option String} {planned : List PlannedItem}
    (h : createBatch kind objective planned = .ok start) :
    start.items = planned.zipIdx.map newItem ∧
      start.windows.map Window.key = groupKeys start.items ∧
      start.candidates = (groupKeys start.items).flatMap (planCandidates start.items) := by
  unfold createBatch at h
  simp only at h
  split_ifs at h
  split at h
  · cases h
  · rw [← Except.ok.inj h]
    refine ⟨rfl, ?_, rfl⟩
    rw [List.map_map]
    exact List.map_id' _

theorem oosItem_of_createBatch {objective : Option String}
    (hcreate : createBatch kind objective (expandWalkForward projects symbols folds candidates) =
      .ok start) (hitem : item ∈ start.items) (hwindow : item.window = some key) :
    ∃ other ∈ start.items, other.window = some key ∧ other.phase = "oos" ∧
      other.candidate = item.candidate := by
  obtain ⟨hplanned, -, -⟩ := createBatch_ok hcreate
  rw [hplanned] at hitem
  obtain ⟨⟨row, i⟩, hrow, rfl⟩ := List.mem_map.mp hitem
  have hoos := expandWalkForward_oos (List.fst_mem_of_mem_zipIdx hrow)
  obtain ⟨j, hlt, hj⟩ := List.mem_iff_getElem.mp hoos
  refine ⟨newItem ({ row with phase := "oos" }, j), ?_, ?_, rfl, rfl⟩
  · rw [hplanned]
    refine List.mem_map_of_mem (List.mem_zipIdx_iff_getElem?.mpr ?_)
    rw [← hj]
    exact List.getElem?_eq_getElem hlt
  · unfold BatchItem.window newItem at hwindow ⊢
    simp only at hwindow ⊢
    split_ifs at hwindow with hphase
    rw [if_pos (show "oos" ∈ windowPhases by decide)]
    exact hwindow

theorem plannedWindow_of_createBatch {objective : Option String}
    (hcreate : createBatch kind objective (expandWalkForward projects symbols folds candidates) =
      .ok start) (hdb : Evolves start db) (hitems : (planOf items).Perm (planOf start.items))
    (hkey : key ∈ groupKeys items) : PlannedWindow items db key := by
  obtain ⟨-, hwindows, hcandidates⟩ := createBatch_ok hcreate
  have hstart : key ∈ groupKeys start.items := by
    obtain ⟨item, hitem, hwindow⟩ := mem_groupKeys.mp hkey
    obtain ⟨item', hitem', hplan⟩ := mem_of_planOf_perm hitems hitem
    exact mem_groupKeys.mpr ⟨item', hitem', (plan_window hplan).trans hwindow⟩
  have hbegin : PlannedWindow items start key := by
    refine ⟨by rw [hwindows]; exact hstart, ?_, ?_⟩
    · intro item hitem
      obtain ⟨hmem, hwindow, -⟩ := mem_phaseItems.mp hitem
      obtain ⟨item', hitem', hplan⟩ := mem_of_planOf_perm hitems hmem
      have hname : item.candidate ∈ candidateNames start.items key := by
        unfold candidateNames
        rw [List.mem_eraseDups]
        refine List.mem_map.mpr ⟨item', List.mem_filter.mpr ⟨hitem', ?_⟩, plan_candidate hplan⟩
        rw [plan_window hplan, hwindow, beq_self_eq_true]
      have hcandidate : ∃ candidate ∈ planCandidates start.items key,
          candidate.name = (key, item.candidate) :=
        ⟨_, List.mem_map_of_mem hname, rfl⟩
      obtain ⟨candidate, hcandidate, hsame⟩ := hcandidate
      rw [hcandidates]
      exact List.mem_map.mpr ⟨candidate, List.mem_flatMap.mpr ⟨key, hstart, hcandidate⟩, hsame⟩
    · intro item hitem
      obtain ⟨hmem, hwindow, -⟩ := mem_phaseItems.mp hitem
      obtain ⟨item', hitem', hplan⟩ := mem_of_planOf_perm hitems hmem
      obtain ⟨oos, hoos, hoosWindow, hoosPhase, hoosCandidate⟩ :=
        oosItem_of_createBatch hcreate hitem' ((plan_window hplan).trans hwindow)
      obtain ⟨other, hother, hotherPlan⟩ := mem_of_planOf_perm hitems.symm hoos
      refine ⟨other, mem_phaseItems.mpr ⟨hother, (plan_window hotherPlan).trans hoosWindow,
        (plan_phase hotherPlan).trans hoosPhase⟩, ?_⟩
      rw [plan_candidate hotherPlan, hoosCandidate, plan_candidate hplan]
  exact hbegin.later hdb

/-! ## Two runs -/

theorem evolves_after : ∀ (actions : List BatchAction) (db : ExperimentDb),
    Evolves db (batchMachine.after db actions) := by
  intro actions
  induction actions with
  | nil => exact fun db => .refl db
  | cons action actions ih =>
    intro db
    exact (within_program action db).2.trans (ih _)

theorem event_stays {t : ExperimentDb} {actions : List BatchAction} {action : BatchAction}
    (ht : Leaves action.program (batchMachine.after db actions) t) {event : SelectionEvent}
    (hevent : db.event key = some event) : t.event key = some event := by
  have hreached := evolves_after actions db
  exact (hreached.trans
    (ht.of_wp (.refl _) (within_program action _))).event hevent

section Readings

variable {objective : Objective} {items items' : List BatchItem} {db db' : ExperimentDb}
  {key : WindowKey} {batch : Batch}

theorem Clears.agree (h : Clears objective items db key)
    (hagree : (viewsOf items key).Perm (viewsOf items' key)) (hevent : db'.event key = db.event key) :
    Clears objective items' db' key := by
  intro hall
  have hrows : (rowsOf (viewsOf items key)).Perm (rowsOf (viewsOf items' key)) :=
    hagree.filterMap _
  obtain ⟨hreadable, htrades⟩ := h (fun view hview => hall view (hagree.subset hview))
  refine ⟨fun view hview => hreadable view (hagree.symm.subset hview),
    fun hnone hvalued row hrow => ?_⟩
  exact htrades (hevent ▸ hnone) (fun row hrow => hvalued row (hrows.subset hrow)) row
    (hrows.symm.subset hrow)

theorem Freezes.agree (h : Freezes objective items db key)
    (hagree : (viewsOf items key).Perm (viewsOf items' key)) (hevent : db'.event key = db.event key) :
    Freezes objective items' db' key :=
  ⟨hevent.trans h.1, h.2.1.perm hagree, h.2.2.agree hagree hevent⟩

theorem viewsOf_perm (hperm : items.Perm items') : AgreeOnValidation items items' :=
  fun _ => (hperm.filter _).map _

/-- A loop that freezes no window leaves the events. -/
theorem advanceSelection_quiet (hplanned : ∀ key ∈ groupKeys items, PlannedWindow items db key)
    (hquiet : ∀ key, ¬ Freezes batch.objective items db key) (key : WindowKey) :
    (advanceSelection batch items db).state.event key = db.event key := by
  unfold advanceSelection
  split_ifs
  · rfl
  have hloop := wp_forEach (I := fun _ => True)
    (f := fun key => TxM.tx (freezeWindow batch.objective items key))
    (fun remaining t => Evolves db t ∧ (∀ k ∈ remaining, k ∈ groupKeys items) ∧
      ∀ k, t.event k = db.event k) (fun _ t => ∀ k, t.event k = db.event k)
    (by
      rintro k rest t ⟨hevolves, hkeys, hevents⟩
      have hplan := (hplanned k (hkeys k List.mem_cons_self)).later hevolves
      refine wp_tx (fun changed t' hrun => ⟨trivial, ?_⟩) (fun e _ => hevents)
      have hclears := clears_of_freezeWindow hplan hrun
      obtain ⟨changed', t'', hrun', hevent⟩ := freezeWindow_total hplan hclears
      rw [hrun] at hrun'
      obtain ⟨rfl, rfl⟩ := ok_inj hrun'
      refine ⟨hevolves.trans (evolves_freezeWindow hrun),
        fun k' hk' => hkeys k' (List.mem_cons_of_mem _ hk'), fun k' => ?_⟩
      rw [hevent]
      split_ifs with hk'
      · rw [hk', ← hevents k]
        unfold eventAfter frozenEvent
        cases hbefore : t.event k with
        | some event => rfl
        | none =>
          rw [frozenRanking_not_ready (fun hready => hquiet k ⟨?_, hready, ?_⟩)]
          · rfl
          · rw [← hevents k, hbefore]
          · exact hclears.agree (List.Perm.refl _) (hevents k).symm
      · exact hevents k')
    (groupKeys items) db ⟨.refl db, fun _ h => h, fun _ => rfl⟩
  have hwp : wp (fun _ => True) (TxM.forEach (fun key => TxM.tx (freezeWindow batch.objective items
      key)) (groupKeys items) >>= fun changed => pure (changed.any id))
      (fun _ t => ∀ k, t.event k = db.event k) db := by
    refine wp_bind (wp_mono hloop (fun _ h => h) ?_)
    rintro (e | changed) t ht
    · exact ht
    · exact wp_pure ht.2.2
  exact hwp.2 key

/-- The items with those of a window in front. -/
def front (key : WindowKey) (items : List BatchItem) : List BatchItem :=
  items.filter (fun item => item.window == some key) ++
    items.filter (fun item => !(item.window == some key))

theorem front_perm (key : WindowKey) (items : List BatchItem) : (front key items).Perm items :=
  List.filter_append_perm _ _

theorem groupKeys_front (h : key ∈ groupKeys items) :
    ∃ rest, groupKeys (front key items) = key :: rest := by
  obtain ⟨item, hitem, hwindow⟩ := mem_groupKeys.mp h
  cases hfirst : items.filter (fun item => item.window == some key) with
  | nil =>
    have hmem : item ∈ items.filter (fun item => item.window == some key) :=
      List.mem_filter.mpr ⟨hitem, by simp [hwindow]⟩
    rw [hfirst] at hmem
    cases hmem
  | cons first more =>
    have hkey : first.window = some key := by
      have hmem : first ∈ items.filter (fun item => item.window == some key) := by
        rw [hfirst]
        exact List.mem_cons_self
      simpa using (List.mem_filter.mp hmem).2
    unfold groupKeys front
    rw [hfirst, List.cons_append, List.filterMap_cons, hkey, List.eraseDups_cons]
    exact ⟨_, rfl⟩

theorem advanceSelection_state
    (hopen : ¬ (batch.mode ≠ "walk_forward" ∨ batch.cancelRequested = true)) :
    (advanceSelection batch items db).state = (TxM.forEach (fun key =>
      TxM.tx (freezeWindow batch.objective items key)) (groupKeys items) db).state := by
  unfold advanceSelection
  rw [if_neg hopen]
  cases hvalue : (TxM.forEach (fun key => TxM.tx (freezeWindow batch.objective items key))
      (groupKeys items) db).value with
  | ok changed =>
    rw [bind_ok hvalue]
    rfl
  | error e => rw [bind_error hvalue]

/-- What the first window writes is kept by the rest of the loop. -/
theorem advanceSelection_first
    (hopen : ¬ (batch.mode ≠ "walk_forward" ∨ batch.cancelRequested = true))
    {rest : List WindowKey} (hkeys : groupKeys items = key :: rest) {changed : Bool}
    (hrun : freezeWindow batch.objective items key db = .ok (changed, db')) :
    Evolves db' (advanceSelection batch items db).state := by
  have htx : (TxM.tx (freezeWindow batch.objective items key)) db =
      { commits := [db'], state := db', value := .ok changed } := by
    unfold TxM.tx
    rw [hrun]
  rw [advanceSelection_state hopen, hkeys, forEach_cons_state (by rw [htx]), htx]
  have hkeep := wp_forEach_keep (I := fun _ => True)
    (f := fun key => TxM.tx (freezeWindow batch.objective items key)) (Evolves db')
    (fun k t ht => wp_tx (fun _ _ h => ⟨trivial, ht.trans (evolves_freezeWindow h)⟩)
      (fun _ _ => ht)) rest db' (.refl db')
  exact hkeep.2

theorem advanceSelection_raises
    (hopen : ¬ (batch.mode ≠ "walk_forward" ∨ batch.cancelRequested = true))
    {rest : List WindowKey} (hkeys : groupKeys items = key :: rest) {e : BatchError}
    (hrun : freezeWindow batch.objective items key db = .error e) :
    (advanceSelection batch items db).state = db := by
  have htx : (TxM.tx (freezeWindow batch.objective items key)) db =
      { commits := [], state := db, value := .error e } := by
    unfold TxM.tx
    rw [hrun]
  rw [advanceSelection_state hopen, hkeys]
  show ((TxM.tx (freezeWindow batch.objective items key) >>= _) db).state = db
  rw [bind_error (by rw [htx]), htx]

/-- The rows of a window can be read in every order. -/
theorem exists_reading (hreadable : ∀ view ∈ viewsOf items key, view.row.isSome = true)
    {rows : List RankingRow} (hperm : rows.Perm (rowsOf (viewsOf items key))) :
    ∃ items', items'.Perm items ∧ rowsOf (viewsOf items' key) = rows := by
  have hrows := (mapM_rankingRow (mapM_rowsOf hreadable).1).flip
  obtain ⟨chosen, hread, hchosen⟩ := List.perm_comp_forall₂ hperm hrows
  refine ⟨chosen ++ items.filter (fun item => !(item.window == some key &&
    item.phase == "validation")), ?_, ?_⟩
  · exact (hchosen.append_right _).trans (List.filter_append_perm _ _)
  · have hphase : phaseItems (chosen ++ items.filter (fun item => !(item.window == some key &&
        item.phase == "validation"))) key "validation" = chosen := by
      unfold phaseItems at hchosen ⊢
      rw [List.filter_append, List.filter_eq_self.mpr (fun item hitem => ?_), List.filter_filter,
        List.filter_eq_nil_iff.mpr (fun item _ => by simp), List.append_nil]
      exact (List.mem_filter.mp (hchosen.subset hitem)).2
    unfold viewsOf
    rw [hphase]
    clear hphase hchosen hperm
    induction hread with
    | nil => rfl
    | cons hrow _ ih =>
      unfold rowsOf at ih ⊢
      rw [List.map_cons, List.filterMap_cons, view_row_iff.mpr hrow, ih]

theorem frozenEvent_ready (hready : Rankable objective (viewsOf items key))
    (hreadable : ∀ view ∈ viewsOf items key, view.row.isSome = true) :
    ∃ selected, frozenEvent objective key (viewsOf items key) = some (selectionEvent objective key
      selected (sortRanking objective (rowsOf (viewsOf items key)))) := by
  unfold frozenEvent
  rw [frozenRanking_ready hready]
  cases hsorted : sortRanking objective (rowsOf (viewsOf items key)) with
  | cons selected rest => exact ⟨selected, rfl⟩
  | nil =>
    have hlength : (sortRanking objective (rowsOf (viewsOf items key))).length =
        (phaseItems items key "validation").length :=
      (List.mergeSort_perm _ _).length_eq.trans (mapM_rowsOf hreadable).2
    rw [hsorted] at hlength
    exact absurd (List.map_eq_nil_iff.mpr (List.length_eq_zero_iff.mp hlength.symm)) hready.1

/-- What two readings of the same items freeze, where every order freezes the same. -/
theorem comparable_of_same (hopen : ¬ (batch.mode ≠ "walk_forward" ∨ batch.cancelRequested = true))
    (hplanned : ∀ {items'}, items'.Perm items → ∀ k ∈ groupKeys items', PlannedWindow items' db k)
    (hsame : ∀ {items'}, items'.Perm items → (advanceSelection batch items db).state.event key =
      (advanceSelection batch items' db).state.event key)
    (hfreezes : Freezes batch.objective items db key)
    (hclears : ∀ other, Clears batch.objective items db other) :
    Comparable batch.objective (rowsOf (viewsOf items key)) := by
  have hreadable := (hfreezes.2.2 hfreezes.2.1.2.1).1
  have hfrozen : ∀ {rows : List RankingRow}, rows.Perm (rowsOf (viewsOf items key)) →
      ∃ selected, (advanceSelection batch items db).state.event key =
        some (selectionEvent batch.objective key selected (sortRanking batch.objective rows)) := by
    intro rows hperm
    obtain ⟨items', hitems', rfl⟩ := exists_reading hreadable hperm
    have hviews := viewsOf_perm hitems'.symm
    obtain ⟨selected, hselected⟩ := frozenEvent_ready (hfreezes.2.1.perm (hviews key))
      (fun view hview => hreadable view ((hviews key).symm.subset hview))
    refine ⟨selected, ?_⟩
    rw [hsame hitems', (advanceSelection_total hopen (hplanned hitems')
      (fun k => (hclears k).agree (hviews k) rfl)).2 key]
    unfold eventAfter
    rw [hfreezes.1, hselected]
    rfl
  by_contra hnot
  obtain ⟨rows₁, rows₂, hperm₁, hperm₂, hdiffer⟩ := exists_rankings_differ hnot
  obtain ⟨selected₁, hevent₁⟩ := hfrozen hperm₁
  obtain ⟨selected₂, hevent₂⟩ := hfrozen hperm₂
  have hevents := Option.some.inj (hevent₁.symm.trans hevent₂)
  exact hdiffer (congrArg SelectionEvent.candidateRanking hevents)

/-- A window is frozen when it comes first, and not when one that raises does. -/
theorem clears_of_same (hopen : ¬ (batch.mode ≠ "walk_forward" ∨ batch.cancelRequested = true))
    (hplanned : ∀ {items'}, items'.Perm items → ∀ k ∈ groupKeys items', PlannedWindow items' db k)
    (hsame : ∀ {items'}, items'.Perm items → (advanceSelection batch items db).state.event key =
      (advanceSelection batch items' db).state.event key)
    (hfreezes : Freezes batch.objective items db key) (other : WindowKey) :
    Clears batch.objective items db other := by
  by_contra hraises
  have hmem : ∀ {k}, viewsOf items k ≠ [] → k ∈ groupKeys items :=
    fun hviews => by_contra (fun hk => hviews (viewsOf_eq_nil hk))
  have hother : viewsOf items other ≠ [] := by
    intro hnil
    refine hraises (fun _ => ?_)
    rw [hnil]
    simp [rowsOf]
  obtain ⟨rest, hfirst⟩ := groupKeys_front (hmem hfreezes.2.1.1)
  obtain ⟨rest', hfirst'⟩ := groupKeys_front (hmem hother)
  have hviews : ∀ k, AgreeOnValidation items (front k items) := fun k => viewsOf_perm (front_perm k items).symm
  have hraised : (advanceSelection batch (front other items) db).state = db := by
    cases hrun : freezeWindow batch.objective (front other items) other db with
    | error e => exact advanceSelection_raises hopen hfirst' hrun
    | ok r =>
      have hplan := hplanned (front_perm other items) other (by simp [hfirst'])
      exact absurd ((clears_of_freezeWindow hplan hrun).agree (hviews other other).symm rfl) hraises
  have hplan := hplanned (front_perm key items) key (by simp [hfirst])
  obtain ⟨changed, db', hrun, hevent⟩ := freezeWindow_total hplan
    (hfreezes.2.2.agree (hviews key key) rfl)
  obtain ⟨selected, hselected⟩ := frozenEvent_ready (hfreezes.2.1.perm (hviews key key))
    (fun view hview => (hfreezes.2.2 hfreezes.2.1.2.1).1 view ((hviews key key).symm.subset hview))
  have hfrozen : db'.event key = frozenEvent batch.objective key (viewsOf (front key items) key) := by
    rw [hevent, if_pos rfl]
    unfold eventAfter
    rw [hfreezes.1]
    rfl
  have hkept := (advanceSelection_first hopen hfirst hrun).event (hfrozen.trans hselected)
  rw [← hsame (front_perm key items), hsame (front_perm other items), hraised,
    hfreezes.1] at hkept
  cases hkept

end Readings

instance (objective : Objective) (views : List ValidationView) :
    Decidable (Counted objective views) :=
  decidable_of_iff
    ((∀ view ∈ views, view.row.isSome = true) ∧
      (AllValued objective (rowsOf views) →
        ∀ row ∈ rowsOf views, ∀ trades ∈ row.metrics.trades, trades.toInt?.isSome = true))
    ⟨fun h => ⟨h.1, h.2⟩, fun h => ⟨h.violations, h.trades⟩⟩

theorem forall_viewsOf {P : List ValidationView → Prop} (hnil : P [])
    (h : ∀ key ∈ groupKeys items, P (viewsOf items key)) (key : WindowKey) :
    P (viewsOf items key) := by
  by_cases hkey : key ∈ groupKeys items
  · exact h key hkey
  · rw [viewsOf_eq_nil hkey]
    exact hnil

/-! ## One window, read in both orders -/

def onlyWindow : WindowKey where
  projectId := "project"
  symbol := "510300"
  fold := 1

/-- This batch when both candidates are validated with these results, just before
the selection. -/
def validatedState (first second : Statistics) : ExperimentDb :=
  batchMachine.after twoCandidateBatch
    [.dispatchWindow acceptingEnv,
      .deliver "run-0" "success" none [("Sharpe Ratio", .text "1.5")],
      .deliver "run-1" "success" none [("Sharpe Ratio", .text "0.5")],
      .deliver "run-2" "success" none first,
      .deliver "run-3" "success" none second]

theorem evolves_validatedState (first second : Statistics) :
    Evolves twoCandidateBatch (validatedState first second) := evolves_after _ _

theorem created_twoCandidateBatch : createBatch "backtest" none twoCandidates =
    .ok twoCandidateBatch := by decide +kernel

def sharpeState : ExperimentDb :=
  validatedState [("Sharpe Ratio", .text "1.5")] [("Sharpe Ratio", .text "0.5")]

/-- The batch with one Sharpe ratio that is `nan`. -/
def nanState : ExperimentDb :=
  validatedState [("Sharpe Ratio", .text "NaN")] [("Sharpe Ratio", .text "1.0")]

theorem agreeOnValidation_reverse (items : List BatchItem) :
    AgreeOnValidation items items.reverse := by
  intro key
  unfold viewsOf phaseItems
  rw [List.filter_reverse, List.map_reverse]
  exact (List.reverse_perm _).symm

theorem planOf_reverse {a b : List BatchItem} (h : planOf a = planOf b) :
    (planOf a.reverse).Perm (planOf b) := by
  rw [← h]
  exact (List.reverse_perm _).map _

theorem frozenRanking_pair {views : List ValidationView} {a b : RankingRow}
    (hready : AllSucceeded views) (hrows : rowsOf views = [a, b])
    (hvalued : AllValued objective [a, b]) :
    frozenRanking objective views =
      some (if !(b.sortKey objective).lt (a.sortKey objective) then [a, b] else [b, a]) := by
  have hnonempty : views ≠ [] := by
    rintro rfl
    cases hrows
  have hpair : sortRanking objective [a, b] =
      if !(b.sortKey objective).lt (a.sortKey objective) then [a, b] else [b, a] :=
    mergeSort_pair _ a b
  unfold frozenRanking
  rw [hrows, if_neg, hpair]
  rintro (h | h | h)
  · exact hnonempty h
  · exact h hready
  · exact h hvalued

/-- The row of a candidate of this batch. -/
def sampleRow (value : String) (sharpe drawdown : Option PyFloat) : RankingRow where
  candidateKey := s!"window={value}"
  parameters := [("window", value)]
  metrics :=
    { totalReturn := none
      sharpe := sharpe
      drawdown := drawdown
      trades := none
      turnover := none
      constraintViolations := 0 }

theorem nanState_event {a b : RankingRow}
    (hitems : (planOf items).Perm (planOf twoCandidateBatch.items))
    (hcounted : ∀ key ∈ groupKeys items, AllSucceeded (viewsOf items key) →
      Counted .sharpe (viewsOf items key)) (hready : AllSucceeded (viewsOf items onlyWindow))
    (hrows : rowsOf (viewsOf items onlyWindow) = [a, b]) (hvalued : AllValued .sharpe [a, b])
    (hstays : (b.sortKey .sharpe).lt (a.sortKey .sharpe) = false) :
    (advanceSelection nanState.batch items nanState).state.event onlyWindow =
      some (selectionEvent .sharpe onlyWindow a [a, b]) := by
  have hopen : ¬ (nanState.batch.mode ≠ "walk_forward" ∨ nanState.batch.cancelRequested = true) := by
    decide +kernel
  have hobjective : nanState.batch.objective = .sharpe := by decide +kernel
  have hevolves : Evolves twoCandidateBatch nanState := evolves_validatedState _ _
  have hevent := (advanceSelection_total hopen
    (fun k hk => plannedWindow_of_createBatch created_twoCandidateBatch hevolves hitems hk)
    (by
      rw [hobjective]
      exact fun key => clears_of_counted (forall_viewsOf
        (P := fun views => AllSucceeded views → Counted _ views) (by decide) hcounted key))).2
          onlyWindow
  refine hevent.trans ?_
  unfold eventAfter frozenEvent
  rw [hobjective, frozenRanking_pair hready hrows hvalued, hstays]
  rfl

end LocalPlatform.Experiments
