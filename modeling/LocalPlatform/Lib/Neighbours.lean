import Mathlib.Data.List.MinMax

/-!
# Nearest elements and batches of links

A table of dates stores with each date the nearest one before it and the nearest one after it.
A batch of dates comes with the links between its own dates, and is merged into the table: a
link that the batch knows replaces the stored one, and the stored one stays where the batch
knows none.

* `IsPrev` and `IsNext` say what a link has to be; the two are dual.
* `Fits` is the condition on a batch under which the merged links are those of all dates.
* `Fits.prev_stored` and `Fits.prev_batch` give the links before a date, those after it are
  their duals, and `fits_of_prev` shows that links that are all right need the condition.
-/

namespace LocalPlatform.Neighbours

variable {α : Type} [LinearOrder α]

/-- The greatest element below `date`, or nothing when there is none. -/
def IsPrev (dates : List α) (date : α) : Option α → Prop
  | none => ∀ other ∈ dates, ¬ other < date
  | some prev => prev ∈ dates ∧ prev < date ∧ ∀ other ∈ dates, other < date → other ≤ prev

/-- The least element above `date`, or nothing when there is none. -/
def IsNext (dates : List α) (date : α) : Option α → Prop
  | none => ∀ other ∈ dates, ¬ date < other
  | some next => next ∈ dates ∧ date < next ∧ ∀ other ∈ dates, date < other → next ≤ other

variable {dates : List α} {date : α}

theorem isNext_iff_dual {next : Option α} :
    IsNext dates date next ↔ @IsPrev αᵒᵈ _ dates date next := by
  cases next <;> exact Iff.rfl

/-- A batch that has all stored dates of its range, and that ends on stored dates where stored
dates lie beyond its ends. -/
structure Fits (stored batch : List α) : Prop where
  inside : ∀ date ∈ stored, ∀ low ∈ batch, ∀ high ∈ batch, low < date → date < high → date ∈ batch
  before : ∀ date ∈ stored, ∀ low ∈ batch, (∀ other ∈ batch, low ≤ other) → date < low →
    low ∈ stored
  after : ∀ date ∈ stored, ∀ high ∈ batch, (∀ other ∈ batch, other ≤ high) → high < date →
    high ∈ stored

theorem Fits.dual {stored batch : List α} (h : Fits stored batch) :
    @Fits αᵒᵈ _ stored batch where
  inside := fun date hdate low hlow high hhigh hlt hgt =>
    h.inside date hdate high hhigh low hlow hgt hlt
  before := h.after
  after := h.before

theorem IsPrev.unique {a b : Option α} (ha : IsPrev dates date a) (hb : IsPrev dates date b) :
    a = b := by
  cases a with
  | none =>
    cases b with
    | none => rfl
    | some b => exact absurd hb.2.1 (ha b hb.1)
  | some a =>
    cases b with
    | none => exact absurd ha.2.1 (hb a ha.1)
    | some b => rw [le_antisymm (hb.2.2 a ha.1 ha.2.1) (ha.2.2 b hb.1 hb.2.1)]

theorem exists_least (h : dates ≠ []) : ∃ least ∈ dates, ∀ other ∈ dates, least ≤ other := by
  induction dates with
  | nil => exact absurd rfl h
  | cons first rest ih =>
    by_cases hrest : rest = []
    · subst hrest
      exact ⟨first, by simp, by simp⟩
    · obtain ⟨least, hleast, hmin⟩ := ih hrest
      cases le_total first least with
      | inl hle =>
        refine ⟨first, by simp, ?_⟩
        intro other hother
        cases List.mem_cons.mp hother with
        | inl heq => exact heq.ge
        | inr hmem => exact hle.trans (hmin other hmem)
      | inr hle =>
        refine ⟨least, List.mem_cons_of_mem _ hleast, ?_⟩
        intro other hother
        cases List.mem_cons.mp hother with
        | inl heq => exact hle.trans heq.ge
        | inr hmem => exact hmin other hmem

theorem exists_greatest (h : dates ≠ []) :
    ∃ greatest ∈ dates, ∀ other ∈ dates, other ≤ greatest := @exists_least αᵒᵈ _ dates h

/-! ## Merged links -/

theorem Fits.prev_stored {stored batch all : List α} (h : Fits stored batch)
    (hall : ∀ date, date ∈ all ↔ date ∈ stored ∨ date ∈ batch) (hdate : date ∈ stored)
    (hbatch : date ∉ batch) {link : Option α} (hlink : IsPrev stored date link) :
    IsPrev all date link := by
  -- a date of the batch below this one lies below a stored one, the end of the batch
  have hbelow : ∀ other ∈ batch, other < date →
      ∃ high ∈ stored, other ≤ high ∧ high < date := by
    intro other hother hlt
    obtain ⟨high, hhigh, hmax⟩ := exists_greatest (List.ne_nil_of_mem hother)
    have hend : high < date := by
      by_contra hnot
      have hge : date ≤ high := not_lt.mp hnot
      cases lt_or_eq_of_le hge with
      | inl hgt => exact hbatch (h.inside date hdate other hother high hhigh hlt hgt)
      | inr heq => exact hbatch (heq ▸ hhigh)
    exact ⟨high, h.after date hdate high hhigh hmax hend, hmax other hother, hend⟩
  cases link with
  | none =>
    intro other hother hlt
    cases (hall other).mp hother with
    | inl hmem => exact hlink other hmem hlt
    | inr hmem =>
      obtain ⟨high, hhigh, -, hend⟩ := hbelow other hmem hlt
      exact hlink high hhigh hend
  | some prev =>
    refine ⟨(hall prev).mpr (.inl hlink.1), hlink.2.1, ?_⟩
    intro other hother hlt
    cases (hall other).mp hother with
    | inl hmem => exact hlink.2.2 other hmem hlt
    | inr hmem =>
      obtain ⟨high, hhigh, hle, hend⟩ := hbelow other hmem hlt
      exact hle.trans (hlink.2.2 high hhigh hend)

theorem Fits.prev_batch {stored batch all : List α} (h : Fits stored batch)
    (hall : ∀ date, date ∈ all ↔ date ∈ stored ∨ date ∈ batch) (hdate : date ∈ batch)
    {link old : Option α} (hlink : IsPrev batch date link)
    (hold : (date ∈ stored ∧ IsPrev stored date old) ∨ (date ∉ stored ∧ old = none)) :
    IsPrev all date (link.or old) := by
  cases link with
  | some prev =>
    refine ⟨(hall prev).mpr (.inr hlink.1), hlink.2.1, ?_⟩
    intro other hother hlt
    cases (hall other).mp hother with
    | inr hmem => exact hlink.2.2 other hmem hlt
    | inl hmem =>
      by_contra hnot
      have hgt : prev < other := not_le.mp hnot
      have hbatch := h.inside other hmem prev hlink.1 date hdate hgt hlt
      exact hnot (hlink.2.2 other hbatch hlt)
  | none =>
    have hfirst : ∀ other ∈ batch, date ≤ other := fun other hother =>
      not_lt.mp (hlink other hother)
    show IsPrev all date old
    cases hold with
    | inl hstored =>
      cases old with
      | none =>
        intro other hother hlt
        cases (hall other).mp hother with
        | inl hmem => exact hstored.2 other hmem hlt
        | inr hmem => exact hlink other hmem hlt
      | some prev =>
        refine ⟨(hall prev).mpr (.inl hstored.2.1), hstored.2.2.1, ?_⟩
        intro other hother hlt
        cases (hall other).mp hother with
        | inl hmem => exact hstored.2.2.2 other hmem hlt
        | inr hmem => exact absurd hlt (hlink other hmem)
    | inr hnew =>
      rw [hnew.2]
      intro other hother hlt
      cases (hall other).mp hother with
      | inl hmem => exact hnew.1 (h.before other hmem date hdate hfirst hlt)
      | inr hmem => exact hlink other hmem hlt

theorem fits_of_prev {stored batch all : List α}
    (hall : ∀ date, date ∈ all ↔ date ∈ stored ∨ date ∈ batch)
    (hbatch : ∀ date ∈ batch, ∀ link, IsPrev batch date (some link) →
      IsPrev all date (some link))
    (hnew : ∀ date ∈ batch, date ∉ stored → IsPrev batch date none → IsPrev all date none)
    (hstored : ∀ date ∈ stored, date ∉ batch → ∃ link, IsPrev stored date link ∧
      IsPrev all date link) : Fits stored batch := by
  constructor
  · intro date hdate low hlow high hhigh hlt hgt
    by_contra hnot
    -- the first date of the batch above `date`, and its link inside the batch
    obtain ⟨next, hnext, hmin⟩ :
        ∃ least ∈ batch.filter (date < ·), ∀ other ∈ batch.filter (date < ·), least ≤ other :=
      exists_least (List.ne_nil_of_mem (List.mem_filter.mpr ⟨hhigh, by simpa using hgt⟩))
    obtain ⟨prev, hprev, hmax⟩ :
        ∃ greatest ∈ batch.filter (· < date), ∀ other ∈ batch.filter (· < date), other ≤ greatest :=
      exists_greatest (List.ne_nil_of_mem (List.mem_filter.mpr ⟨hlow, by simpa using hlt⟩))
    simp only [List.mem_filter, decide_eq_true_eq] at hnext hmin hprev hmax
    have hlink : IsPrev batch next (some prev) := by
      refine ⟨hprev.1, hprev.2.trans hnext.2, ?_⟩
      intro other hother hbelow
      have hne : other ≠ date := fun heq => hnot (heq ▸ hother)
      cases lt_or_gt_of_ne hne with
      | inl hlt' => exact hmax other ⟨hother, hlt'⟩
      | inr hgt' => exact absurd (hmin other ⟨hother, hgt'⟩) (not_le.mpr hbelow)
    have hright := (hbatch next hnext.1 prev hlink).2.2 date ((hall date).mpr (.inl hdate)) hnext.2
    exact absurd hprev.2 (not_lt.mpr hright)
  · intro date hdate low hlow hmin hlt
    by_contra hnot
    have hnone : IsPrev batch low none := fun other hother => not_lt.mpr (hmin other hother)
    exact hnew low hlow hnot hnone date ((hall date).mpr (.inl hdate)) hlt
  · intro date hdate high hhigh hmax hlt
    by_contra hnot
    -- the first stored date above the batch has a link to its end
    obtain ⟨next, hnext, hmin⟩ :
        ∃ least ∈ stored.filter (high < ·), ∀ other ∈ stored.filter (high < ·), least ≤ other :=
      exists_least (List.ne_nil_of_mem (List.mem_filter.mpr ⟨hdate, by simpa using hlt⟩))
    simp only [List.mem_filter, decide_eq_true_eq] at hnext hmin
    have hout : next ∉ batch := fun hmem => absurd (hmax next hmem) (not_le.mpr hnext.2)
    obtain ⟨link, hlink, hright⟩ := hstored next hnext.1 hout
    cases link with
    | none => exact hright high ((hall high).mpr (.inr hhigh)) hnext.2
    | some prev =>
      have hge := hright.2.2 high ((hall high).mpr (.inr hhigh)) hnext.2
      cases lt_or_eq_of_le hge with
      | inl hgt => exact absurd (hmin prev ⟨hlink.1, hgt⟩) (not_le.mpr hlink.2.1)
      | inr heq => exact hnot (heq ▸ hlink.1)

/-! ## The links of a sorted list -/

theorem getElem_lt_iff (h : dates.Pairwise (· < ·)) {i j : ℕ} (hi : i < dates.length)
    (hj : j < dates.length) : dates[i] < dates[j] ↔ i < j := by
  rw [List.pairwise_iff_getElem] at h
  refine ⟨fun hlt => ?_, h i j hi hj⟩
  by_contra hnot
  cases Nat.lt_or_eq_of_le (Nat.not_lt.mp hnot) with
  | inl hgt => exact lt_asymm hlt (h j i hj hi hgt)
  | inr hsame =>
    subst hsame
    exact lt_irrefl _ hlt

theorem isPrev_of_sorted (h : dates.Pairwise (· < ·)) {index : ℕ}
    (hdate : dates[index]? = some date) :
    IsPrev dates date (if 0 < index then dates[index - 1]? else none) := by
  obtain ⟨hindex, rfl⟩ := List.getElem?_eq_some_iff.mp hdate
  by_cases hfirst : 0 < index
  · have hbefore : index - 1 < dates.length := by omega
    rw [if_pos hfirst, List.getElem?_eq_getElem hbefore]
    refine ⟨List.getElem_mem hbefore, (getElem_lt_iff h hbefore hindex).mpr (by omega), ?_⟩
    intro other hother hlt
    obtain ⟨position, hposition, rfl⟩ := List.mem_iff_getElem.mp hother
    have hless := (getElem_lt_iff h hposition hindex).mp hlt
    rw [← not_lt, getElem_lt_iff h hbefore hposition]
    omega
  · rw [if_neg hfirst]
    intro other hother hlt
    obtain ⟨position, hposition, rfl⟩ := List.mem_iff_getElem.mp hother
    have hless := (getElem_lt_iff h hposition hindex).mp hlt
    omega

theorem isNext_of_sorted (h : dates.Pairwise (· < ·)) {index : ℕ}
    (hdate : dates[index]? = some date) : IsNext dates date dates[index + 1]? := by
  obtain ⟨hindex, rfl⟩ := List.getElem?_eq_some_iff.mp hdate
  by_cases hlast : index + 1 < dates.length
  · rw [List.getElem?_eq_getElem hlast]
    refine ⟨List.getElem_mem hlast, (getElem_lt_iff h hindex hlast).mpr (by omega), ?_⟩
    intro other hother hlt
    obtain ⟨position, hposition, rfl⟩ := List.mem_iff_getElem.mp hother
    have hless := (getElem_lt_iff h hindex hposition).mp hlt
    rw [← not_lt, getElem_lt_iff h hposition hlast]
    omega
  · rw [List.getElem?_eq_none (by omega)]
    intro other hother hlt
    obtain ⟨position, hposition, rfl⟩ := List.mem_iff_getElem.mp hother
    have hless := (getElem_lt_iff h hindex hposition).mp hlt
    omega

end LocalPlatform.Neighbours
