import Mathlib.Data.List.Chain
import Mathlib.Order.Lattice

/-!
# Values that change by dates

A table lists the rows where a value changes, and is read at a date by the first row that is dated
on or after it.

* `changes` are the rows whose value is not that of the last change, and `applied` is what a table
  says of a date.
* `writtenRows` is the table of the changes, with a last row that is dated at an end.
* `applied_iff`: each row is given its own value exactly where a row that is no change has the value
  of the row after it.
-/

namespace LocalPlatform.StepTables

variable {δ ν μ : Type} [LinearOrder δ]

/-- The rows whose value is not that of the last change. -/
def changes (same : ν → ν → Bool) : Option ν → List (δ × ν) → List (δ × ν)
  | _, [] => []
  | none, row :: rest => row :: changes same (some row.2) rest
  | some previous, row :: rest =>
    if same row.2 previous then changes same (some previous) rest
    else row :: changes same (some row.2) rest

/-- The value of the first row dated on or after a date. -/
def applied (rows : List (δ × μ)) (date : δ) : Option μ :=
  (rows.find? (fun row => date ≤ row.1)).map Prod.snd

/-- The table of the changes of some rows, with a row at the end unless the rows come to it. -/
def writtenRows (same : ν → ν → Bool) (q : ν → μ) (finish : δ × μ) (previous : Option ν)
    (rows : List (δ × ν)) (last : δ) : List (δ × μ) :=
  (changes same previous rows).map (fun row => (row.1, q row.2)) ++
    if last ≠ finish.1 then [finish] else []

section Changes

variable {same : ν → ν → Bool}

omit [LinearOrder δ] in
theorem changes_sublist (rows : List (δ × ν)) :
    ∀ previous : Option ν, (changes same previous rows).Sublist rows := by
  induction rows with
  | nil =>
    intro previous
    cases previous <;> exact List.Sublist.refl _
  | cons row rest ih =>
    intro previous
    cases previous with
    | none => exact (ih (some row.2)).cons_cons row
    | some value =>
      rw [changes]
      split
      · exact (ih (some value)).cons row
      · exact (ih (some row.2)).cons_cons row

omit [LinearOrder δ] in
theorem changes_cases (previous : Option ν) (row : δ × ν) (rest : List (δ × ν)) :
    changes same previous (row :: rest) = row :: changes same (some row.2) rest ∨
      changes same previous (row :: rest) = changes same previous rest := by
  cases previous with
  | none => exact .inl rfl
  | some value =>
    rw [changes]
    split
    · exact .inr rfl
    · exact .inl rfl

end Changes

theorem applied_cons_of_le {row : δ × μ} {rows : List (δ × μ)} {date : δ} (h : date ≤ row.1) :
    applied (row :: rows) date = some row.2 := by
  simp [applied, h]

theorem applied_cons_of_lt {row : δ × μ} {rows : List (δ × μ)} {date : δ} (h : row.1 < date) :
    applied (row :: rows) date = applied rows date := by
  simp [applied, not_le.mpr h]

section Segments

variable {same : ν → ν → Bool} {q : ν → μ} {finish : δ × μ} {last : δ × ν} {previous : Option ν}
  {rest : List (δ × ν)}

theorem writtenRows_change {row : δ × ν}
    (h : changes same previous (row :: rest) = row :: changes same (some row.2) rest) (stop : δ) :
    writtenRows same q finish previous (row :: rest) stop =
      (row.1, q row.2) :: writtenRows same q finish (some row.2) rest stop := by
  unfold writtenRows
  rw [h, List.map_cons, List.cons_append]

theorem writtenRows_same {row : δ × ν}
    (h : changes same previous (row :: rest) = changes same previous rest) (stop : δ) :
    writtenRows same q finish previous (row :: rest) stop =
      writtenRows same q finish previous rest stop := by
  unfold writtenRows
  rw [h]

theorem applied_skip {next : δ × ν} {date : δ} (hdate : date < next.1)
    (horder : (next :: rest).Pairwise (fun a b => a.1 < b.1)) (hlast : last ∈ next :: rest)
    (hend : last ∈ changes same previous (next :: rest) ∨ last.1 < finish.1) :
    applied (writtenRows same q finish previous (next :: rest) last.1) date =
      applied (writtenRows same q finish previous (next :: rest) last.1) next.1 := by
  have hle : ∀ row ∈ next :: rest, next.1 ≤ row.1 := by
    intro row hrow
    rcases List.mem_cons.mp hrow with rfl | hrest
    · exact le_rfl
    · exact ((List.pairwise_cons.mp horder).1 row hrest).le
  unfold writtenRows
  cases hchanges : changes same previous (next :: rest) with
  | cons first more =>
    have hfirst : next.1 ≤ first.1 := hle first
      ((changes_sublist _ previous).subset (by rw [hchanges]; exact List.mem_cons_self))
    rw [List.map_cons, List.cons_append,
      @applied_cons_of_le _ _ _ (first.1, q first.2) _ _ (hdate.le.trans hfirst),
      @applied_cons_of_le _ _ _ (first.1, q first.2) _ _ hfirst]
  | nil =>
    rw [hchanges] at hend
    have hfinish : last.1 < finish.1 := hend.resolve_left List.not_mem_nil
    have hnext : next.1 ≤ finish.1 := (hle last hlast).trans hfinish.le
    rw [if_pos hfinish.ne, List.map_nil, List.nil_append]
    exact (applied_cons_of_le (hdate.le.trans hnext)).trans (applied_cons_of_le hnext).symm

theorem applied_single {row : δ × ν} (hfinish : q row.2 = finish.2) :
    applied (writtenRows same q finish previous [row] row.1) row.1 = some (q row.2) ↔
      row ∈ changes same previous [row] ∨ row.1 < finish.1 := by
  rcases @changes_cases δ ν same previous row [] with hchange | hsame
  · rw [writtenRows_change hchange, hchange, applied_cons_of_le le_rfl]
    simp
  · have hempty : changes same previous [row] = [] := by
      rw [hsame]
      cases previous <;> rfl
    unfold writtenRows
    rw [hempty, List.map_nil, List.nil_append, hfinish]
    simp only [List.not_mem_nil, false_or]
    rcases lt_trichotomy row.1 finish.1 with hless | heq | hmore
    · rw [if_pos hless.ne, applied_cons_of_le hless.le]
      simp [hless]
    · rw [if_neg (not_not.mpr heq)]
      simp [applied, heq]
    · rw [if_pos hmore.ne', applied_cons_of_lt hmore]
      simp [applied, hmore.le]

/-- Each row is given its own value exactly if a row that is no change has the value of the row
after it, and the last row is a change or comes before the end. -/
theorem applied_iff (rows : List (δ × ν)) : ∀ previous : Option ν,
    rows.Pairwise (fun a b => a.1 < b.1) → rows.getLast? = some last → q last.2 = finish.2 →
      ((∀ row ∈ rows, applied (writtenRows same q finish previous rows last.1) row.1 =
          some (q row.2)) ↔
        rows.IsChain (fun a b => a ∈ changes same previous rows ∨ q a.2 = q b.2) ∧
          (last ∈ changes same previous rows ∨ last.1 < finish.1)) := by
  induction rows with
  | nil =>
    intro previous _ hlast
    cases hlast
  | cons row rest ih =>
    intro previous horder hlast hfinish
    obtain ⟨hrow, hrest⟩ := List.pairwise_cons.mp horder
    cases rest with
    | nil =>
      have heq : row = last := Option.some.inj hlast
      subst heq
      simp [applied_single hfinish]
    | cons next more =>
      have hlast' : (next :: more).getLast? = some last := by
        rw [← hlast, List.getLast?_cons_cons]
      have hmem : last ∈ next :: more := List.mem_of_getLast? hlast'
      have hnext : row.1 < next.1 := hrow next List.mem_cons_self
      have hne : ∀ other ∈ next :: more, other ≠ row := by
        rintro other hother rfl
        exact lt_irrefl _ (hrow other hother)
      rw [List.forall_mem_cons, List.isChain_cons_cons]
      rcases @changes_cases δ ν same previous row (next :: more) with hchange | hsame
      · -- the row has a row of its own
        have hin : ∀ other ∈ next :: more, other ∈ changes same previous (row :: next :: more) ↔
            other ∈ changes same (some row.2) (next :: more) := by
          intro other hother
          rw [hchange, List.mem_cons, or_iff_right (hne other hother)]
        have hrows : (∀ other ∈ next :: more, applied (writtenRows same q finish previous
            (row :: next :: more) last.1) other.1 = some (q other.2)) ↔
              ∀ other ∈ next :: more, applied (writtenRows same q finish (some row.2)
                (next :: more) last.1) other.1 = some (q other.2) := by
          refine forall₂_congr (fun other hother => ?_)
          rw [writtenRows_change hchange,
            @applied_cons_of_lt _ _ _ (row.1, q row.2) _ _ (hrow other hother)]
        have hchain : (next :: more).IsChain (fun a b =>
            a ∈ changes same previous (row :: next :: more) ∨ q a.2 = q b.2) ↔
              (next :: more).IsChain (fun a b =>
                a ∈ changes same (some row.2) (next :: more) ∨ q a.2 = q b.2) :=
          List.IsChain.iff_of_mem_imp (fun a _ ha _ => by rw [hin a ha])
        have hhead : applied (writtenRows same q finish previous (row :: next :: more) last.1)
            row.1 = some (q row.2) := by
          rw [writtenRows_change hchange]
          exact applied_cons_of_le le_rfl
        have hown : row ∈ changes same previous (row :: next :: more) := by
          rw [hchange]
          exact List.mem_cons_self
        rw [hrows, hchain, hin last hmem, ih (some row.2) hrest hlast' hfinish]
        simp only [hhead, hown, true_and, true_or]
      · -- the row is given what the next one is given
        have hnot : row ∉ changes same previous (row :: next :: more) := by
          rw [hsame]
          intro hrow'
          exact hne row ((changes_sublist _ previous).subset hrow') rfl
        have hstep := ih previous hrest hlast' hfinish
        rw [or_iff_right hnot]
        simp only [writtenRows_same hsame]
        rw [hsame, and_assoc, ← hstep]
        refine and_congr_left (fun hrows => ?_)
        rw [applied_skip hnext hrest hmem (hstep.mp hrows).2, hrows next List.mem_cons_self,
          Option.some.injEq]
        exact eq_comm

end Segments

end LocalPlatform.StepTables
