import LocalPlatform.Lib.Table
import Mathlib.Data.List.Sort

/-!
# Rows in order and rows with a key

* `orderBy` is a stable sort by a key, as `order by` and `sorted` are, and `lastOf` has the last
  rows.
* `uniqueLast` keeps the last row of each key, and `uniqueFirst` the first one, in the order of
  the rows that stay.
-/

namespace LocalPlatform.Tables

/-! ## Order -/

section Order

variable {α κ : Type} [LinearOrder κ]

def orderBy (key : α → κ) (rows : List α) : List α :=
  rows.insertionSort (fun a b => key a ≤ key b)

theorem orderBy_perm (key : α → κ) (rows : List α) : (orderBy key rows).Perm rows :=
  List.perm_insertionSort _ rows

variable {key : α → κ} {rows : List α} {row : α}

theorem mem_orderBy : row ∈ orderBy key rows ↔ row ∈ rows :=
  (orderBy_perm key rows).mem_iff

theorem orderBy_sorted (key : α → κ) (rows : List α) :
    (orderBy key rows).Pairwise (fun a b => key a ≤ key b) := by
  have htotal : Std.Total (fun a b : α => key a ≤ key b) := ⟨fun a b => le_total _ _⟩
  have htrans : IsTrans α (fun a b => key a ≤ key b) := ⟨fun _ _ _ => le_trans⟩
  exact List.pairwise_insertionSort _ rows

theorem orderBy_of_sorted (h : rows.Pairwise (fun a b => key a ≤ key b)) :
    orderBy key rows = rows :=
  h.insertionSort_eq

variable {β : Type}

theorem orderBy_map (key : β → κ) (f : α → β) (rows : List α) :
    orderBy key (rows.map f) = (orderBy (fun row => key (f row)) rows).map f :=
  (List.map_insertionSort _ _ f rows (fun _ _ _ _ => Iff.rfl)).symm

theorem orderBy_strict (h : Unique key rows) :
    (orderBy key rows).Pairwise (fun a b => key a < key b) := by
  have hunique : ((orderBy key rows).map key).Nodup :=
    ((orderBy_perm key rows).map key).nodup_iff.mpr h
  have hne : (orderBy key rows).Pairwise (fun a b => key a ≠ key b) := List.pairwise_map.mp hunique
  exact (orderBy_sorted key rows).imp₂ (fun _ _ hle hne => lt_of_le_of_ne hle hne) hne

theorem unique_of_strict (h : rows.Pairwise (fun a b => key a < key b)) : Unique key rows :=
  List.pairwise_map.mpr (h.imp ne_of_lt)

theorem orderBy_eq_of_mem {a b : List α}
    (hkey : ∀ row ∈ a, ∀ other ∈ a, key row = key other → row = other) (ha : a.Nodup) (hb : b.Nodup)
    (hmem : ∀ row, row ∈ a ↔ row ∈ b) : orderBy key a = orderBy key b := by
  have hperm : (orderBy key a).Perm (orderBy key b) :=
    ((orderBy_perm key a).trans ((List.perm_ext_iff_of_nodup ha hb).mpr hmem)).trans
      (orderBy_perm key b).symm
  apply hperm.eq_of_pairwise _ (orderBy_sorted key a) (orderBy_sorted key b)
  intro row other hrow hother hle hge
  have hother' := (hmem other).mpr (mem_orderBy.mp hother)
  exact hkey row (mem_orderBy.mp hrow) other hother' (le_antisymm hle hge)

theorem orderBy_eq_of_perm {a b : List α} (h : Unique key a) (hperm : a.Perm b) :
    orderBy key a = orderBy key b := by
  have hother : Unique key b := ((hperm.map key).nodup_iff).mp h
  have hordered : (orderBy key a).Perm (orderBy key b) :=
    ((orderBy_perm key a).trans hperm).trans (orderBy_perm key b).symm
  apply hordered.eq_of_pairwise _ (orderBy_strict h) (orderBy_strict hother)
  intro row other _ _ hlt hgt
  exact absurd hlt hgt.asymm

theorem eq_of_strict {a b : List α} (ha : a.Pairwise (fun x y => key x < key y))
    (hb : b.Pairwise (fun x y => key x < key y)) (hmem : ∀ row, row ∈ a ↔ row ∈ b) : a = b := by
  have hperm : a.Perm b := (List.perm_ext_iff_of_nodup
    (ha.imp (fun hlt heq => absurd (heq ▸ hlt) (lt_irrefl _)))
    (hb.imp (fun hlt heq => absurd (heq ▸ hlt) (lt_irrefl _)))).mpr hmem
  apply hperm.eq_of_pairwise _ ha hb
  intro row other _ _ hlt hgt
  exact absurd hlt hgt.asymm

theorem le_of_head?_orderBy (h : (orderBy key rows).head? = some row) :
    row ∈ rows ∧ ∀ other ∈ rows, key row ≤ key other := by
  obtain ⟨after, hsplit⟩ := List.head?_eq_some_iff.mp h
  have hmem : row ∈ orderBy key rows := by simp [hsplit]
  have hsorted := orderBy_sorted key rows
  rw [hsplit, List.pairwise_cons] at hsorted
  constructor
  · exact mem_orderBy.mp hmem
  · intro other hother
    have hin : other ∈ row :: after := by
      rw [← hsplit]
      exact mem_orderBy.mpr hother
    cases List.mem_cons.mp hin with
    | inl heq => rw [heq]
    | inr hafter => exact hsorted.1 other hafter

theorem le_of_getLast?_orderBy (h : (orderBy key rows).getLast? = some row) :
    row ∈ rows ∧ ∀ other ∈ rows, key other ≤ key row := by
  obtain ⟨before, hsplit⟩ := List.getLast?_eq_some_iff.mp h
  have hmem : row ∈ orderBy key rows := by simp [hsplit]
  have hsorted := orderBy_sorted key rows
  rw [hsplit, List.pairwise_append] at hsorted
  constructor
  · exact mem_orderBy.mp hmem
  · intro other hother
    have hin : other ∈ before ++ [row] := by
      rw [← hsplit]
      exact mem_orderBy.mpr hother
    cases List.mem_append.mp hin with
    | inl hbefore => exact hsorted.2.2 other hbefore row (List.mem_singleton.mpr rfl)
    | inr hlast => rw [List.mem_singleton.mp hlast]

theorem orderBy_append_of_lt {before after : List α} (h : ∀ a ∈ after, ∀ b ∈ before, key b < key a) :
    orderBy key (after ++ before) = orderBy key before ++ orderBy key after := by
  have hinsert : ∀ (a : α) (l rest : List α), (∀ b ∈ l, key b < key a) →
      (l ++ rest).orderedInsert (fun a b => key a ≤ key b) a =
        l ++ rest.orderedInsert (fun a b => key a ≤ key b) a := by
    intro a l rest hl
    induction l with
    | nil => rfl
    | cons b l ih =>
      rw [List.cons_append, List.orderedInsert_of_not_le (fun a b : α => key a ≤ key b) _
          (hl b (by simp)).not_ge, ih (fun c hc => hl c (List.mem_cons_of_mem b hc)), List.cons_append]
  unfold orderBy
  induction after with
  | nil => simp
  | cons a after ih =>
    rw [List.cons_append, List.insertionSort_cons, List.insertionSort_cons,
      ih (fun x hx => h x (List.mem_cons_of_mem a hx))]
    exact hinsert a _ _ (fun b hb => h a (by simp) b ((List.mem_insertionSort _).mp hb))

/-! ### The last rows -/

def lastOf {β : Type} (count : ℕ) (rows : List β) : List β := rows.drop (rows.length - count)

variable {count : ℕ}

omit [LinearOrder κ] in
theorem mem_of_lastOf (h : row ∈ lastOf count rows) : row ∈ rows :=
  List.mem_of_mem_drop h

theorem lastOf_ne_nil {rows : List β} (hcount : 0 < count) (hrows : rows ≠ []) :
    lastOf count rows ≠ [] := by
  have hlength := List.length_pos_iff.mpr hrows
  unfold lastOf
  rw [← List.length_pos_iff, List.length_drop]
  omega

theorem lastOf_lastOf {more : ℕ} (h : count ≤ more) (rows : List β) :
    lastOf count (lastOf more rows) = lastOf count rows := by
  unfold lastOf
  rw [List.drop_drop, List.length_drop]
  congr 1
  omega

theorem lt_of_not_lastOf {rows : List κ} (hsorted : rows.Pairwise (· < ·)) {row last : κ}
    (hrow : row ∈ rows) (hnot : row ∉ lastOf count rows) (hlast : last ∈ lastOf count rows) :
    row < last := by
  have hsplit := List.take_append_drop (rows.length - count) rows
  rw [← hsplit] at hrow hsorted
  rcases List.mem_append.mp hrow with hbefore | hafter
  · exact (List.pairwise_append.mp hsorted).2.2 row hbefore last hlast
  · exact absurd hafter hnot

theorem orderBy_take_reverse {rows : List κ} (hsorted : rows.Pairwise (· < ·)) (count : ℕ) :
    orderBy id (rows.reverse.take count) = lastOf count rows := by
  rw [List.take_reverse]
  have hlast : (lastOf count rows).Pairwise (· < ·) := hsorted.sublist (List.drop_sublist _ _)
  have hnodup : (lastOf count rows).Nodup := hlast.imp ne_of_lt
  have hperm : orderBy id (lastOf count rows).reverse = orderBy id (lastOf count rows) :=
    orderBy_eq_of_mem (fun _ _ _ _ h => h) (List.nodup_reverse.mpr hnodup) hnodup
      (fun _ => List.mem_reverse)
  exact hperm.trans (orderBy_of_sorted (hlast.imp le_of_lt))

end Order

/-! ## Rows with a key -/

section Maps

variable {ρ κ : Type} [DecidableEq κ] {key : ρ → κ} {rows : List ρ}

/-- The last row of each key. -/
def uniqueLast (key : ρ → κ) : List ρ → List ρ
  | [] => []
  | row :: rows =>
    if rows.any (fun other => key other == key row) then uniqueLast key rows
    else row :: uniqueLast key rows

theorem uniqueLast_sublist (key : ρ → κ) (rows : List ρ) : (uniqueLast key rows).Sublist rows := by
  induction rows with
  | nil => exact List.Sublist.refl _
  | cons row rows ih =>
    rw [uniqueLast]
    split_ifs
    · exact ih.cons row
    · exact ih.cons_cons row

theorem mem_uniqueLast_of_sorted {α : Type} [LinearOrder α] {key : α → κ} {rows : List α}
    (h : rows.Pairwise (· < ·)) {row : α} :
    row ∈ uniqueLast key rows ↔ row ∈ rows ∧ ∀ other ∈ rows, key other = key row → other ≤ row := by
  induction rows with
  | nil => simp [uniqueLast]
  | cons first rows ih =>
    obtain ⟨hfirst, hrows⟩ := List.pairwise_cons.mp h
    have hrest := ih hrows
    rw [uniqueLast]
    split_ifs with hlater
    · obtain ⟨later, hin, heq⟩ := List.any_eq_true.mp hlater
      rw [hrest]
      constructor
      · rintro ⟨hmem, hgreatest⟩
        refine ⟨List.mem_cons_of_mem first hmem, fun other hother hkey => ?_⟩
        rcases List.mem_cons.mp hother with rfl | hother
        · exact (hfirst row hmem).le
        · exact hgreatest other hother hkey
      · rintro ⟨hmem, hgreatest⟩
        refine ⟨?_, fun other hother => hgreatest other (List.mem_cons_of_mem first hother)⟩
        rcases List.mem_cons.mp hmem with rfl | hmem
        · have hle := hgreatest later (List.mem_cons_of_mem row hin) (beq_iff_eq.mp heq)
          exact absurd (hfirst later hin) hle.not_gt
        · exact hmem
    · rw [List.mem_cons, hrest, List.mem_cons]
      constructor
      · rintro (rfl | ⟨hmem, hgreatest⟩)
        · refine ⟨.inl rfl, fun other hother hkey => ?_⟩
          rcases List.mem_cons.mp hother with rfl | hother
          · exact le_rfl
          · have hany : rows.any (fun later => key later == key row) = true :=
              List.any_eq_true.mpr ⟨other, hother, beq_iff_eq.mpr hkey⟩
            exact absurd hany hlater
        · refine ⟨.inr hmem, fun other hother hkey => ?_⟩
          rcases List.mem_cons.mp hother with rfl | hother
          · exact (hfirst row hmem).le
          · exact hgreatest other hother hkey
      · rintro ⟨rfl | hmem, hgreatest⟩
        · exact .inl rfl
        · exact .inr ⟨hmem, fun other hother => hgreatest other (List.mem_cons_of_mem first hother)⟩

theorem mem_map_uniqueLast {k : κ} : k ∈ (uniqueLast key rows).map key ↔ k ∈ rows.map key := by
  induction rows with
  | nil => simp [uniqueLast]
  | cons row rows ih =>
    rw [uniqueLast]
    split_ifs with hlater
    · obtain ⟨other, hother, heq⟩ := List.any_eq_true.mp hlater
      rw [ih, List.map_cons, List.mem_cons]
      constructor
      · exact .inr
      · rintro (rfl | hmem)
        · rw [← beq_iff_eq.mp heq]
          exact List.mem_map_of_mem hother
        · exact hmem
    · rw [List.map_cons, List.map_cons, List.mem_cons, List.mem_cons, ih]

theorem unique_uniqueLast (key : ρ → κ) (rows : List ρ) : Unique key (uniqueLast key rows) := by
  induction rows with
  | nil => exact List.nodup_nil
  | cons row rows ih =>
    rw [uniqueLast]
    split_ifs with hlater
    · exact ih
    · refine List.nodup_cons.mpr ⟨?_, ih⟩
      rw [mem_map_uniqueLast]
      intro hmem
      apply hlater
      obtain ⟨other, hother, heq⟩ := List.mem_map.mp hmem
      exact List.any_eq_true.mpr ⟨other, hother, beq_iff_eq.mpr heq⟩

theorem uniqueLast_congr {κ' : Type} [DecidableEq κ'] {key' : ρ → κ'}
    (h : ∀ a ∈ rows, ∀ b ∈ rows, key a = key b ↔ key' a = key' b) :
    uniqueLast key rows = uniqueLast key' rows := by
  induction rows with
  | nil => rfl
  | cons row rows ih =>
    have hany : rows.any (fun other => key other == key row) =
        rows.any (fun other => key' other == key' row) := by
      rw [Bool.eq_iff_iff, List.any_eq_true, List.any_eq_true]
      simp only [beq_iff_eq]
      exact exists_congr (fun other => and_congr_right (fun hother =>
        h other (List.mem_cons_of_mem row hother) row (by simp)))
    rw [uniqueLast, uniqueLast, hany, ih (fun a ha b hb =>
      h a (List.mem_cons_of_mem row ha) b (List.mem_cons_of_mem row hb))]

theorem find_eq_none_iff {k : κ} : find key rows k = none ↔ k ∉ rows.map key := by
  unfold find
  rw [List.find?_eq_none]
  simp

theorem uniqueLast_of_unique (h : Unique key rows) : uniqueLast key rows = rows := by
  induction rows with
  | nil => rfl
  | cons row rows ih =>
    have hparts := List.nodup_cons.mp h
    rw [uniqueLast, if_neg, ih hparts.2]
    intro hlater
    obtain ⟨other, hother, heq⟩ := List.any_eq_true.mp hlater
    exact hparts.1 (beq_iff_eq.mp heq ▸ List.mem_map_of_mem hother)

theorem find_append (a b : List ρ) (k : κ) :
    find key (a ++ b) k = (find key a k).or (find key b k) := List.find?_append

omit [DecidableEq κ] in
theorem Unique.perm {other : List ρ} (h : Unique key rows) (hperm : rows.Perm other) :
    Unique key other := (hperm.map key).nodup_iff.mp h

/-! ## The first row of each key -/

def uniqueFirst (key : ρ → κ) : List ρ → List ρ
  | [] => []
  | row :: rows => row :: (uniqueFirst key rows).filter (fun other => key other != key row)

theorem find_uniqueFirst (rows : List ρ) (k : κ) :
    find key (uniqueFirst key rows) k = find key rows k := by
  induction rows with
  | nil => rfl
  | cons row rows ih =>
    unfold find at ih ⊢
    rw [uniqueFirst, List.find?_cons, List.find?_cons]
    by_cases hkey : key row = k
    · simp [hkey]
    · have hskip : (key row == k) = false := by simpa using hkey
      have htest : (fun other => decide ((key other != key row) = true ∧ (key other == k) = true)) =
          (fun other => key other == k) := by
        funext other
        by_cases hother : key other = k
        · simp [hother, Ne.symm hkey]
        · simp [hother]
      rw [hskip, ← ih, List.find?_filter, htest]

theorem unique_uniqueFirst (key : ρ → κ) (rows : List ρ) : Unique key (uniqueFirst key rows) := by
  induction rows with
  | nil => exact List.nodup_nil
  | cons row rows ih =>
    unfold Unique at ih ⊢
    rw [uniqueFirst, List.map_cons, List.nodup_cons]
    constructor
    · intro hmem
      obtain ⟨other, hother, hkey⟩ := List.mem_map.mp hmem
      have hne := (List.mem_filter.mp hother).2
      simp [hkey] at hne
    · exact ih.sublist (List.filter_sublist.map _)

theorem mem_uniqueFirst_iff {row : ρ} :
    row ∈ uniqueFirst key rows ↔ find key rows (key row) = some row := by
  constructor
  · intro hmem
    rw [← find_uniqueFirst]
    exact (unique_uniqueFirst key rows).find_of_mem hmem
  · intro hfind
    rw [← find_uniqueFirst] at hfind
    exact mem_of_find hfind

theorem mem_uniqueFirst_of_inj (hkey : ∀ a ∈ rows, ∀ b ∈ rows, key a = key b → a = b) {row : ρ} :
    row ∈ uniqueFirst key rows ↔ row ∈ rows := by
  rw [mem_uniqueFirst_iff]
  constructor
  · exact mem_of_find
  · intro hmem
    cases hfind : find key rows (key row) with
    | none =>
      rw [find_eq_none_iff] at hfind
      exact absurd (List.mem_map_of_mem hmem) hfind
    | some other => rw [hkey other (mem_of_find hfind) row hmem (find_key hfind)]

theorem mem_uniqueFirst_id {rows : List κ} {row : κ} : row ∈ uniqueFirst id rows ↔ row ∈ rows :=
  mem_uniqueFirst_of_inj (fun _ _ _ _ h => h)

theorem nodup_uniqueFirst : (uniqueFirst key rows).Nodup :=
  List.Nodup.of_map key (unique_uniqueFirst key rows)

end Maps

end LocalPlatform.Tables
