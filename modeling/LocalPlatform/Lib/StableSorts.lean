import Mathlib.Data.List.Pairwise
import Mathlib.Data.List.Sort

/-!
# Stable sorts by several terms

* `sortAll` sorts by the last term first and by the first term last.  As each sort is stable, the
  rows are in lexicographic order then: `sortAll_lex`.
* `mem_take_iff`: a row is among the first ones of a strictly sorted list if few rows are before it.
* `merged` sorts the first rows of each part, the parts having been sorted in another order.
  `merged_take_iff`: its first rows are those of all rows if no row has more rows before it in its
  part than it has among all rows, and only then.
-/

namespace LocalPlatform.StableSorts

variable {α τ : Type}

/-! ## Stability -/

section Stability

variable {r R : α → α → Prop} [DecidableRel r] [IsTrans α r] [Std.Total r]

/-- In order, and where rows are equal in the order that they had. -/
def Refined (r R : α → α → Prop) (a b : α) : Prop := r a b ∧ (r b a → R a b)

theorem pairwise_orderedInsert {a : α} {rows : List α} (hrows : rows.Pairwise (Refined r R))
    (ha : ∀ b ∈ rows, R a b) : (rows.orderedInsert r a).Pairwise (Refined r R) := by
  induction rows with
  | nil => simp
  | cons b rows ih =>
    rw [List.pairwise_cons] at hrows
    by_cases hab : r a b
    · rw [List.orderedInsert_cons_of_le r rows hab, List.pairwise_cons]
      refine ⟨?_, List.pairwise_cons.mpr hrows⟩
      intro c hc
      refine ⟨?_, fun _ => ha c hc⟩
      rcases List.mem_cons.mp hc with rfl | hc
      · exact hab
      · exact Trans.trans hab (hrows.1 c hc).1
    · rw [List.orderedInsert_of_not_le r rows hab, List.pairwise_cons]
      refine ⟨?_, ih hrows.2 (fun c hc => ha c (List.mem_cons_of_mem b hc))⟩
      intro c hc
      rcases (List.mem_orderedInsert r).mp hc with rfl | hc
      · exact ⟨(Std.Total.total c b).resolve_left hab, fun h => absurd h hab⟩
      · exact hrows.1 c hc

theorem pairwise_insertionSort_refined {rows : List α} (h : rows.Pairwise R) :
    (rows.insertionSort r).Pairwise (Refined r R) := by
  induction rows with
  | nil => simp
  | cons a rows ih =>
    rw [List.pairwise_cons] at h
    rw [List.insertionSort_cons]
    exact pairwise_orderedInsert (ih h.2) (fun b hb => h.1 b ((List.mem_insertionSort r).mp hb))

end Stability

/-! ## Several terms -/

section Terms

variable (le : τ → α → α → Prop)

/-- The first term decides, and the next ones where it takes the rows for equal. -/
def Lex : List τ → α → α → Prop
  | [], _, _ => True
  | term :: terms, a, b => Refined (le term) (Lex terms) a b

def Before (terms : List τ) (a b : α) : Prop := Lex le terms a b ∧ ¬ Lex le terms b a

def Tied (terms : List τ) (a b : α) : Prop := ∀ term ∈ terms, le term a b ∧ le term b a

variable {le} {terms : List τ}

theorem Before.asymm {a b : α} (h : Before le terms a b) :
    ¬ Before le terms b a := fun h' => h.2 h'.1

theorem tied_of_lex {a b : α} (hab : Lex le terms a b) (hba : Lex le terms b a) :
    Tied le terms a b := by
  induction terms with
  | nil =>
    intro term hterm
    cases hterm
  | cons first terms ih =>
    intro term hterm
    rcases List.mem_cons.mp hterm with rfl | hterm
    · exact ⟨hab.1, hba.1⟩
    · exact ih (hab.2 hba.1) (hba.2 hab.1) term hterm

theorem tied_self [∀ term, Std.Total (le term)] (terms : List τ) (a : α) : Tied le terms a a :=
  fun _ _ => ⟨(Std.Total.total a a).elim id id, (Std.Total.total a a).elim id id⟩

theorem untied_of_perm {rows rows' : List α} (h : rows.Pairwise (fun a b => ¬ Tied le terms a b))
    (hperm : rows.Perm rows') : rows'.Pairwise (fun a b => ¬ Tied le terms a b) :=
  (hperm.pairwise_iff (fun {_ _} hab hba => hab (fun term hterm => (hba term hterm).symm))).mp h

variable [∀ term, DecidableRel (le term)]

instance decidableLex : (terms : List τ) → DecidableRel (Lex le terms)
  | [], _, _ => instDecidableTrue
  | term :: terms, a, b =>
    have := decidableLex terms a b
    inferInstanceAs (Decidable (le term a b ∧ (le term b a → Lex le terms a b)))

instance (terms : List τ) : DecidableRel (Before le terms) :=
  fun _ _ => inferInstanceAs (Decidable (_ ∧ ¬ _))

variable (le)

/-- `for term in reversed(terms): rows.sort(...)` -/
def sortAll (terms : List τ) (rows : List α) : List α :=
  terms.foldr (fun term rows => rows.insertionSort (le term)) rows

theorem sortAll_perm (terms : List τ) (rows : List α) : (sortAll le terms rows).Perm rows := by
  induction terms with
  | nil => exact .refl rows
  | cons term terms ih => exact (List.perm_insertionSort (le term) _).trans ih

variable {le} [∀ term, IsTrans α (le term)] [∀ term, Std.Total (le term)]

theorem sortAll_lex (terms : List τ) (rows : List α) :
    (sortAll le terms rows).Pairwise (Lex le terms) := by
  induction terms with
  | nil => exact List.pairwise_of_forall (fun _ _ => trivial)
  | cons term terms ih => exact pairwise_insertionSort_refined ih

theorem sortAll_strict {rows : List α} (h : rows.Pairwise (fun a b => ¬ Tied le terms a b)) :
    (sortAll le terms rows).Pairwise (Before le terms) := by
  have hne := untied_of_perm h (sortAll_perm le terms rows).symm
  exact (sortAll_lex terms rows).imp₂
    (fun a b hab hne => ⟨hab, fun hba => hne (tied_of_lex hab hba)⟩) hne

end Terms

/-! ## The first rows -/

section First

variable {lt : α → α → Prop} (hasymm : ∀ a b, lt a b → ¬ lt b a)

include hasymm

theorem take_eq_take {n : ℕ} : ∀ {rows all : List α}, rows.Pairwise lt → all.Pairwise lt →
    (∀ row ∈ rows, row ∈ all) → (∀ row ∈ all.take n, row ∈ rows) →
    rows.take n = all.take n := by
  induction n with
  | zero => exact fun _ _ _ _ => rfl
  | succ n ih =>
    intro rows all hrows hall hsub hfirst
    cases all with
    | nil =>
      rw [List.eq_nil_iff_forall_not_mem.mpr (fun row hrow => List.not_mem_nil (hsub row hrow))]
    | cons first all =>
      rw [List.pairwise_cons] at hall
      cases rows with
      | nil => exact absurd (hfirst first (by simp)) List.not_mem_nil
      | cons row rows =>
        rw [List.pairwise_cons] at hrows
        have hhead : row = first := by
          rcases List.mem_cons.mp (hsub row (by simp)) with h | hrow
          · exact h
          · rcases List.mem_cons.mp (hfirst first (by simp)) with h | hmem
            · exact h.symm
            · exact absurd (hrows.1 first hmem) (hasymm _ _ (hall.1 row hrow))
        subst hhead
        have hirrefl : ∀ a, ¬ lt a a := fun a h => hasymm a a h h
        rw [List.take_succ_cons, List.take_succ_cons, ih hrows.2 hall.2]
        · intro other hother
          rcases List.mem_cons.mp (hsub other (List.mem_cons_of_mem row hother)) with rfl | h
          · exact absurd (hrows.1 other hother) (hirrefl other)
          · exact h
        · intro other hother
          have hlater := hall.1 other (List.mem_of_mem_take hother)
          have hmem := hfirst other (by
            rw [List.take_succ_cons]
            exact List.mem_cons_of_mem row hother)
          rcases List.mem_cons.mp hmem with rfl | h
          · exact absurd hlater (hirrefl other)
          · exact h

theorem mem_take_iff [DecidableRel lt] {rows : List α} (hrows : rows.Pairwise lt) {row : α} :
    ∀ {n : ℕ}, row ∈ rows.take n ↔ row ∈ rows ∧ rows.countP (fun other => lt other row) < n := by
  induction rows with
  | nil => simp
  | cons first rows ih =>
    rw [List.pairwise_cons] at hrows
    intro n
    cases n with
    | zero => simp
    | succ n =>
      rw [List.take_succ_cons, List.mem_cons, List.mem_cons, List.countP_cons, ih hrows.2]
      have hnone : ∀ other ∈ rows, ¬ lt other first := fun other hother =>
        hasymm _ _ (hrows.1 other hother)
      constructor
      · rintro (rfl | ⟨hmem, hcount⟩)
        · refine ⟨.inl rfl, ?_⟩
          rw [List.countP_eq_zero.mpr (by simpa using hnone),
            if_neg (by simpa using fun h => hasymm row row h h)]
          omega
        · exact ⟨.inr hmem, by split <;> omega⟩
      · rintro ⟨rfl | hmem, hcount⟩
        · exact .inl rfl
        · rw [if_pos (decide_eq_true (hrows.1 row hmem))] at hcount
          exact .inr ⟨hmem, by omega⟩

end First

/-! ## Merging the first rows of the parts -/

section Merge

variable (le le' : τ → α → α → Prop) [∀ term, DecidableRel (le term)]
  [∀ term, DecidableRel (le' term)]

def merged (terms : List τ) (parts : List (List α)) (n : ℕ) : List α :=
  sortAll le' terms (parts.map (fun rows => (sortAll le terms rows).take n)).flatten

def mergedAll (terms : List τ) (parts : List (List α)) : List α :=
  sortAll le' terms (parts.map (sortAll le terms)).flatten

variable {le le'}

theorem flatten_sortAll_perm (terms : List τ) (parts : List (List α)) :
    (parts.map (sortAll le terms)).flatten.Perm parts.flatten := by
  induction parts with
  | nil => exact .refl _
  | cons rows parts ih =>
    rw [List.map_cons, List.flatten_cons, List.flatten_cons]
    exact (sortAll_perm le terms rows).append ih

theorem mergedAll_perm (terms : List τ) (parts : List (List α)) :
    (mergedAll le le' terms parts).Perm parts.flatten :=
  (sortAll_perm le' terms _).trans (flatten_sortAll_perm terms parts)

theorem flatten_take_sublist (terms : List τ) (parts : List (List α)) (n : ℕ) :
    (parts.map (fun rows => (sortAll le terms rows).take n)).flatten.Sublist
      (parts.map (sortAll le terms)).flatten := by
  induction parts with
  | nil => exact .slnil
  | cons rows parts ih =>
    rw [List.map_cons, List.map_cons, List.flatten_cons, List.flatten_cons]
    exact (List.take_sublist n _).append ih

theorem mem_merged {terms : List τ} {parts : List (List α)} {n : ℕ} {row : α} :
    row ∈ merged le le' terms parts n ↔
      ∃ rows ∈ parts, row ∈ (sortAll le terms rows).take n := by
  unfold merged
  rw [(sortAll_perm le' terms _).mem_iff, List.mem_flatten]
  simp

variable [∀ term, IsTrans α (le term)] [∀ term, Std.Total (le term)]
  [∀ term, IsTrans α (le' term)] [∀ term, Std.Total (le' term)]

theorem merged_take_iff {terms : List τ} {parts : List (List α)}
    (hle : parts.flatten.Pairwise (fun a b => ¬ Tied le terms a b))
    (hle' : parts.flatten.Pairwise (fun a b => ¬ Tied le' terms a b)) :
    (∀ n, (merged le le' terms parts n).take n = (mergedAll le le' terms parts).take n) ↔
      ∀ rows ∈ parts, ∀ row ∈ rows,
        rows.countP (fun other => Before le terms other row) ≤
          parts.flatten.countP (fun other => Before le' terms other row) := by
  have hparts := List.pairwise_flatten.mp hle
  have hsorted := untied_of_perm hle' (@flatten_sortAll_perm α τ le _ terms parts).symm
  have hall : (mergedAll le le' terms parts).Pairwise (Before le' terms) := sortAll_strict hsorted
  have hrank : ∀ {row n}, row ∈ (mergedAll le le' terms parts).take n ↔
      row ∈ parts.flatten ∧ parts.flatten.countP (fun other => Before le' terms other row) < n := by
    intro row n
    rw [mem_take_iff (fun _ _ => Before.asymm) hall, (mergedAll_perm terms parts).mem_iff,
      (mergedAll_perm terms parts).countP_eq]
  have hpart : ∀ {rows row n}, rows ∈ parts → (row ∈ (sortAll le terms rows).take n ↔
      row ∈ rows ∧ rows.countP (fun other => Before le terms other row) < n) := by
    intro rows row n hrows
    rw [mem_take_iff (fun _ _ => Before.asymm) (sortAll_strict (hparts.1 rows hrows)),
      (sortAll_perm le terms rows).mem_iff, (sortAll_perm le terms rows).countP_eq]
  constructor
  · intro h rows hrows row hrow
    have hfirst := hrank.mpr ⟨List.mem_flatten_of_mem hrows hrow, Nat.lt_succ_self _⟩
    rw [← h] at hfirst
    obtain ⟨part, hmem, htake⟩ := mem_merged.mp (List.mem_of_mem_take hfirst)
    obtain ⟨hrow', hcount⟩ := (hpart hmem).mp htake
    have hsame : part = rows := by
      by_contra hne
      have hsymm : Std.Symm (fun part rows : List α =>
          ∀ x ∈ part, ∀ y ∈ rows, ¬ Tied le terms x y) :=
        ⟨fun _ _ h x hx y hy htied => h y hy x hx (fun term hterm => (htied term hterm).symm)⟩
      exact hparts.2.forall hmem hrows hne row hrow' row hrow (tied_self terms row)
    rw [hsame] at hcount
    exact Nat.le_of_lt_succ hcount
  · intro h n
    refine take_eq_take (fun _ _ => Before.asymm) (sortAll_strict
      (hsorted.sublist (flatten_take_sublist terms parts n))) hall ?_ ?_
    · intro row hrow
      obtain ⟨rows, hrows, htake⟩ := mem_merged.mp hrow
      exact (mergedAll_perm terms parts).mem_iff.mpr
        (List.mem_flatten_of_mem hrows ((hpart hrows).mp htake).1)
    · intro row hrow
      obtain ⟨hmem, hcount⟩ := hrank.mp hrow
      obtain ⟨rows, hrows, hrow⟩ := List.mem_flatten.mp hmem
      exact mem_merged.mpr ⟨rows, hrows, (hpart hrows).mpr
        ⟨hrow, lt_of_le_of_lt (h rows hrows row hrow) hcount⟩⟩

end Merge

end LocalPlatform.StableSorts
