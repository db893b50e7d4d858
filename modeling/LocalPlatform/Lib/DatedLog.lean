import Mathlib.Data.List.Basic
import Mathlib.Order.Lattice

/-!
# Point in time cuts of a numbered log

An append-only log whose entries carry a number that increases and a date that
never goes back.  A cut takes the entries up to a date.

* A cut is the prefix up to its greatest number, `cut_eq_upTo`.  Two cuts with
  one greatest number are therefore one cut.
* Neither a cut nor a prefix notices what is appended after it.
-/

namespace LocalPlatform.DatedLogs

variable {E D : Type} [LinearOrder D]

/-- The numbers are positive and increase, and the dates never go back. -/
structure DatedLog (number : E → Nat) (date : E → D) (log : List E) : Prop where
  positive : ∀ e ∈ log, 0 < number e
  numbers : log.Pairwise (fun a b => number a < number b)
  dates : log.Pairwise (fun a b => date a ≤ date b)

def cut (date : E → D) (d : D) (log : List E) : List E := log.filter (fun e => date e ≤ d)

def upTo (number : E → Nat) (n : Nat) (log : List E) : List E :=
  log.filter (fun e => number e ≤ n)

def top (number : E → Nat) (log : List E) : Nat := (log.map number).foldl max 0

variable {number : E → Nat} {date : E → D} {log more : List E}

theorem foldl_max_of_bounded (ns : List Nat) (m n : Nat) (hm : m ≤ n) (h : ∀ a ∈ ns, a ≤ n) :
    ns.foldl max m ≤ n := by
  induction ns generalizing m with
  | nil => exact hm
  | cons a ns ih =>
    rw [List.forall_mem_cons] at h
    exact ih (max m a) (max_le hm h.1) h.2

theorem le_foldl_max (ns : List Nat) (m : Nat) : m ≤ ns.foldl max m ∧ ∀ a ∈ ns, a ≤ ns.foldl max m := by
  induction ns generalizing m with
  | nil => exact ⟨le_rfl, fun a ha => absurd ha (List.not_mem_nil)⟩
  | cons a ns ih =>
    obtain ⟨hstart, hrest⟩ := ih (max m a)
    refine ⟨(le_max_left m a).trans hstart, ?_⟩
    intro b hb
    rcases List.mem_cons.mp hb with rfl | hb
    · exact (le_max_right m b).trans hstart
    · exact hrest b hb

theorem number_le_top {e : E} (he : e ∈ log) : number e ≤ top number log :=
  (le_foldl_max _ 0).2 _ (List.mem_map_of_mem he)

theorem top_le {n : Nat} (h : ∀ e ∈ log, number e ≤ n) : top number log ≤ n := by
  apply foldl_max_of_bounded _ _ _ (Nat.zero_le n)
  intro a ha
  obtain ⟨e, he, rfl⟩ := List.mem_map.mp ha
  exact h e he

theorem DatedLog.cut_eq_upTo (h : DatedLog number date log) (d : D) :
    cut date d log = upTo number (top number (cut date d log)) log := by
  apply List.filter_congr
  intro e he
  rw [decide_eq_decide]
  constructor
  · intro hdate
    exact number_le_top (List.mem_filter.mpr ⟨he, by simpa using hdate⟩)
  · -- An entry past the cut is numbered after every entry of the cut.
    intro hnumber
    by_contra hlate
    have hbelow : ∀ a ∈ cut date d log, number a ≤ number e - 1 := by
      intro a ha
      obtain ⟨hmem, hdate⟩ := List.mem_filter.mp ha
      have hdate : date a ≤ d := by simpa using hdate
      have hlt : number a < number e := by
        have hboth : log.Pairwise (fun a b => number a < number b ∧ date a ≤ date b) :=
          h.numbers.and h.dates
        obtain ⟨i, hi, rfl⟩ := List.mem_iff_getElem.mp hmem
        obtain ⟨j, hj, rfl⟩ := List.mem_iff_getElem.mp he
        rw [List.pairwise_iff_getElem] at hboth
        rcases Nat.lt_trichotomy i j with hij | hij | hij
        · exact (hboth i j hi hj hij).1
        · subst hij
          exact absurd hdate hlate
        · exact absurd ((hboth j i hj hi hij).2.trans hdate) hlate
      omega
    have htop := top_le hbelow
    have hpositive := h.positive e he
    omega

theorem cut_append_later (d : D) (h : ∀ e ∈ more, d < date e) :
    cut date d (log ++ more) = cut date d log := by
  have hnone : more.filter (fun e => date e ≤ d) = [] := by
    rw [List.filter_eq_nil_iff]
    intro e he hdate
    exact absurd (h e he) (not_lt.mpr (by simpa using hdate))
  rw [cut, List.filter_append, hnone, List.append_nil, cut]

omit [LinearOrder D] in
theorem upTo_append_later (n : Nat) (h : ∀ e ∈ more, n < number e) :
    upTo number n (log ++ more) = upTo number n log := by
  have hnone : more.filter (fun e => number e ≤ n) = [] := by
    rw [List.filter_eq_nil_iff]
    intro e he hnumber
    have hlater := h e he
    have hnumber : number e ≤ n := by simpa using hnumber
    omega
  rw [upTo, List.filter_append, hnone, List.append_nil, upTo]

theorem DatedLog.append (h : DatedLog number date log) (hmore : DatedLog number date more)
    (hnumbers : ∀ a ∈ log, ∀ b ∈ more, number a < number b)
    (hdates : ∀ a ∈ log, ∀ b ∈ more, date a ≤ date b) :
    DatedLog number date (log ++ more) where
  positive := by
    intro e he
    rcases List.mem_append.mp he with he | he
    · exact h.positive e he
    · exact hmore.positive e he
  numbers := List.pairwise_append.mpr ⟨h.numbers, hmore.numbers, hnumbers⟩
  dates := List.pairwise_append.mpr ⟨h.dates, hmore.dates, hdates⟩

end LocalPlatform.DatedLogs
