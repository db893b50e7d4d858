import Mathlib.Data.List.Basic

/-!
# Fields that are joined by a separator

* `pieces` cuts fields at the separators that lie inside them.  `splitOn_join`: these are the
  pieces of the joined text, so a joined text keeps its pieces and forgets the fields they were.
* `Regrouped` lists of fields are different lists of the same pieces.
* `join_eq_join_iff`: two lists of fields have one joined text if they are equal or regrouped, and
  only then.
-/

namespace LocalPlatform.Joined

variable {α : Type} [DecidableEq α] {separator : α}

/-- `separator.join(fields)` -/
def join (separator : α) (fields : List (List α)) : List α := [separator].intercalate fields

/-- The parts of the fields between their separators. -/
def pieces (separator : α) (fields : List (List α)) : List (List α) :=
  fields.flatMap (List.splitOn separator)

def Regrouped (separator : α) (a b : List (List α)) : Prop :=
  a ≠ b ∧ pieces separator a = pieces separator b

@[simp] theorem pieces_append (a b : List (List α)) :
    pieces separator (a ++ b) = pieces separator a ++ pieces separator b := List.flatMap_append

theorem splitOn_join {fields : List (List α)} (hne : fields ≠ []) :
    (join separator fields).splitOn separator = pieces separator fields := by
  induction fields with
  | nil => exact absurd rfl hne
  | cons field fields ih =>
    cases fields with
    | nil => simp [join, pieces]
    | cons second fields =>
      have hrest := ih (List.cons_ne_nil second fields)
      unfold join at hrest ⊢
      rw [List.intercalate_cons_cons, List.append_assoc, List.singleton_append,
        List.splitOn_append_cons_self, hrest]
      rfl

theorem join_eq_iff_pieces {a b : List (List α)} (ha : a ≠ []) (hb : b ≠ []) :
    join separator a = join separator b ↔ pieces separator a = pieces separator b := by
  constructor
  · intro h
    rw [← splitOn_join ha, ← splitOn_join hb, h]
  · intro h
    rw [← splitOn_join ha, ← splitOn_join hb] at h
    have hjoin := congrArg [separator].intercalate h
    rwa [List.intercalate_splitOn, List.intercalate_splitOn] at hjoin

theorem join_eq_join_iff {a b : List (List α)} (ha : a ≠ []) (hb : b ≠ []) :
    join separator a = join separator b ↔ a = b ∨ Regrouped separator a b := by
  rw [join_eq_iff_pieces ha hb]
  constructor
  · intro h
    by_cases hab : a = b
    · exact .inl hab
    · exact .inr ⟨hab, h⟩
  · rintro (rfl | hregrouped)
    · rfl
    · exact hregrouped.2

theorem pieces_append_cancel {before a b : List (List α)}
    (h : pieces separator (before ++ a) = pieces separator (before ++ b)) :
    pieces separator a = pieces separator b := by
  rw [pieces_append, pieces_append] at h
  exact List.append_cancel_left h

theorem pieces_singleton_inj {a b : List α}
    (h : pieces separator [a] = pieces separator [b]) : a = b := by
  have hjoin := (join_eq_iff_pieces (List.cons_ne_nil a []) (List.cons_ne_nil b [])).mpr h
  simpa [join] using hjoin

end LocalPlatform.Joined
