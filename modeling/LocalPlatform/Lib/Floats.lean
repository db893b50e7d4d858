import Mathlib.Data.Prod.Lex
import Mathlib.Data.Rat.Floor

/-!
# Floats as Python compares them

A float is a number, an infinity or `nan`.  Only the comparisons are here, and
rounding is not: a number is any rational.

* `lt` and `same` are `<` and `==`.  A `nan` is below nothing, above nothing and
  not equal to itself.
* `level` reads a float that is no `nan` in a linear order, and `lt_iff` and
  `same_iff` say that the comparisons agree with it there.
-/

namespace LocalPlatform.Floats

/-- A Python float. -/
inductive PyFloat where
  | nan
  | negInf
  | real (value : ℚ)
  | posInf
  deriving DecidableEq

namespace PyFloat

/-- `a < b` -/
def lt : PyFloat → PyFloat → Bool
  | nan, _ => false
  | _, nan => false
  | real a, real b => a < b
  | negInf, negInf => false
  | negInf, _ => true
  | _, negInf => false
  | posInf, _ => false
  | _, posInf => true

/-- `a == b` -/
def same (a b : PyFloat) : Bool := a != nan && a == b

/-- `-a` -/
def neg : PyFloat → PyFloat
  | nan => nan
  | negInf => posInf
  | real a => real (-a)
  | posInf => negInf

/-- `abs(a)` -/
def abs : PyFloat → PyFloat
  | nan => nan
  | negInf => posInf
  | real a => real |a|
  | posInf => posInf

/-- `int(a)`, which truncates, and raises on an infinity and on `nan`. -/
def toInt? : PyFloat → Option Int
  | real a => some (if a < 0 then Rat.ceil a else Rat.floor a)
  | _ => none

/-- The place of a float that is no `nan` in a linear order. -/
def level : PyFloat → ℤ ×ₗ ℚ
  | nan => toLex (-1, 0)
  | negInf => toLex (-1, 0)
  | real a => toLex (0, a)
  | posInf => toLex (1, 0)

theorem lt_iff {a b : PyFloat} (ha : a ≠ nan) (hb : b ≠ nan) :
    a.lt b = true ↔ a.level < b.level := by
  cases a <;> cases b <;> simp_all [lt, level, Prod.Lex.toLex_lt_toLex]

theorem level_lt {a b : PyFloat} (h : a.lt b = true) : a.level < b.level := by
  have ha : a ≠ nan := by
    rintro rfl
    cases b <;> cases h
  have hb : b ≠ nan := by
    rintro rfl
    cases a <;> cases h
  exact (lt_iff ha hb).mp h

theorem lt_trans {a b c : PyFloat} (hab : a.lt b = true) (hbc : b.lt c = true) : a.lt c = true := by
  cases a <;> cases b <;> cases c <;> simp_all [lt]
  linarith

theorem eq_of_same {a b : PyFloat} (h : a.same b = true) : a = b := by
  simp only [same, Bool.and_eq_true, beq_iff_eq] at h
  exact h.2

@[simp] theorem neg_eq_nan {a : PyFloat} : a.neg = nan ↔ a = nan := by
  cases a <;> simp [neg]

@[simp] theorem abs_eq_nan {a : PyFloat} : a.abs = nan ↔ a = nan := by
  cases a <;> simp [abs]

end PyFloat

end LocalPlatform.Floats
