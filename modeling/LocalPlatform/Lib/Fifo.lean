import Mathlib.Algebra.BigOperators.Group.List.Basic
import Mathlib.Algebra.Order.Field.Basic
import Mathlib.Tactic.Linarith
import Mathlib.Tactic.Ring

/-!
# Open lots, first in first out

A lot has a signed quantity and a price.  A trade closes the oldest lots of the other sign first,
and what is left of it opens a lot of its own.

* `offset` closes lots, and `trade` opens what is left.
* `OneSign`: open lots are all long or all short, and a trade keeps them so.
* `total_trade`: a trade adds its quantity to that of the open lots.
-/

namespace LocalPlatform.Fifo

variable {K : Type} [Field K] [LinearOrder K]

structure Lot (K : Type) where
  quantity : K
  price : K
  deriving DecidableEq

def total (lots : List (Lot K)) : K := (lots.map Lot.quantity).sum

def averagePrice (lots : List (Lot K)) : K :=
  (lots.map (fun lot => lot.quantity * lot.price)).sum / total lots

/-- Close the oldest lots of the other sign: what is left of the trade, and the open lots. -/
def offset : K → List (Lot K) → K × List (Lot K)
  | quantity, [] => (quantity, [])
  | quantity, lot :: lots =>
    if quantity * lot.quantity < 0 then
      if |quantity| < |lot.quantity| then
        (0, { lot with quantity := lot.quantity + quantity } :: lots)
      else offset (quantity + lot.quantity) lots
    else (quantity, lot :: lots)

def trade (lots : List (Lot K)) (quantity price : K) : List (Lot K) :=
  let rest := offset quantity lots
  if rest.1 = 0 then rest.2 else rest.2 ++ [{ quantity := rest.1, price := price }]

omit [LinearOrder K] in
@[simp] theorem total_nil : total ([] : List (Lot K)) = 0 := rfl

omit [LinearOrder K] in
@[simp] theorem total_cons (lot : Lot K) (lots : List (Lot K)) :
    total (lot :: lots) = lot.quantity + total lots := by
  simp [total]

omit [LinearOrder K] in
@[simp] theorem total_append (lots more : List (Lot K)) :
    total (lots ++ more) = total lots + total more := by
  simp [total]

theorem total_offset (lots : List (Lot K)) :
    ∀ quantity : K, (offset quantity lots).1 + total (offset quantity lots).2 =
      quantity + total lots := by
  induction lots with
  | nil => exact fun _ => rfl
  | cons lot lots ih =>
    intro quantity
    unfold offset
    split_ifs
    · simp only [total_cons]
      ring
    · rw [ih, total_cons]
      ring
    · rfl

theorem total_trade (lots : List (Lot K)) (quantity price : K) :
    total (trade lots quantity price) = total lots + quantity := by
  have hoffset := total_offset lots quantity
  unfold trade
  dsimp only
  split_ifs with hzero
  · rw [hzero, zero_add] at hoffset
    rw [hoffset, add_comm]
  · rw [total_append, total_cons, total_nil]
    dsimp only
    rw [add_zero, add_comm, hoffset, add_comm]

/-! ## Lots of one sign -/

variable [IsStrictOrderedRing K]

def OnSide (side : K) (lots : List (Lot K)) : Prop := ∀ lot ∈ lots, 0 < side * lot.quantity

def OneSign (lots : List (Lot K)) : Prop := ∃ side, OnSide side lots

variable {side : K} {lots : List (Lot K)}

omit [IsStrictOrderedRing K] in
theorem OnSide.tail {lot : Lot K} (h : OnSide side (lot :: lots)) :
    OnSide side lots := fun other hother => h other (List.mem_cons_of_mem _ hother)

theorem OnSide.total_pos (h : OnSide side lots) (hne : lots ≠ []) : 0 < side * total lots := by
  induction lots with
  | nil => exact absurd rfl hne
  | cons lot lots ih =>
    have hlot := h lot List.mem_cons_self
    rw [total_cons, mul_add]
    cases lots with
    | nil => simpa using hlot
    | cons other lots =>
      have hrest := ih h.tail (List.cons_ne_nil _ _)
      linarith

theorem OnSide.opposed_iff {lot : Lot K} (h : OnSide side (lot :: lots)) (quantity : K) :
    quantity * lot.quantity < 0 ↔ side * quantity < 0 := by
  rw [mul_neg_iff, mul_neg_iff]
  cases mul_pos_iff.mp (h lot List.mem_cons_self) with
  | inl hpos => simp [hpos.1, hpos.2, hpos.1.not_gt, hpos.2.not_gt]
  | inr hneg => simp [hneg.1, hneg.2, hneg.1.not_gt, hneg.2.not_gt]

theorem OnSide.offset_same (h : OnSide side lots) {quantity : K} (hquantity : 0 ≤ side * quantity) :
    offset quantity lots = (quantity, lots) := by
  cases lots with
  | nil => rfl
  | cons lot lots =>
    unfold offset
    rw [if_neg]
    rw [h.opposed_iff]
    exact not_lt.mpr hquantity

omit [IsStrictOrderedRing K] in
theorem OnSide.ne_zero {lot : Lot K} (h : OnSide side (lot :: lots)) : side ≠ 0 := by
  rintro rfl
  have hlot := h lot List.mem_cons_self
  rw [zero_mul] at hlot
  exact lt_irrefl _ hlot

theorem OnSide.offset_other (h : OnSide side lots) :
    ∀ {quantity : K}, side * quantity ≤ 0 →
      OnSide side (offset quantity lots).2 ∧ side * (offset quantity lots).1 ≤ 0 ∧
        ((offset quantity lots).1 = 0 ∨ (offset quantity lots).2 = []) := by
  induction lots with
  | nil =>
    intro quantity hquantity
    exact ⟨h, hquantity, .inr rfl⟩
  | cons lot lots ih =>
    intro quantity hquantity
    have hlot := h lot List.mem_cons_self
    have hside := abs_pos.mpr h.ne_zero
    unfold offset
    split_ifs with hopposed hpart
    · have habs : |side * quantity| < |side * lot.quantity| := by
        rw [abs_mul, abs_mul]
        exact mul_lt_mul_of_pos_left hpart hside
      rw [abs_of_nonpos hquantity, abs_of_pos hlot] at habs
      refine ⟨?_, (mul_zero side).le, .inl rfl⟩
      intro other hother
      cases List.mem_cons.mp hother with
      | inl heq =>
        rw [heq]
        show 0 < side * (lot.quantity + quantity)
        rw [mul_add]
        linarith
      | inr hmem => exact h other (List.mem_cons_of_mem _ hmem)
    · apply ih h.tail
      have habs : |side * lot.quantity| ≤ |side * quantity| := by
        rw [abs_mul, abs_mul]
        exact mul_le_mul_of_nonneg_left (not_lt.mp hpart) hside.le
      rw [abs_of_nonpos hquantity, abs_of_pos hlot] at habs
      rw [mul_add]
      linarith
    · refine ⟨h, hquantity, .inl ?_⟩
      rw [h.opposed_iff, not_lt] at hopposed
      exact (mul_eq_zero.mp (le_antisymm hquantity hopposed)).resolve_left h.ne_zero

theorem OneSign.trade (h : OneSign lots) {quantity : K} (hne : quantity ≠ 0) (price : K) :
    OneSign (trade lots quantity price) := by
  obtain ⟨side, hside⟩ := h
  unfold Fifo.trade
  dsimp only
  rcases le_total 0 (side * quantity) with hsame | hother
  · rw [hside.offset_same hsame]
    cases lots with
    | nil =>
      refine ⟨quantity, ?_⟩
      rw [if_neg hne]
      intro lot hlot
      rw [List.mem_singleton.mp hlot]
      exact mul_self_pos.mpr hne
    | cons lot lots =>
      refine ⟨side, ?_⟩
      rw [if_neg hne]
      intro other hmem
      cases List.mem_append.mp hmem with
      | inl hmem => exact hside other hmem
      | inr hmem =>
        rw [List.mem_singleton.mp hmem]
        exact lt_of_le_of_ne hsame (mul_ne_zero hside.ne_zero hne).symm
  · obtain ⟨hrest, _, hused⟩ := hside.offset_other hother
    split_ifs with hzero
    · exact ⟨side, hrest⟩
    · rw [hused.resolve_left hzero]
      refine ⟨(offset quantity lots).1, ?_⟩
      intro lot hlot
      rw [List.mem_singleton.mp hlot]
      exact mul_self_pos.mpr hzero

theorem offset_nonneg : ∀ {quantity : K}, 0 ≤ quantity → 0 ≤ (offset quantity lots).1 := by
  induction lots with
  | nil => exact id
  | cons lot lots ih =>
    intro quantity hquantity
    unfold offset
    split_ifs with hopposed hpart
    · exact le_rfl
    · apply ih
      have hlot := neg_of_mul_neg_right hopposed hquantity
      rw [abs_of_nonneg hquantity, abs_of_neg hlot] at hpart
      linarith
    · exact hquantity

omit [IsStrictOrderedRing K] in
theorem oneSign_nil : OneSign ([] : List (Lot K)) := ⟨0, fun _ h => absurd h List.not_mem_nil⟩

theorem OneSign.total_mul_pos {lot : Lot K} (h : OneSign lots) (hlot : lot ∈ lots) :
    0 < total lots * lot.quantity := by
  obtain ⟨side, hside⟩ := h
  have hproduct := mul_pos (hside.total_pos (List.ne_nil_of_mem hlot)) (hside lot hlot)
  rw [mul_mul_mul_comm] at hproduct
  exact pos_of_mul_pos_right hproduct (mul_self_nonneg side)

theorem OneSign.of_total_neg (h : OneSign lots) (hneg : total lots < 0) :
    ∀ lot ∈ lots, lot.quantity < 0 :=
  fun _ hlot => (neg_iff_neg_of_mul_pos (h.total_mul_pos hlot)).mp hneg

theorem OneSign.of_total_nonneg (h : OneSign lots) (hpos : 0 ≤ total lots) :
    ∀ lot ∈ lots, 0 < lot.quantity :=
  fun _ hlot => pos_of_mul_pos_right (h.total_mul_pos hlot) hpos

end LocalPlatform.Fifo
