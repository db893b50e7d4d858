import LocalPlatform.Lib.Decimals

/-!
# Decimal numbers that keep their exponent

* `readDecimal` reads a number as its digits and its exponent, so `1` and `1.0` are different
  decimals of one value.
* `plainText` writes a positive decimal without an exponent, and `plainText_inj` says what the text
  keeps: the value and the number of places.
-/

namespace LocalPlatform.DecimalTexts

open Decimals

/-- A number that is not negative, as digits and an exponent. -/
structure Decimal where
  coefficient : ℕ
  exponent : ℤ
  deriving DecidableEq

/-- What a text can stand for. -/
inductive Reading where
  | finite (negative : Bool) (decimal : Decimal)
  | infinite (negative : Bool)
  | notANumber
  deriving DecidableEq

def Decimal.value (decimal : Decimal) : ℚ := decimal.coefficient * (10 : ℚ) ^ decimal.exponent

/-- The digits after the point when the decimal is written out. -/
def Decimal.places (decimal : Decimal) : ℕ := (-decimal.exponent).toNat

def Decimal.digits (decimal : Decimal) : ℕ := decimal.coefficient * 10 ^ decimal.exponent.toNat

/-- `format(decimal, "f")` -/
def Decimal.plainText (decimal : Decimal) : List Char := (placed decimal.places decimal.digits).text

theorem Decimal.value_eq (decimal : Decimal) :
    decimal.value = decimal.digits / 10 ^ decimal.places := by
  obtain ⟨coefficient, exponent⟩ := decimal
  unfold value digits places
  dsimp only
  obtain ⟨n, rfl | rfl⟩ := Int.eq_nat_or_neg exponent
  · rw [Int.toNat_natCast, Int.toNat_neg_natCast, zpow_natCast]
    push_cast
    rw [pow_zero, div_one]
  · rw [neg_neg, Int.toNat_natCast, Int.toNat_neg_natCast, zpow_neg, zpow_natCast]
    simp [div_eq_mul_inv]

theorem fraction_of_text {a b : Numeral} (ha : a.exponent = none) (hb : b.exponent = none)
    (h : a.text = b.text) : a.fraction = b.fraction := by
  have hrest : ∀ numeral : Numeral, numeral.exponent = none →
      numeral.text.dropWhile Char.isDigit = pointed numeral.fraction := by
    intro numeral hnone
    unfold Numeral.text
    rw [hnone]
    show (numeral.whole ++ pointed numeral.fraction ++ []).dropWhile Char.isDigit = _
    rw [List.append_nil]
    refine (span_digits (fun c hc => numeral.digits c (List.mem_append_left _ hc)) ?_).2
    unfold pointed
    split <;> simp
  have hpointed : pointed a.fraction = pointed b.fraction := by
    rw [← hrest a ha, ← hrest b hb, h]
  unfold pointed at hpointed
  split at hpointed <;> split at hpointed
  · simp_all
  · cases hpointed
  · cases hpointed
  · exact (List.cons.inj hpointed).2

theorem length_fraction_placed (places n : ℕ) : (placed places n).fraction.length = places := by
  have hlength := length_paddedDigits places n
  show (List.drop _ _).length = places
  rw [List.length_drop]
  omega

theorem Decimal.plainText_inj {a b : Decimal} :
    a.plainText = b.plainText ↔ a.value = b.value ∧ a.places = b.places := by
  unfold plainText
  constructor
  · intro h
    have hplaces : a.places = b.places := by
      have hfraction := congrArg List.length (fraction_of_text rfl rfl h)
      rwa [length_fraction_placed, length_fraction_placed] at hfraction
    have hvalue : (placed a.places a.digits).value = (placed b.places b.digits).value := by
      have hread := readFloat_text (placed a.places a.digits)
      rw [h, readFloat_text] at hread
      exact (Option.some.inj hread).symm
    rw [placed_value, placed_value, ← a.value_eq, ← b.value_eq] at hvalue
    exact ⟨hvalue, hplaces⟩
  · rintro ⟨hvalue, hplaces⟩
    rw [a.value_eq, b.value_eq, hplaces] at hvalue
    have hdigits : a.digits = b.digits := by
      have hpower : (10 : ℚ) ^ b.places ≠ 0 := by positivity
      exact_mod_cast (div_left_inj' hpower).mp hvalue
    rw [hplaces, hdigits]

/-! ## Reading -/

/-- The digits, the point and the exponent of a number without a sign. -/
def readFinite (text : List Char) : Option Decimal :=
  let whole := text.takeWhile Char.isDigit
  let parts := readFraction (text.dropWhile Char.isDigit)
  if whole ++ parts.1 = [] then none
  else (readExponent parts.2).map (fun exponent =>
    ⟨readNat (whole ++ parts.1), exponent - (parts.1.length : ℤ)⟩)

def readUnsigned (negative : Bool) (text : List Char) : Option Reading :=
  let word := text.map Char.toLower
  if word = ['i', 'n', 'f'] ∨ word = ['i', 'n', 'f', 'i', 'n', 'i', 't', 'y'] then
    some (.infinite negative)
  else if word.take 3 = ['n', 'a', 'n'] ∧ (word.drop 3).all Char.isDigit ∨
      word.take 4 = ['s', 'n', 'a', 'n'] ∧ (word.drop 4).all Char.isDigit then
    some .notANumber
  else (readFinite text).map (.finite negative)

/-- `Decimal(text)` -/
def readDecimal (text : List Char) : Option Reading :=
  match (strip text).filter (fun c => c ≠ '_') with
  | '-' :: rest => readUnsigned true rest
  | '+' :: rest => readUnsigned false rest
  | rest => readUnsigned false rest

end LocalPlatform.DecimalTexts
