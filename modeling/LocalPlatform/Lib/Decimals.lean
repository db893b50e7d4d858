import Mathlib.Data.Int.Log
import Mathlib.Data.List.DropRight
import Mathlib.Data.Rat.Floor

/-!
# Decimals and their texts

* `roundEven` rounds to an integer, and halves to the even one; `roundTo` rounds to decimal places.
* A `Numeral` is the text of a number: digits, a fraction and an exponent.  `readFloat` reads it
  back as its value (`readFloat_text`).
* `fixed` writes a number with a number of places (`.10f`), `general` with six significant digits
  (`g`), and `natural` an integer.
* `general_value_iff`: what `general` writes has the value of the number if six significant digits
  are enough for it, and only then.
* Numbers are exact, and those that are written are not negative.  `readFloat` reads plain digits
  with an optional exponent, and no other spelling.
-/

namespace LocalPlatform.Decimals

/-! ## Rounding -/

/-- The nearest integer, and the even one of two. -/
def roundEven (x : ℚ) : ℤ :=
  let below := ⌊x⌋
  if x - below < 1 / 2 then below
  else if 1 / 2 < x - below then below + 1
  else below + below % 2

@[simp] theorem roundEven_intCast (k : ℤ) : roundEven k = k := by
  simp [roundEven]

theorem floor_le_roundEven (x : ℚ) : ⌊x⌋ ≤ roundEven x ∧ roundEven x ≤ ⌊x⌋ + 1 := by
  unfold roundEven
  dsimp only
  split_ifs <;> omega

theorem le_roundEven {k : ℤ} {x : ℚ} (h : k ≤ x) : k ≤ roundEven x :=
  (Int.le_floor.mpr h).trans (floor_le_roundEven x).1

theorem roundEven_le {k : ℤ} {x : ℚ} (h : x ≤ k) : roundEven x ≤ k := by
  rcases h.lt_or_eq with hlt | heq
  · have hfloor : ⌊x⌋ < k := Int.floor_lt.mpr hlt
    have hround := (floor_le_roundEven x).2
    omega
  · rw [heq, roundEven_intCast]

def roundTo (places : ℕ) (x : ℚ) : ℚ := roundEven (x * 10 ^ places) / 10 ^ places

theorem roundEven_pos_iff {x : ℚ} : 0 < roundEven x ↔ 1 / 2 < x := by
  constructor
  · intro h
    by_contra hle
    have hle : x ≤ 1 / 2 := not_lt.mp hle
    rcases lt_or_ge x 0 with hneg | hnonneg
    · have hround : roundEven x ≤ 0 := roundEven_le (by exact_mod_cast hneg.le)
      omega
    · have hfloor : ⌊x⌋ = 0 := Int.floor_eq_zero_iff.mpr ⟨hnonneg, by linarith⟩
      unfold roundEven at h
      rw [hfloor] at h
      norm_num at h
      split_ifs at h
      · omega
      · linarith
  · intro h
    rcases lt_or_ge x 1 with hless | hmore
    · have hfloor : ⌊x⌋ = 0 := Int.floor_eq_zero_iff.mpr ⟨by linarith, hless⟩
      unfold roundEven
      rw [hfloor]
      norm_num
      rw [if_neg (by linarith), if_pos (by linarith)]
      omega
    · have hround : (1 : ℤ) ≤ roundEven x := le_roundEven (by exact_mod_cast hmore)
      omega

theorem roundTo_pos_iff (places : ℕ) {x : ℚ} : 0 < roundTo places x ↔ 1 / 2 < x * 10 ^ places := by
  have hpow : (0 : ℚ) < 10 ^ places := by positivity
  unfold roundTo
  rw [← roundEven_pos_iff, div_pos_iff_of_pos_right hpow]
  exact_mod_cast Iff.rfl

@[simp] theorem roundTo_one (places : ℕ) : roundTo places 1 = 1 := by
  have hcast : (1 : ℚ) * 10 ^ places = ((10 ^ places : ℤ) : ℚ) := by push_cast; ring
  have hpow : (10 : ℚ) ^ places ≠ 0 := by positivity
  unfold roundTo
  rw [hcast, roundEven_intCast]
  push_cast
  exact div_self hpow

/-! ## Texts -/

/-- What `strip` removes. -/
def isSpace (c : Char) : Bool :=
  (9 ≤ c.toNat ∧ c.toNat ≤ 13) ∨ (28 ≤ c.toNat ∧ c.toNat ≤ 32) ∨ c.toNat = 133 ∨ c.toNat = 160 ∨
    c.toNat = 5760 ∨ (8192 ≤ c.toNat ∧ c.toNat ≤ 8202) ∨ c.toNat = 8232 ∨ c.toNat = 8233 ∨
    c.toNat = 8239 ∨ c.toNat = 8287 ∨ c.toNat = 12288

/-- `text.strip()` -/
def strip (text : List Char) : List Char :=
  ((text.dropWhile isSpace).reverse.dropWhile isSpace).reverse

theorem isSpace_of_isDigit {c : Char} (h : c.isDigit) : isSpace c = false := by
  simp only [Char.isDigit, Bool.and_eq_true, decide_eq_true_eq] at h
  have hlow : 48 ≤ c.toNat := h.1
  have hhigh : c.toNat ≤ 57 := h.2
  simp only [isSpace, decide_eq_false_iff_not]
  omega

theorem dropWhile_eq_self {p : Char → Bool} {text : List Char}
    (h : ∀ c ∈ text.head?, p c = false) : text.dropWhile p = text := by
  cases text with
  | nil => rfl
  | cons c rest => rw [List.dropWhile_cons_of_neg (by simp [h c rfl])]

theorem strip_eq_self {text : List Char} (hhead : ∀ c ∈ text.head?, isSpace c = false)
    (hlast : ∀ c ∈ text.getLast?, isSpace c = false) : strip text = text := by
  unfold strip
  rw [dropWhile_eq_self hhead, dropWhile_eq_self, List.reverse_reverse]
  rw [List.head?_reverse]
  exact hlast

theorem splitOn_lines {lines : List (List Char)} (hne : lines ≠ [])
    (h : ∀ line ∈ lines, '\n' ∉ line) :
    (['\n'].intercalate lines ++ ['\n']).splitOn '\n' = lines ++ [[]] := by
  have hjoin : ['\n'].intercalate lines ++ ['\n'] = ['\n'].intercalate (lines ++ [[]]) := by
    induction lines with
    | nil => exact absurd rfl hne
    | cons line lines ih =>
      cases lines with
      | nil => simp [List.intercalate, List.intersperse]
      | cons second lines =>
        have hrest := ih (List.cons_ne_nil _ _) (fun other hother =>
          h other (List.mem_cons_of_mem _ hother))
        simp only [List.intercalate, List.cons_append, List.intersperse, List.flatten_cons,
          List.append_assoc] at hrest ⊢
        rw [hrest]
  rw [hjoin]
  apply List.splitOn_intercalate
  · intro line hline
    rcases List.mem_append.mp hline with hin | hlast
    · exact h line hin
    · rw [List.mem_singleton.mp hlast]
      exact List.not_mem_nil
  · simp

/-! ## Reading a number -/

def readNat (digits : List Char) : ℕ := Nat.ofDigitChars 10 digits 0

def readDigits (text : List Char) : Option ℕ :=
  if text ≠ [] ∧ text.all Char.isDigit then some (readNat text) else none

def readExponent : List Char → Option ℤ
  | [] => some 0
  | mark :: rest =>
    if mark = 'e' ∨ mark = 'E' then
      match rest with
      | '-' :: digits => (readDigits digits).map (fun n : ℕ => -(n : ℤ))
      | '+' :: digits => (readDigits digits).map (fun n : ℕ => (n : ℤ))
      | digits => (readDigits digits).map (fun n : ℕ => (n : ℤ))
    else none

/-- The digits after a point, and what follows them. -/
def readFraction : List Char → List Char × List Char
  | '.' :: rest => (rest.takeWhile Char.isDigit, rest.dropWhile Char.isDigit)
  | rest => ([], rest)

def readUnsigned (text : List Char) : Option ℚ :=
  let whole := text.takeWhile Char.isDigit
  let parts := readFraction (text.dropWhile Char.isDigit)
  if whole ++ parts.1 = [] then none
  else (readExponent parts.2).map (fun exponent =>
    (readNat (whole ++ parts.1) : ℚ) * (10 : ℚ) ^ (exponent - (parts.1.length : ℤ)))

/-- `float(text)` -/
def readFloat (text : List Char) : Option ℚ :=
  match strip text with
  | '-' :: rest => (readUnsigned rest).map (fun value => -value)
  | '+' :: rest => readUnsigned rest
  | rest => readUnsigned rest

/-! ## Numerals -/

/-- The parts of the text of a number. -/
structure Numeral where
  whole : List Char
  fraction : List Char
  exponent : Option ℤ
  digits : ∀ c ∈ whole ++ fraction, c.isDigit
  nonempty : whole ≠ []

def pointed (fraction : List Char) : List Char :=
  if fraction = [] then [] else '.' :: fraction

/-- An exponent has a sign, and at least two digits. -/
def exponentText : Option ℤ → List Char
  | none => []
  | some exponent =>
    'e' :: (if exponent < 0 then '-' else '+') ::
      (if exponent.natAbs < 10 then ['0'] else []) ++ Nat.toDigits 10 exponent.natAbs

namespace Numeral

def text (numeral : Numeral) : List Char :=
  numeral.whole ++ pointed numeral.fraction ++ exponentText numeral.exponent

def value (numeral : Numeral) : ℚ :=
  readNat (numeral.whole ++ numeral.fraction) *
    (10 : ℚ) ^ (numeral.exponent.getD 0 - (numeral.fraction.length : ℤ))

end Numeral

theorem readNat_toDigits (n : ℕ) : readNat (Nat.toDigits 10 n) = n := Nat.ofDigitChars_ten_toDigits

theorem isDigit_toDigits {n : ℕ} {c : Char} (h : c ∈ Nat.toDigits 10 n) : c.isDigit :=
  Nat.isDigit_of_mem_toDigits (by decide) (by decide) h

theorem readNat_append (a b : List Char) : readNat (a ++ b) = readNat a * 10 ^ b.length + readNat b := by
  unfold readNat
  rw [Nat.ofDigitChars_append, Nat.ofDigitChars_eq_ofDigitChars_zero]
  ring

theorem readNat_zeros (count : ℕ) : readNat (List.replicate count '0') = 0 := by
  unfold readNat
  rw [Nat.ofDigitChars_replicate_zero, Nat.mul_zero]

theorem readDigits_of_digits {text : List Char} (hne : text ≠ []) (h : ∀ c ∈ text, c.isDigit) :
    readDigits text = some (readNat text) := by
  unfold readDigits
  rw [if_pos ⟨hne, List.all_eq_true.mpr h⟩]

theorem readExponent_text (exponent : Option ℤ) :
    readExponent (exponentText exponent) = some (exponent.getD 0) := by
  cases exponent with
  | none => rfl
  | some e =>
    have hdigits : readDigits ((if e.natAbs < 10 then ['0'] else []) ++ Nat.toDigits 10 e.natAbs) =
        some e.natAbs := by
      rw [readDigits_of_digits]
      · congr 1
        split
        · rw [readNat_append, readNat_toDigits]
          simp [readNat, Nat.ofDigitChars_cons]
        · exact readNat_toDigits _
      · simp
      · intro c hc
        rcases List.mem_append.mp hc with hzero | hdigit
        · split at hzero
          · rw [List.mem_singleton.mp hzero]
            decide
          · exact absurd hzero List.not_mem_nil
        · exact isDigit_toDigits hdigit
    by_cases hneg : e < 0
    · simp only [exponentText, hneg, if_true, readExponent, true_or, List.cons_append, hdigits]
      simp only [Option.map_some, Option.getD_some, Option.some.injEq]
      omega
    · simp only [exponentText, hneg, if_false, readExponent, true_or, if_true, List.cons_append,
        hdigits]
      simp only [Option.map_some, Option.getD_some, Option.some.injEq]
      omega

theorem span_digits {digits rest : List Char} (h : ∀ c ∈ digits, c.isDigit)
    (hrest : ∀ c ∈ rest.head?, c.isDigit = false) :
    (digits ++ rest).takeWhile Char.isDigit = digits ∧
      (digits ++ rest).dropWhile Char.isDigit = rest := by
  rw [List.takeWhile_append_of_pos h, List.dropWhile_append_of_pos h, dropWhile_eq_self hrest]
  refine ⟨?_, rfl⟩
  cases rest with
  | nil => simp
  | cons c rest => rw [List.takeWhile_cons_of_neg (by simp [hrest c rfl]), List.append_nil]

theorem head_exponentText {exponent : Option ℤ} :
    ∀ c ∈ (exponentText exponent).head?, c.isDigit = false := by
  intro c hc
  cases exponent with
  | none => exact absurd hc (Option.not_mem_none c)
  | some e =>
    rw [← Option.some.inj hc]
    decide

theorem readUnsigned_text (numeral : Numeral) : readUnsigned numeral.text = some numeral.value := by
  have hwhole : ∀ c ∈ numeral.whole, c.isDigit :=
    fun c hc => numeral.digits c (List.mem_append_left _ hc)
  have hfraction : ∀ c ∈ numeral.fraction, c.isDigit :=
    fun c hc => numeral.digits c (List.mem_append_right _ hc)
  have hstart : ∀ c ∈ (pointed numeral.fraction ++ exponentText numeral.exponent).head?,
      c.isDigit = false := by
    intro c hc
    unfold pointed at hc
    split at hc
    · exact head_exponentText c hc
    · rw [← Option.some.inj hc]
      decide
  have hspan := span_digits hwhole hstart
  have hparts : readFraction (pointed numeral.fraction ++ exponentText numeral.exponent) =
      (numeral.fraction, exponentText numeral.exponent) := by
    unfold pointed
    split
    · next hnone =>
      rw [hnone]
      cases hexponent : numeral.exponent with
      | none => rfl
      | some e => rfl
    · have hrest := span_digits hfraction (@head_exponentText numeral.exponent)
      simp only [List.cons_append, readFraction, hrest.1, hrest.2]
  unfold readUnsigned Numeral.text
  dsimp only
  rw [List.append_assoc, hspan.1, hspan.2, hparts]
  have hne : numeral.whole ++ numeral.fraction ≠ [] :=
    List.append_ne_nil_of_left_ne_nil numeral.nonempty _
  rw [if_neg hne, readExponent_text, Option.map_some]
  rfl

theorem mem_text {numeral : Numeral} {c : Char} (h : c ∈ numeral.text) :
    c.isDigit ∨ c ∈ ['.', 'e', '+', '-'] := by
  unfold Numeral.text at h
  rcases List.mem_append.mp h with hnumber | hexponent
  · rcases List.mem_append.mp hnumber with hwhole | hpointed
    · exact .inl (numeral.digits c (List.mem_append_left _ hwhole))
    · unfold pointed at hpointed
      split at hpointed
      · exact absurd hpointed List.not_mem_nil
      · rcases List.mem_cons.mp hpointed with hpoint | hfraction
        · exact .inr (by simp [hpoint])
        · exact .inl (numeral.digits c (List.mem_append_right _ hfraction))
  · cases hnumeral : numeral.exponent with
    | none =>
      rw [hnumeral] at hexponent
      exact absurd hexponent List.not_mem_nil
    | some e =>
      rw [hnumeral] at hexponent
      simp only [exponentText, List.mem_cons, List.cons_append, List.mem_append] at hexponent
      rcases hexponent with hmark | hsign | hzero | hdigit
      · exact .inr (by simp [hmark])
      · refine .inr ?_
        rw [hsign]
        split <;> decide
      · split at hzero
        · rw [List.mem_singleton.mp hzero]
          exact .inl (by decide)
        · exact absurd hzero List.not_mem_nil
      · exact .inl (isDigit_toDigits hdigit)

theorem not_isSpace_text (numeral : Numeral) : ∀ c ∈ numeral.text, isSpace c = false := by
  intro c hc
  rcases mem_text hc with hdigit | hmark
  · exact isSpace_of_isDigit hdigit
  · have hall : ∀ mark ∈ ['.', 'e', '+', '-'], isSpace mark = false := by
      simp only [List.forall_mem_cons, List.not_mem_nil, false_imp_iff, implies_true, and_true]
      exact ⟨rfl, rfl, rfl, rfl⟩
    exact hall c hmark

theorem comma_notMem_text (numeral : Numeral) : ',' ∉ numeral.text := by
  intro hc
  exact absurd (mem_text hc) (by decide)

theorem newline_notMem_text (numeral : Numeral) : '\n' ∉ numeral.text := by
  intro hc
  exact absurd (mem_text hc) (by decide)

theorem text_ne_nil (numeral : Numeral) : numeral.text ≠ [] := by
  unfold Numeral.text
  simp [numeral.nonempty]

theorem strip_text (numeral : Numeral) : strip numeral.text = numeral.text :=
  strip_eq_self (fun c hc => not_isSpace_text numeral c (List.mem_of_mem_head? hc))
    (fun c hc => not_isSpace_text numeral c (List.mem_of_mem_getLast? hc))

theorem readFloat_text (numeral : Numeral) : readFloat numeral.text = some numeral.value := by
  have hstrip := strip_text numeral
  have hread := readUnsigned_text numeral
  cases hwhole : numeral.whole with
  | nil => exact absurd hwhole numeral.nonempty
  | cons first rest =>
    have hdigit : first.isDigit := numeral.digits first (by simp [hwhole])
    have htext : numeral.text =
        first :: (rest ++ pointed numeral.fraction ++ exponentText numeral.exponent) := by
      simp [Numeral.text, hwhole]
    unfold readFloat
    rw [hstrip]
    rw [htext] at hread ⊢
    split
    · next hminus =>
      rw [(List.cons.inj hminus).1] at hdigit
      exact absurd hdigit (by decide)
    · next hplus =>
      rw [(List.cons.inj hplus).1] at hdigit
      exact absurd hdigit (by decide)
    · exact hread

/-! ## Integers -/

def natural (n : ℕ) : Numeral where
  whole := Nat.toDigits 10 n
  fraction := []
  exponent := none
  digits := by
    intro c hc
    rw [List.append_nil] at hc
    exact isDigit_toDigits hc
  nonempty := Nat.toDigits_ne_nil

@[simp] theorem natural_value (n : ℕ) : (natural n).value = n := by
  simp [Numeral.value, natural, readNat_toDigits]

/-! ## A fixed number of places -/

/-- The digits of a number with some places, of which at least one is before the point. -/
def paddedDigits (places n : ℕ) : List Char := (Nat.toDigits 10 n).leftpad (places + 1) '0'

theorem readNat_paddedDigits (places n : ℕ) : readNat (paddedDigits places n) = n := by
  unfold paddedDigits List.leftpad
  rw [readNat_append, readNat_zeros, readNat_toDigits]
  omega

theorem length_paddedDigits (places n : ℕ) : places + 1 ≤ (paddedDigits places n).length := by
  unfold paddedDigits
  rw [List.length_leftpad]
  omega

theorem isDigit_paddedDigits {places n : ℕ} {c : Char} (h : c ∈ paddedDigits places n) :
    c.isDigit := by
  unfold paddedDigits List.leftpad at h
  rcases List.mem_append.mp h with hzero | hdigit
  · rw [List.eq_of_mem_replicate hzero]
    decide
  · exact isDigit_toDigits hdigit

/-- The digits of a number with some places, and a point before the places. -/
def placed (places n : ℕ) : Numeral where
  whole := (paddedDigits places n).take ((paddedDigits places n).length - places)
  fraction := (paddedDigits places n).drop ((paddedDigits places n).length - places)
  exponent := none
  digits := by
    intro c hc
    rw [List.take_append_drop] at hc
    exact isDigit_paddedDigits hc
  nonempty := by
    have hlength := length_paddedDigits places n
    rw [← List.length_pos_iff, List.length_take]
    omega

/-- `format(x, ".10f")`, with any number of places -/
def fixed (places : ℕ) (x : ℚ) : Numeral := placed places (roundEven (x * 10 ^ places)).toNat

theorem placed_value (places n : ℕ) : (placed places n).value = n / 10 ^ places := by
  have hlength := length_paddedDigits places n
  have hplaces : (placed places n).fraction.length = places := by
    show (List.drop _ _).length = places
    rw [List.length_drop]
    omega
  have hdigits : readNat ((placed places n).whole ++ (placed places n).fraction) = n := by
    show readNat (List.take _ _ ++ List.drop _ _) = _
    rw [List.take_append_drop, readNat_paddedDigits]
  unfold Numeral.value
  rw [hdigits, hplaces]
  show _ * (10 : ℚ) ^ ((0 : ℤ) - places) = _
  rw [zero_sub, zpow_neg, zpow_natCast, div_eq_mul_inv]

theorem fixed_value (places : ℕ) {x : ℚ} (h : 0 ≤ x) : (fixed places x).value = roundTo places x := by
  have hround : 0 ≤ roundEven (x * 10 ^ places) := by
    apply le_roundEven
    push_cast
    positivity
  have hcast : (((roundEven (x * 10 ^ places)).toNat : ℕ) : ℚ) = roundEven (x * 10 ^ places) := by
    exact_mod_cast Int.toNat_of_nonneg hround
  unfold fixed roundTo
  rw [placed_value, hcast]

/-! ## Six significant digits -/

/-- The significand of a number with six digits, and the exponent of its first one. -/
def sixDigits (x : ℚ) : ℕ × ℤ :=
  let exponent := Int.log 10 x
  let significand := roundEven (x * (10 : ℚ) ^ (5 - exponent))
  if significand = 1000000 then (100000, exponent + 1) else (significand.toNat, exponent)

def round6 (x : ℚ) : ℚ := (sixDigits x).1 * (10 : ℚ) ^ ((sixDigits x).2 - 5)

def FitsSix (x : ℚ) : Prop := ∃ (significand : ℕ) (exponent : ℤ),
  significand < 1000000 ∧ x = significand * (10 : ℚ) ^ exponent

section Six

variable {x : ℚ}

theorem scaled_bounds (h : 0 < x) :
    100000 ≤ x * (10 : ℚ) ^ (5 - Int.log 10 x) ∧ x * (10 : ℚ) ^ (5 - Int.log 10 x) < 1000000 := by
  have hlow : (10 : ℚ) ^ Int.log 10 x ≤ x := by
    exact_mod_cast @Int.zpow_log_le_self ℚ _ _ _ _ 10 x (by decide) h
  have hhigh : x < (10 : ℚ) ^ (Int.log 10 x + 1) := by
    exact_mod_cast @Int.lt_zpow_succ_log_self ℚ _ _ _ _ 10 (by decide) x
  have hpos : (0 : ℚ) < (10 : ℚ) ^ (5 - Int.log 10 x) := zpow_pos (by norm_num) _
  constructor
  · calc (100000 : ℚ) = (10 : ℚ) ^ Int.log 10 x * (10 : ℚ) ^ (5 - Int.log 10 x) := by
          rw [← zpow_add₀ (by norm_num)]
          norm_num
      _ ≤ _ := mul_le_mul_of_nonneg_right hlow hpos.le
  · calc x * (10 : ℚ) ^ (5 - Int.log 10 x)
        < (10 : ℚ) ^ (Int.log 10 x + 1) * (10 : ℚ) ^ (5 - Int.log 10 x) :=
          mul_lt_mul_of_pos_right hhigh hpos
      _ = 1000000 := by
          rw [← zpow_add₀ (by norm_num)]
          have hexp : Int.log 10 x + 1 + (5 - Int.log 10 x) = 6 := by omega
          rw [hexp]
          norm_num

theorem sixDigits_bounds (h : 0 < x) : 100000 ≤ (sixDigits x).1 ∧ (sixDigits x).1 < 1000000 := by
  have hbounds := scaled_bounds h
  have hlow : (100000 : ℤ) ≤ roundEven (x * (10 : ℚ) ^ (5 - Int.log 10 x)) := by
    apply le_roundEven
    exact_mod_cast hbounds.1
  have hhigh : roundEven (x * (10 : ℚ) ^ (5 - Int.log 10 x)) ≤ (1000000 : ℤ) := by
    apply roundEven_le
    exact_mod_cast hbounds.2.le
  unfold sixDigits
  dsimp only
  split_ifs with hcarry
  · omega
  · dsimp only
    omega

theorem round6_iff (h : 0 < x) : round6 x = x ↔ FitsSix x := by
  constructor
  · intro hround
    exact ⟨(sixDigits x).1, (sixDigits x).2 - 5, (sixDigits_bounds h).2, hround.symm⟩
  · rintro ⟨significand, exponent, hsix, hx⟩
    have hbounds := scaled_bounds h
    have hten : (10 : ℚ) ≠ 0 := by norm_num
    -- a number below `10 ^ (exponent + 6)` has its sixth digit at `10 ^ exponent` or above
    have hlog : Int.log 10 x ≤ exponent + 5 := by
      have hbelow : x < (10 : ℚ) ^ (exponent + 6) := by
        rw [hx, add_comm, zpow_add₀ hten]
        have hcast : (significand : ℚ) < 10 ^ (6 : ℤ) := by
          have hmillion : (10 : ℚ) ^ (6 : ℤ) = (1000000 : ℕ) := by norm_num
          rw [hmillion]
          exact_mod_cast hsix
        exact mul_lt_mul_of_pos_right hcast (zpow_pos (by norm_num) _)
      have hlt := (Int.lt_zpow_iff_log_lt (b := 10) (by decide) h).mp (by exact_mod_cast hbelow)
      omega
    obtain ⟨shift, hshift⟩ : ∃ shift : ℕ, exponent + 5 - Int.log 10 x = shift :=
      ⟨(exponent + 5 - Int.log 10 x).toNat, by omega⟩
    have hinteger : x * (10 : ℚ) ^ (5 - Int.log 10 x) = ((significand * 10 ^ shift : ℕ) : ℤ) := by
      rw [hx, mul_assoc, ← zpow_add₀ hten]
      have hexp : exponent + (5 - Int.log 10 (significand * (10 : ℚ) ^ exponent)) = shift := by
        rw [← hx]
        omega
      rw [hexp]
      push_cast
      rw [zpow_natCast]
    have hsmall : significand * 10 ^ shift < 1000000 := by
      have := hbounds.2
      rw [hinteger] at this
      exact_mod_cast this
    have hdigits : sixDigits x = (significand * 10 ^ shift, Int.log 10 x) := by
      unfold sixDigits
      dsimp only
      rw [hinteger, roundEven_intCast, if_neg (by omega)]
      rfl
    unfold round6
    rw [hdigits]
    dsimp only
    have hscaled : ((significand * 10 ^ shift : ℕ) : ℚ) = x * (10 : ℚ) ^ (5 - Int.log 10 x) := by
      rw [hinteger]
      push_cast
      rfl
    rw [hscaled, mul_assoc, ← zpow_add₀ hten]
    norm_num

/-! ### Its text -/

def significant (digits : List Char) : List Char := digits.rdropWhile (fun c => c = '0')

theorem significant_append (digits : List Char) :
    significant digits ++ List.replicate (digits.length - (significant digits).length) '0' =
      digits := by
  have hsplit : significant digits ++ (digits.reverse.takeWhile (fun c => c = '0')).reverse =
      digits := by
    unfold significant List.rdropWhile
    rw [← List.reverse_append, List.takeWhile_append_dropWhile, List.reverse_reverse]
  have hzeros : (digits.reverse.takeWhile (fun c => c = '0')).reverse =
      List.replicate (digits.length - (significant digits).length) '0' := by
    rw [List.eq_replicate_iff]
    constructor
    · have hlength := congrArg List.length hsplit
      rw [List.length_append] at hlength
      omega
    · intro c hc
      have hzero := List.mem_takeWhile_imp (List.mem_reverse.mp hc)
      simpa using hzero
  rw [← hzeros]
  exact hsplit

theorem mem_significant {digits : List Char} {c : Char} (h : c ∈ significant digits) : c ∈ digits := by
  rw [← significant_append digits]
  exact List.mem_append_left _ h

theorem readNat_cut {digits : List Char} {place : ℕ} (h : place ≤ digits.length) :
    (readNat (digits.take place ++ (significant digits).drop place) : ℚ) *
        (10 : ℚ) ^ (-((significant digits).drop place).length : ℤ) =
      readNat digits * (10 : ℚ) ^ ((place : ℤ) - digits.length) := by
  have hten : (10 : ℚ) ≠ 0 := by norm_num
  have hsplit := significant_append digits
  have hlength := congrArg List.length hsplit
  rw [List.length_append, List.length_replicate] at hlength
  rcases Nat.lt_or_ge place (significant digits).length with hless | hmore
  · -- the point is before the last digit that is no zero
    have htake : digits.take place = (significant digits).take place := by
      conv_lhs => rw [← hsplit]
      rw [List.take_append_of_le_length hless.le]
    have hdigits : readNat digits = readNat (significant digits) *
        10 ^ (digits.length - (significant digits).length) := by
      conv_lhs => rw [← hsplit]
      rw [readNat_append, readNat_zeros, List.length_replicate, Nat.add_zero]
    rw [htake, List.take_append_drop, List.length_drop, hdigits]
    push_cast
    rw [mul_assoc, ← zpow_natCast (10 : ℚ) (digits.length - _), ← zpow_add₀ hten]
    congr 2
    omega
  · -- only zeros come after the point
    have hdrop : (significant digits).drop place = [] := List.drop_eq_nil_of_le hmore
    have hzeros : digits.drop place = List.replicate (digits.length - place) '0' := by
      conv_lhs => rw [← hsplit]
      rw [List.drop_append, hdrop, List.nil_append, List.drop_replicate]
      congr 1
      omega
    have hdigits : readNat digits = readNat (digits.take place) * 10 ^ (digits.length - place) := by
      conv_lhs => rw [← List.take_append_drop place digits]
      rw [readNat_append, hzeros, readNat_zeros, List.length_replicate, Nat.add_zero]
    rw [hdrop, List.append_nil, hdigits]
    push_cast
    rw [mul_assoc, ← zpow_natCast (10 : ℚ) (digits.length - place), ← zpow_add₀ hten]
    congr 2
    simp only [List.length_nil]
    omega

/-- The digits of a significand and an exponent, with a point after some of them. -/
def pointAfter (digits : List Char) (place : ℕ) (exponent : Option ℤ)
    (hdigits : ∀ c ∈ digits, c.isDigit) (hne : digits ≠ []) : Numeral where
  whole := digits.take (place + 1)
  fraction := (significant digits).drop (place + 1)
  exponent := exponent
  digits := by
    intro c hc
    rcases List.mem_append.mp hc with htake | hdrop
    · exact hdigits c (List.mem_of_mem_take htake)
    · exact hdigits c (mem_significant (List.mem_of_mem_drop hdrop))
  nonempty := by
    rw [ne_eq, List.take_eq_nil_iff]
    simp [hne]

/-- The digits of a significand after some zeros. -/
def afterZeros (digits : List Char) (zeros : ℕ) (hdigits : ∀ c ∈ digits, c.isDigit) : Numeral where
  whole := ['0']
  fraction := List.replicate zeros '0' ++ significant digits
  exponent := none
  digits := by
    intro c hc
    rcases List.mem_append.mp hc with hzero | hrest
    · rw [List.mem_singleton.mp hzero]
      decide
    · rcases List.mem_append.mp hrest with hzero | hdigit
      · rw [List.eq_of_mem_replicate hzero]
        decide
      · exact hdigits c (mem_significant hdigit)
  nonempty := List.cons_ne_nil _ _

/-- `format(x, "g")` of a positive number -/
def general (x : ℚ) : Numeral :=
  let digits := Nat.toDigits 10 (sixDigits x).1
  let exponent := (sixDigits x).2
  if exponent < -4 ∨ 6 ≤ exponent then
    pointAfter digits 0 (some exponent) (fun _ h => isDigit_toDigits h) Nat.toDigits_ne_nil
  else if 0 ≤ exponent then
    pointAfter digits exponent.toNat none (fun _ h => isDigit_toDigits h) Nat.toDigits_ne_nil
  else afterZeros digits (-exponent - 1).toNat (fun _ h => isDigit_toDigits h)

theorem length_sixDigits (h : 0 < x) : (Nat.toDigits 10 (sixDigits x).1).length = 6 := by
  have hbounds := sixDigits_bounds h
  have hle := (Nat.length_toDigits_le_iff (n := (sixDigits x).1) (k := 6) (b := 10) (by decide)
    (by decide)).mpr (by omega)
  have hgt := mt (Nat.length_toDigits_le_iff (n := (sixDigits x).1) (k := 5) (b := 10) (by decide)
    (by decide)).mp (by omega)
  omega

theorem general_value (h : 0 < x) : (general x).value = round6 x := by
  have hten : (10 : ℚ) ≠ 0 := by norm_num
  have hlength := length_sixDigits h
  have hread := readNat_toDigits (sixDigits x).1
  unfold general
  dsimp only
  split_ifs with hscientific hwhole
  · have hcut := @readNat_cut (Nat.toDigits 10 (sixDigits x).1) 1 (by omega)
    rw [hread, hlength] at hcut
    unfold Numeral.value round6
    show _ * (10 : ℚ) ^ ((sixDigits x).2 - ((List.drop 1 _).length : ℤ)) = _
    rw [sub_eq_add_neg, add_comm, zpow_add₀ hten, ← mul_assoc]
    refine (congrArg (· * (10 : ℚ) ^ (sixDigits x).2) hcut).trans ?_
    rw [mul_assoc, ← zpow_add₀ hten]
    congr 2
    omega
  · have hcut := @readNat_cut (Nat.toDigits 10 (sixDigits x).1) ((sixDigits x).2.toNat + 1)
      (by omega)
    rw [hread, hlength] at hcut
    unfold Numeral.value round6
    show _ * (10 : ℚ) ^ (0 - ((List.drop ((sixDigits x).2.toNat + 1) _).length : ℤ)) = _
    rw [zero_sub]
    refine hcut.trans ?_
    congr 2
    omega
  · obtain ⟨kept, hkept⟩ : ∃ kept, kept = significant (Nat.toDigits 10 (sixDigits x).1) := ⟨_, rfl⟩
    have hsplit := significant_append (Nat.toDigits 10 (sixDigits x).1)
    rw [hlength, ← hkept] at hsplit
    have hsix := congrArg List.length hsplit
    rw [List.length_append, List.length_replicate, hlength] at hsix
    have hdigits : readNat kept * 10 ^ (6 - kept.length) = (sixDigits x).1 := by
      rw [← hread, ← hsplit, readNat_append, readNat_zeros, List.length_replicate, Nat.add_zero]
    have hzeros (count : ℕ) : readNat (['0'] ++ (List.replicate count '0' ++ kept)) =
        readNat kept := by
      have hnone := readNat_zeros (count + 1)
      rw [List.replicate_succ] at hnone
      rw [← List.append_assoc, readNat_append]
      show readNat ('0' :: List.replicate count '0') * _ + _ = _
      rw [hnone]
      omega
    unfold Numeral.value round6 afterZeros
    dsimp only
    rw [← hkept, hzeros, ← hdigits, List.length_append, List.length_replicate, Option.getD_none]
    push_cast
    rw [mul_assoc, ← zpow_natCast (10 : ℚ) (6 - _), ← zpow_add₀ hten]
    congr 2
    omega

theorem general_value_iff (h : 0 < x) : (general x).value = x ↔ FitsSix x := by
  rw [general_value h, round6_iff h]

end Six

end LocalPlatform.Decimals
