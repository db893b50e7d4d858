import LocalPlatform.Lib.Decimals
import Mathlib.Data.String.Basic

/-!
# Python values of the Paper services

The Paper services compute on Python floats, decimals, strings and JSON
dictionaries.  This module fixes how the model writes them.

* Every number is an exact rational.  `Decimal` keeps, next to its value, the
  text that Python's `str` gives it, because digests are taken over the text.
* A SHA-256 digest is the payload it was taken over.  Two digests agree exactly
  when their payloads do, so the hash is free of collisions.
* A parameter of a session is a `ParamValue`, the JSON value of a key, and the
  readers `_parameter_float`, `_parameter_list` and the others keep the order
  in which the source tries its keys.
-/

namespace LocalPlatform.Paper

/-- The exceptions of the Paper services.  `integrityError` is a violated
unique constraint of the database, and it names the constraint. -/
inductive PaperError where
  | keyError (message : String)
  | valueError (message : String)
  | integrityError (constraint : String)
  deriving DecidableEq

/-- `_digest`: the SHA-256 hex digest of the canonical JSON of a payload. -/
structure Digest (α : Type) where
  payload : α
  deriving DecidableEq

/-- `Decimal(str(x))`: a number and the text it was read from. -/
structure Decimal where
  value : ℚ
  text : String
  deriving DecidableEq

/-- `Decimal(str(x))` of a float: the text is a function of the value. -/
def Decimal.ofFloat (x : ℚ) : Decimal := { value := x, text := toString x }

/-! ## Rounding -/

/-- Round to the nearest integer, and a tie to the even one, as Python's
`round` and the default decimal context do. -/
def roundHalfEven (x : ℚ) : ℤ :=
  let below := ⌊x⌋
  let rest := x - below
  if rest < 1 / 2 then below
  else if 1 / 2 < rest then below + 1
  else if below % 2 = 0 then below
  else below + 1

/-- `round(x, 8)`, and `quantize(Decimal("0.00000001"))`. -/
def round8 (x : ℚ) : ℚ := roundHalfEven (x * 10 ^ 8) / 10 ^ 8

theorem roundHalfEven_intCast (n : ℤ) : roundHalfEven n = n := by
  simp [roundHalfEven]

theorem round8_round8 (x : ℚ) : round8 (round8 x) = round8 x := by
  have hscale : round8 x * 10 ^ 8 = roundHalfEven (x * 10 ^ 8) := by
    rw [round8, div_mul_cancel₀ _ (by norm_num)]
  rw [round8, hscale, roundHalfEven_intCast, round8]

/-- A number with at most eight decimals, which the quantization keeps. -/
def EightDecimals (x : ℚ) : Prop := round8 x = x

instance (x : ℚ) : Decidable (EightDecimals x) := inferInstanceAs (Decidable (round8 x = x))

theorem eightDecimals_iff {x : ℚ} : EightDecimals x ↔ ∃ n : ℤ, x = n / 10 ^ 8 := by
  constructor
  · intro h
    exact ⟨_, h.symm⟩
  · intro h
    obtain ⟨n, rfl⟩ := h
    rw [EightDecimals, round8, div_mul_cancel₀ _ (by norm_num), roundHalfEven_intCast]

theorem eightDecimals_zero : EightDecimals 0 := eightDecimals_iff.mpr ⟨0, by norm_num⟩

theorem EightDecimals.add {x y : ℚ} (hx : EightDecimals x) (hy : EightDecimals y) :
    EightDecimals (x + y) := by
  obtain ⟨n, hn⟩ := eightDecimals_iff.mp hx
  obtain ⟨k, hk⟩ := eightDecimals_iff.mp hy
  refine eightDecimals_iff.mpr ⟨n + k, ?_⟩
  rw [hn, hk, Int.cast_add, add_div]

theorem EightDecimals.neg {x : ℚ} (hx : EightDecimals x) : EightDecimals (-x) := by
  obtain ⟨n, hn⟩ := eightDecimals_iff.mp hx
  refine eightDecimals_iff.mpr ⟨-n, ?_⟩
  rw [hn, Int.cast_neg, neg_div]

theorem eightDecimals_sum (xs : List ℚ) (h : ∀ x ∈ xs, EightDecimals x) : EightDecimals xs.sum := by
  induction xs with
  | nil => exact eightDecimals_zero
  | cons x xs ih =>
    obtain ⟨hx, hxs⟩ := List.forall_mem_cons.mp h
    rw [List.sum_cons]
    exact hx.add (ih hxs)

theorem EightDecimals.eq_zero {x : ℚ} (hx : EightDecimals x) (hsmall : |x| ≤ 1 / 10 ^ 9) :
    x = 0 := by
  obtain ⟨n, rfl⟩ := eightDecimals_iff.mp hx
  have hn : |(n : ℚ)| < 1 := by
    rw [abs_div, abs_of_pos (show (0 : ℚ) < 10 ^ 8 by norm_num),
      div_le_iff₀ (by norm_num)] at hsmall
    exact lt_of_le_of_lt hsmall (by norm_num)
  have hzero : n = 0 := Int.abs_lt_one_iff.mp (by exact_mod_cast hn)
  rw [hzero]
  norm_num

/-! ## Text -/

/-- `str.strip` -/
def strip (s : String) : String := String.ofList (Decimals.strip s.toList)

/-- `str.upper` of ASCII texts, as tickers and sides are. -/
def upper (s : String) : String := String.ofList (s.toList.map Char.toUpper)

/-- `str.lower` of ASCII texts. -/
def lower (s : String) : String := String.ofList (s.toList.map Char.toLower)

/-- `token in text` -/
def mentions (text token : String) : Bool :=
  text.toList.tails.any (fun tail => token.toList.isPrefixOf tail)

theorem toUpper_not_lower (c : Char) : ¬ ('a'.val ≤ c.toUpper.val ∧ c.toUpper.val ≤ 'z'.val) := by
  delta Char.toUpper
  split
  · rename_i h
    have hlow := UInt32.le_iff_toNat_le.mp h.1
    have hhigh := UInt32.le_iff_toNat_le.mp h.2
    rintro ⟨hupper, -⟩
    have hupper := UInt32.le_iff_toNat_le.mp hupper
    simp at hlow hhigh hupper
    omega
  · assumption

theorem toLower_not_upper (c : Char) : ¬ ('A'.val ≤ c.toLower.val ∧ c.toLower.val ≤ 'Z'.val) := by
  delta Char.toLower
  split
  · rename_i h
    have hlow := UInt32.le_iff_toNat_le.mp h.1
    have hhigh := UInt32.le_iff_toNat_le.mp h.2
    rintro ⟨-, hlower⟩
    have hlower := UInt32.le_iff_toNat_le.mp hlower
    simp at hlow hhigh hlower
    omega
  · assumption

theorem upper_upper (s : String) : upper (upper s) = upper s := by
  unfold upper
  rw [String.toList_ofList, List.map_map]
  congr 1
  apply List.map_congr_left
  intro c _
  show c.toUpper.toUpper = c.toUpper
  exact dif_neg (toUpper_not_lower c)

theorem lower_lower (s : String) : lower (lower s) = lower s := by
  unfold lower
  rw [String.toList_ofList, List.map_map]
  congr 1
  apply List.map_congr_left
  intro c _
  show c.toLower.toLower = c.toLower
  exact dif_neg (toLower_not_upper c)

/-- `a or b or ... or ""`: the first text that is neither missing nor empty. -/
def firstText : List (Option String) → String
  | [] => ""
  | some s :: rest => if s = "" then firstText rest else s
  | none :: rest => firstText rest

theorem firstText_ne_empty {last : String} (hlast : last ≠ "") (texts : List (Option String)) :
    firstText (texts ++ [some last]) ≠ "" := by
  induction texts with
  | nil => simpa [firstText] using hlast
  | cons text texts ih =>
    cases text with
    | none => exact ih
    | some s =>
      rw [List.cons_append, firstText]
      split_ifs with hempty
      · exact ih
      · exact hempty

theorem upper_ne_empty {s : String} (hs : s ≠ "") : upper s ≠ "" := by
  intro hempty
  apply hs
  have hlist := congrArg String.toList hempty
  rw [upper, String.toList_ofList, String.toList_empty, List.map_eq_nil_iff] at hlist
  rw [← String.ofList_toList (s := s), hlist]

/-- `text or None` -/
def textOrNone (s : String) : Option String := if s = "" then none else some s

/-- `a or b or ... or 0`: the first number that is neither missing nor zero. -/
def firstNumber : List (Option ℚ) → ℚ
  | [] => 0
  | some x :: rest => if x = 0 then firstNumber rest else x
  | none :: rest => firstNumber rest

/-- The digits of a decimal literal as a number. -/
def digitsValue (cs : List Char) : Option ℕ :=
  if cs.all Char.isDigit then some (cs.foldl (fun n c => 10 * n + (c.toNat - '0'.toNat)) 0)
  else none

/-- The sign in front of a literal, and the rest of it. -/
def splitSign : List Char → ℚ × List Char
  | '-' :: rest => (-1, rest)
  | '+' :: rest => (1, rest)
  | rest => (1, rest)

/-- `float(text)` for a finite decimal literal with an optional sign, fraction
and exponent; anything else raises. -/
def parseFloat (s : String) : Option ℚ := do
  let signed := splitSign (strip s).toList
  let mantissa := signed.2.takeWhile (fun c => c ≠ 'e' ∧ c ≠ 'E')
  let exponent := signed.2.dropWhile (fun c => c ≠ 'e' ∧ c ≠ 'E')
  let power := splitSign (exponent.drop 1)
  let whole := mantissa.takeWhile (· ≠ '.')
  let fraction := (mantissa.dropWhile (· ≠ '.')).drop 1
  if (whole ++ fraction).isEmpty || (!exponent.isEmpty && power.2.isEmpty) then none
  else
    let digits ← digitsValue (whole ++ fraction)
    let shift ← digitsValue power.2
    let scale : ℚ := if power.1 < 0 then 1 / 10 ^ shift else 10 ^ shift
    some (signed.1 * digits * scale / 10 ^ fraction.length)

/-! ## Parameters -/

/-- A JSON value of the session's `parameters` dictionary. -/
inductive ParamValue where
  | null
  | bool (b : Bool)
  | num (x : ℚ)
  | text (s : String)
  | list (items : List String)
  deriving DecidableEq

/-- `bool(value)` -/
def ParamValue.truthy : ParamValue → Bool
  | .null => false
  | .bool b => b
  | .num x => decide (x ≠ 0)
  | .text s => decide (s ≠ "")
  | .list items => !items.isEmpty

/-- `str(value)` -/
def ParamValue.str : ParamValue → String
  | .null => "None"
  | .bool b => if b then "True" else "False"
  | .num x => toString x
  | .text s => s
  | .list items => toString items

/-- `float(value)` -/
def ParamValue.float : ParamValue → Except PaperError ℚ
  | .null => .error (.valueError "float() argument must be a string or a real number")
  | .bool b => .ok (if b then 1 else 0)
  | .num x => .ok x
  | .text s =>
    match parseFloat s with
    | some x => .ok x
    | none => .error (.valueError s!"could not convert string to float: {s}")
  | .list _ => .error (.valueError "float() argument must be a string or a real number")

/-- The `parameters` dictionary of a session. -/
abbrev Parameters := List (String × ParamValue)

/-- `parameters.get(key)`, where a missing key reads as null. -/
def Parameters.get (p : Parameters) (key : String) : ParamValue := (p.lookup key).getD .null

/-- `str(parameters.get(key) or "") or None` -/
def Parameters.textOrNone (p : Parameters) (key : String) : Option String :=
  if (p.get key).truthy then Paper.textOrNone (p.get key).str else none

/-- Whether a value is one of `None` and the empty string. -/
def ParamValue.isBlank : ParamValue → Bool
  | .null => true
  | .text s => decide (s = "")
  | _ => false

/-- `_parameter_float`: the first key with a value that is not blank. -/
def parameterFloat (p : Parameters) : List String → Except PaperError (Option ℚ)
  | [] => .ok none
  | key :: keys =>
    if (p.get key).isBlank then parameterFloat p keys
    else (p.get key).float.map some

/-- `int(x)`: truncation towards zero. -/
def truncate (x : ℚ) : ℤ := if 0 ≤ x then ⌊x⌋ else ⌈x⌉

/-- `_parameter_int` -/
def parameterInt (p : Parameters) (keys : List String) : Except PaperError (Option ℤ) :=
  (parameterFloat p keys).map (fun value => value.map truncate)

/-- `_float_parameter`: the value of one key, or the default of a blank one. -/
def floatParameter (p : Parameters) (key : String) (default : ℚ) : Except PaperError ℚ :=
  if (p.get key).isBlank then .ok default else (p.get key).float

/-- `_parameter_bool` -/
def parameterBool (p : Parameters) (key : String) (default : Bool) : Bool :=
  match p.get key with
  | .null => default
  | .text s => (["1", "true", "yes", "on"] : List String).contains (lower (strip s))
  | value => value.truthy

/-- `_parameter_list`: the symbols under the first key that holds a text or a
list, stripped, upper-cased and without the empty ones. -/
def parameterList (p : Parameters) : List String → List String
  | [] => []
  | key :: keys =>
    match p.get key with
    | .text s =>
      (((s.toList.splitOn ',').map (fun cs => strip (String.ofList cs))).filter (· ≠ "")).map upper
    | .list items => ((items.map strip).filter (· ≠ "")).map upper
    | _ => parameterList p keys

end LocalPlatform.Paper
