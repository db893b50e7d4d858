import LocalPlatform.Lib.DecimalTexts
import LocalPlatform.Lib.Floats

/-!
# JSON values

* `Json` are the values that Python reads, with the numbers of a type `φ` as floats.
* `Json.induction` is the induction over items and fields, and `Keyed` says that no object has two
  fields of one name.
* `Same` are equal values, of which the objects can have their fields in any order.
* `readFloat` is `float(text)`.
-/

namespace LocalPlatform

/-- A JSON value; an object has its fields in the order of the text. -/
inductive Json (φ : Type) where
  | null
  | bool (value : Bool)
  | int (value : ℤ)
  | float (value : φ)
  | text (value : String)
  | list (items : List (Json φ))
  | object (fields : List (String × Json φ))

namespace Json

variable {φ : Type}

theorem induction {P : Json φ → Prop} (hnull : P .null) (hbool : ∀ b, P (.bool b))
    (hint : ∀ n, P (.int n)) (hfloat : ∀ x, P (.float x)) (htext : ∀ s, P (.text s))
    (hlist : ∀ items, (∀ item ∈ items, P item) → P (.list items))
    (hobject : ∀ fields : List (String × Json φ), (∀ field ∈ fields, P field.2) →
      P (.object fields)) : ∀ value, P value
  | .null => hnull
  | .bool b => hbool b
  | .int n => hint n
  | .float x => hfloat x
  | .text s => htext s
  | .list items => hlist items (fun item _ =>
    induction hnull hbool hint hfloat htext hlist hobject item)
  | .object fields => hobject fields (fun field _ =>
    induction hnull hbool hint hfloat htext hlist hobject field.2)
termination_by value => sizeOf value
decreasing_by
  · have hsize := List.sizeOf_lt_of_mem ‹_›
    simp
    omega
  · have hsize := List.sizeOf_lt_of_mem ‹_›
    obtain ⟨key, value⟩ := field
    simp at hsize ⊢
    omega

mutual

/-- No object in the value has two fields of one name. -/
@[simp]
def Keyed : Json φ → Prop
  | .list items => KeyedItems items
  | .object fields => (fields.map Prod.fst).Nodup ∧ KeyedFields fields
  | _ => True

@[simp]
def KeyedItems : List (Json φ) → Prop
  | [] => True
  | item :: items => item.Keyed ∧ KeyedItems items

@[simp]
def KeyedFields : List (String × Json φ) → Prop
  | [] => True
  | (_, value) :: fields => value.Keyed ∧ KeyedFields fields

end

mutual

/-- Values that are equal but for the order of fields. -/
@[simp]
def Same : Json φ → Json φ → Prop
  | .list items, other =>
    match other with
    | .list others => SameItems items others
    | _ => False
  | .object fields, other =>
    match other with
    | .object others => fields.length = others.length ∧ SameFields fields others
    | _ => False
  | value, other => value = other

@[simp]
def SameItems : List (Json φ) → List (Json φ) → Prop
  | [], others => others = []
  | item :: items, others =>
    match others with
    | other :: others => item.Same other ∧ SameItems items others
    | [] => False

@[simp]
def SameFields : List (String × Json φ) → List (String × Json φ) → Prop
  | [], _ => True
  | (key, value) :: fields, others =>
    (∃ other, others.lookup key = some other ∧ value.Same other) ∧ SameFields fields others

end

theorem keyedFields_iff {fields : List (String × Json φ)} :
    KeyedFields fields ↔ ∀ field ∈ fields, field.2.Keyed := by
  induction fields with
  | nil => simp [KeyedFields]
  | cons field fields ih => simp [KeyedFields, ih]

theorem sameItems_iff {items others : List (Json φ)} :
    SameItems items others ↔ List.Forall₂ Same items others := by
  induction items generalizing others with
  | nil => simp [SameItems]
  | cons item items ih => cases others <;> simp [SameItems, ih]

theorem sameFields_iff {fields others : List (String × Json φ)} :
    SameFields fields others ↔
      ∀ field ∈ fields, ∃ other, others.lookup field.1 = some other ∧ field.2.Same other := by
  induction fields with
  | nil => simp [SameFields]
  | cons field fields ih => simp [SameFields, ih]

/-- `value.get(key)`, where the value is an object. -/
def get? (value : Json φ) (key : String) : Option (Json φ) :=
  match value with
  | .object fields => fields.lookup key
  | _ => none

end Json

namespace Floats

open DecimalTexts

/-- A number as a float, without rounding. -/
def PyFloat.ofRat (value : ℚ) : PyFloat :=
  -- the numbers that are rounded to an infinity
  if 2 ^ 1024 - 2 ^ 970 ≤ value then .posInf
  else if value ≤ -(2 ^ 1024 - 2 ^ 970) then .negInf
  else .real value

/-- An underscore stands between two digits. -/
def underscoresFit : List Char → Bool
  | a :: '_' :: b :: rest => a.isDigit && b.isDigit && underscoresFit (b :: rest)
  | '_' :: _ => false
  | [_, '_'] => false
  | _ :: rest => underscoresFit rest
  | [] => true

/-- `float(text)`, of a text with ASCII digits. -/
def readFloat (text : List Char) : Option PyFloat :=
  if underscoresFit (Decimals.strip text) then
    match readDecimal text with
    | some (.finite negative decimal) =>
      some (PyFloat.ofRat (if negative then -decimal.value else decimal.value))
    | some (.infinite negative) => some (if negative then .negInf else .posInf)
    -- a `nan` with digits and an `snan` are no floats
    | some .notANumber =>
      if String.ofList ((Decimals.strip text).map Char.toLower) ∈ ["nan", "+nan", "-nan"] then
        some .nan
      else none
    | none => none
  else none

/-- The nearest double, and the one with the even significand of two. -/
def roundDouble (value : ℚ) : ℚ :=
  let unit : ℚ := 2 ^ max (Int.log 2 |value| - 52) (-1074)
  Decimals.roundEven (value / unit) * unit

def PyFloat.round : PyFloat → PyFloat
  | .real value => .real (roundDouble value)
  | other => other

/-- `a + b` -/
def PyFloat.add : PyFloat → PyFloat → PyFloat
  | .real a, .real b => .real (a + b)
  | .posInf, .real _ => .posInf
  | .real _, .posInf => .posInf
  | .posInf, .posInf => .posInf
  | .negInf, .real _ => .negInf
  | .real _, .negInf => .negInf
  | .negInf, .negInf => .negInf
  | _, _ => .nan

end Floats

end LocalPlatform
