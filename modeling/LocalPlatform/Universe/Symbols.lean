import LocalPlatform.Paper.Values

/-!
# Symbols and dates

What the services of the index universes share: `normalize_symbol` of the China
market, and dates.

* The tables hold a date as its ISO text and compare the texts (`IsoDate`).  Where the
  code counts days, a date is its ordinal (`Day`).
* A value of a record that names a date is missing, a date, or a text that is not
  one.
-/

namespace LocalPlatform.Universe

open Paper

/-! ## Dates -/

abbrev Day := Int

/-- The form `YYYY-MM-DD`. -/
def isIso (text : String) : Bool :=
  text.length == 10 &&
    (List.zip text.toList (List.range 10)).all
      (fun c => if c.2 == 4 || c.2 == 7 then c.1 == '-' else c.1.isDigit)

/-- A date, as `date.isoformat` writes it. -/
structure IsoDate where
  text : String
  wellFormed : isIso text

/-- What a record holds where a date of type `δ` is expected. -/
inductive RawDate (δ : Type) where
  | missing
  | day (day : δ)
  | invalid (text : String)

def RawDate.day? {δ : Type} : RawDate δ → Option δ
  | .day date => some date
  | _ => none

theorem IsoDate.text_ne_empty (date : IsoDate) : date.text ≠ "" := by
  intro h
  have hform := date.wellFormed
  rw [h] at hform
  simp [isIso] at hform

/-- `parse_date(str(value)[:10])` of a value that is there. -/
def parseDate {δ : Type} : RawDate δ → Except String (Option δ)
  | .missing => .ok none
  | .day day => .ok (some day)
  | .invalid text => .error s!"Invalid date '{text}'; expected YYYY-MM-DD"

/-- `_date` -/
def requiredDate {δ : Type} (field : String) (value : RawDate δ) : Except String δ := do
  match ← parseDate value with
  | some day => pure day
  | none => .error s!"{field} is required."

/-! ## Symbols -/

/-- `str.isdigit` -/
def isDigits (s : String) : Bool := s != "" && s.toList.all Char.isDigit

/-- `str.startswith` with several prefixes. -/
def startsWithAny (heads : List String) (s : String) : Bool :=
  heads.any (fun head => head.toList.isPrefixOf s.toList)

/-- `s[n:]` -/
def dropText (n : Nat) (s : String) : String := String.ofList (s.toList.drop n)

/-- `str.zfill` on digits. -/
def zfill (n : Nat) (s : String) : String :=
  String.ofList (List.replicate (n - s.length) '0' ++ s.toList)

/-- `value.rsplit(".", 1)` of a text with a dot. -/
def rsplitDot (s : String) : String × String :=
  let suffix := s.toList.reverse.takeWhile (· ≠ '.')
  let base := (s.toList.reverse.dropWhile (· ≠ '.')).drop 1
  (String.ofList base.reverse, String.ofList suffix.reverse)

/-- The part of `_normalize_china_symbol` for a symbol that begins with its venue. -/
def venueDigits (value stripped : String) : Except String String :=
  if isDigits stripped ∧ stripped.length ∈ [5, 6] then .ok stripped
  else .error s!"Invalid A-share symbol: '{value}'"

/-- `_normalize_china_symbol` -/
def normalizeChinaSymbol (symbol : String) : Except String String :=
  let value := upper symbol
  if startsWithAny ["SH.", "SZ.", "SS.", "BJ."] value then venueDigits value (dropText 3 value)
  else if startsWithAny ["SH", "SZ", "SS", "BJ"] value then venueDigits value (dropText 2 value)
  else if value.toList.contains '.' then
    let (base, suffix) := rsplitDot value
    if suffix ∈ ["T", "KS", "KQ", "TW", "TWO"] ∧ isDigits base ∧ 4 ≤ base.length ∧
        base.length ≤ 6 then
      .ok s!"{base}.{suffix}"
    else if suffix = "HK" ∧ isDigits base ∧ base.length ≤ 5 then .ok s!"HK{zfill 5 base}"
    else if suffix ∈ ["SH", "SZ", "SS", "BJ"] ∧ isDigits base ∧ base.length = 6 then .ok base
    else if base ∈ ["SH", "SZ", "SS", "BJ"] ∧ isDigits suffix then .ok suffix
    else if isDigits suffix then .error s!"Invalid A-share suffix format: '{value}'"
    else .ok value
  else .ok value

/-- `normalize_symbol(symbol, "china")` -/
def normalizeSymbol (symbol : String) : Except String String := do
  let value := upper (strip symbol)
  let normalized ← normalizeChinaSymbol
    (String.ofList (value.toList.map (fun c => if c = '_' then '.' else c)))
  if ¬ (isDigits normalized ∨ startsWithAny ["SH", "SZ", "SS", "BJ", "HK"] normalized) then
    .error "A-share symbols must be in a recognized format, e.g. 600519 or SH600519."
  else if startsWithAny ["SH", "SZ", "SS", "BJ", "HK"] normalized then .ok normalized
  else if normalized.length ≠ 6 then
    .error "A-share symbols must be 6 digits, e.g. 600519 or 000001."
  else .ok normalized

end LocalPlatform.Universe
