import LocalPlatform.Lib.Dates
import LocalPlatform.Lib.Decimals

/-!
# Dates and times as texts

* `dateText` is `date:%Y%m%d`.
* `strptime` matches a text with a format.  A field of a format has several ways to match, in an
  order of preference, and the first way that matches the whole format is taken.  What is left of
  the text after it has to be empty.
* `parseDateTime_date` and its companions: a written date is read back.
* Digits are ASCII digits.
-/

namespace LocalPlatform.DateTexts

open Dates Decimals

/-! ## Writing -/

def zeroFilled (width n : ℕ) : List Char := (Nat.toDigits 10 n).leftpad width '0'

/-- `date:%Y%m%d` -/
def dateText (date : Date) : List Char :=
  zeroFilled 4 date.year ++ zeroFilled 2 date.month ++ zeroFilled 2 date.day

theorem isDigit_zeroFilled {width n : ℕ} {c : Char} (h : c ∈ zeroFilled width n) : c.isDigit := by
  unfold zeroFilled List.leftpad at h
  rcases List.mem_append.mp h with hzero | hdigit
  · rw [List.eq_of_mem_replicate hzero]
    decide
  · exact isDigit_toDigits hdigit

theorem readNat_zeroFilled (width n : ℕ) : readNat (zeroFilled width n) = n := by
  unfold zeroFilled List.leftpad
  rw [readNat_append, readNat_zeros, readNat_toDigits]
  omega

theorem length_zeroFilled {width n : ℕ} (hwidth : 0 < width) (h : n < 10 ^ width) :
    (zeroFilled width n).length = width := by
  have hle := (Nat.length_toDigits_le_iff (n := n) (b := 10) (by decide) hwidth).mpr h
  unfold zeroFilled
  rw [List.length_leftpad]
  omega

theorem isDigit_dateText {date : Date} {c : Char} (h : c ∈ dateText date) : c.isDigit := by
  rcases List.mem_append.mp h with hmonth | hday
  · rcases List.mem_append.mp hmonth with hyear | hmonth
    · exact isDigit_zeroFilled hyear
    · exact isDigit_zeroFilled hmonth
  · exact isDigit_zeroFilled hday

theorem dateText_ne_nil (date : Date) : dateText date ≠ [] := by
  have hlength := date.valid.days.1
  intro hnil
  have hread := congrArg readNat hnil
  unfold dateText at hread
  rw [readNat_append, readNat_zeroFilled] at hread
  have hzero : readNat [] = 0 := rfl
  omega

/-! ## Formats -/

inductive Directive where
  | year
  | month
  | day
  | hour
  | minute
  | second
  | fraction
  deriving DecidableEq

inductive Token where
  | field (directive : Directive)
  | literal (c : Char)
  | space
  deriving DecidableEq

def pair (accepts : ℕ → Bool) : List Char → List (ℕ × List Char)
  | a :: b :: rest =>
    if a.isDigit ∧ b.isDigit ∧ accepts (readNat [a, b]) then [(readNat [a, b], rest)] else []
  | _ => []

def single (accepts : ℕ → Bool) : List Char → List (ℕ × List Char)
  | a :: rest => if a.isDigit ∧ accepts (readNat [a]) then [(readNat [a], rest)] else []
  | [] => []

def spaced (accepts : ℕ → Bool) : List Char → List (ℕ × List Char)
  | ' ' :: rest => single accepts rest
  | _ => []

/-- The ways in which a text begins with a field, the preferred one first. -/
def Directive.ways : Directive → List Char → List (ℕ × List Char)
  | .year, text =>
    if 4 ≤ text.length ∧ (text.take 4).all Char.isDigit then
      [(readNat (text.take 4), text.drop 4)]
    else []
  | .month, text =>
    pair (fun n => 1 ≤ n ∧ n ≤ 12) text ++ single (fun n => 1 ≤ n) text
  | .day, text =>
    pair (fun n => 1 ≤ n ∧ n ≤ 31) text ++ single (fun n => 1 ≤ n) text ++
      spaced (fun n => 1 ≤ n) text
  | .hour, text => pair (fun n => n ≤ 23) text ++ single (fun _ => true) text
  | .minute, text => pair (fun n => n ≤ 59) text ++ single (fun _ => true) text
  | .second, text => pair (fun n => n ≤ 61) text ++ single (fun _ => true) text
  | .fraction, text =>
    [6, 5, 4, 3, 2, 1].filterMap (fun count =>
      if count ≤ text.length ∧ (text.take count).all Char.isDigit then
        some (readNat (text.take count) * 10 ^ (6 - count), text.drop count)
      else none)

/-- The ways in which a text begins with a format. -/
def ways : List Token → List Char → List (List (Directive × ℕ) × List Char)
  | [], text => [([], text)]
  | .field directive :: tokens, text =>
    (directive.ways text).flatMap (fun found =>
      (ways tokens found.2).map (fun rest => ((directive, found.1) :: rest.1, rest.2)))
  | .literal c :: tokens, text =>
    match text with
    | [] => []
    | first :: rest => if first = c then ways tokens rest else []
  | .space :: tokens, text =>
    (List.range (text.takeWhile isSpace).length).reverse.flatMap (fun more =>
      ways tokens (text.drop (more + 1)))

/-- The fields of a text, which the format has to match as a whole. -/
def strptime (format : List Token) (text : List Char) : Option (List (Directive × ℕ)) :=
  match (ways format text).head? with
  | some (fields, []) => some fields
  | _ => none

def fieldOf (directive : Directive) (missing : ℕ) : List (Directive × ℕ) → ℕ
  | [] => missing
  | (other, value) :: fields => if other = directive then value else fieldOf directive missing fields

/-- A time of the day is a number of microseconds. -/
def microsOf (fields : List (Directive × ℕ)) : ℕ :=
  ((fieldOf .hour 0 fields * 60 + fieldOf .minute 0 fields) * 60 + fieldOf .second 0 fields) *
    1000000 + fieldOf .fraction 0 fields

/-- `datetime.strptime(text, format)` -/
def parseDateTime (format : List Token) (text : List Char) : Option (Date × ℕ) :=
  (strptime format text).bind (fun fields =>
    if h : IsDate (fieldOf .year 1900 fields) (fieldOf .month 1 fields) (fieldOf .day 1 fields) then
      if fieldOf .second 0 fields ≤ 59 then some (⟨_, _, _, h⟩, microsOf fields) else none
    else none)

/-- `%Y%m%d` -/
def dateFormat : List Token := [.field .year, .field .month, .field .day]

/-- `%Y%m%d %H:%M` -/
def minuteFormat : List Token :=
  dateFormat ++ [.space, .field .hour, .literal ':', .field .minute]

/-- `%Y%m%d %H:%M:%S` -/
def secondFormat : List Token := minuteFormat ++ [.literal ':', .field .second]

/-- `%Y%m%d %H:%M:%S.%f` -/
def fractionFormat : List Token := secondFormat ++ [.literal '.', .field .fraction]

/-! ## A date is read back -/

theorem ways_year (tokens : List Token) {year : ℕ} (h : year ≤ 9999) (text : List Char) :
    ways (.field .year :: tokens) (zeroFilled 4 year ++ text) =
      (ways tokens text).map (fun rest => ((.year, year) :: rest.1, rest.2)) := by
  have hlength : (zeroFilled 4 year).length = 4 := length_zeroFilled (by decide) (by omega)
  have htake : (zeroFilled 4 year ++ text).take 4 = zeroFilled 4 year := by
    rw [List.take_append_of_le_length hlength.ge, List.take_of_length_le hlength.le]
  have hdrop : (zeroFilled 4 year ++ text).drop 4 = text := by
    rw [List.drop_append, hlength, List.drop_of_length_le hlength.le]
    rfl
  have hdigits : (zeroFilled 4 year).all Char.isDigit :=
    List.all_eq_true.mpr (fun c hc => isDigit_zeroFilled hc)
  have hlong : 4 ≤ (zeroFilled 4 year ++ text).length := by
    rw [List.length_append]
    omega
  simp only [ways, Directive.ways]
  rw [htake, hdrop, readNat_zeroFilled, if_pos ⟨hlong, hdigits⟩, List.flatMap_singleton]

/-- The time of a bar that is written with its date only. -/
def midnight : List Char := [' ', '0', '0', ':', '0', '0']

theorem ways_monthDay : ∀ month ∈ List.range 13, ∀ day ∈ List.range 32, 1 ≤ month → 1 ≤ day →
    (ways [.field .month, .field .day] (zeroFilled 2 month ++ zeroFilled 2 day)).head? =
        some ([(.month, month), (.day, day)], []) ∧
      (ways [.field .month, .field .day, .space, .field .hour, .literal ':', .field .minute]
        (zeroFilled 2 month ++ zeroFilled 2 day ++ midnight)).head? =
          some ([(.month, month), (.day, day), (.hour, 0), (.minute, 0)], []) ∧
      ways [.field .month, .field .day, .space, .field .hour, .literal ':', .field .minute,
        .literal ':', .field .second]
          (zeroFilled 2 month ++ zeroFilled 2 day ++ midnight) = [] ∧
      ways [.field .month, .field .day, .space, .field .hour, .literal ':', .field .minute,
        .literal ':', .field .second, .literal '.', .field .fraction]
          (zeroFilled 2 month ++ zeroFilled 2 day ++ midnight) = [] := by
  decide +kernel

theorem ways_monthDay_date (date : Date) :
    (ways [.field .month, .field .day] (zeroFilled 2 date.month ++ zeroFilled 2 date.day)).head? =
        some ([(.month, date.month), (.day, date.day)], []) ∧
      (ways [.field .month, .field .day, .space, .field .hour, .literal ':', .field .minute]
        (zeroFilled 2 date.month ++ zeroFilled 2 date.day ++ midnight)).head? =
          some ([(.month, date.month), (.day, date.day), (.hour, 0), (.minute, 0)], []) ∧
      ways [.field .month, .field .day, .space, .field .hour, .literal ':', .field .minute,
        .literal ':', .field .second]
          (zeroFilled 2 date.month ++ zeroFilled 2 date.day ++ midnight) = [] ∧
      ways [.field .month, .field .day, .space, .field .hour, .literal ':', .field .minute,
        .literal ':', .field .second, .literal '.', .field .fraction]
          (zeroFilled 2 date.month ++ zeroFilled 2 date.day ++ midnight) = [] := by
  have hmonths := date.valid.months
  have hdays := date.valid.days.1
  have hlast := date.day_le
  exact ways_monthDay date.month (List.mem_range.mpr (by omega)) date.day
    (List.mem_range.mpr (by omega)) (by omega) (by omega)

theorem strptime_date (tokens : List Token) (date : Date) {text : List Char}
    {fields : List (Directive × ℕ)}
    (h : (ways tokens (zeroFilled 2 date.month ++ zeroFilled 2 date.day ++ text)).head? =
      some (fields, [])) :
    strptime (.field .year :: tokens) (dateText date ++ text) =
      some ((.year, date.year) :: fields) := by
  have hyear := date.valid.years.2
  unfold strptime dateText
  rw [List.append_assoc, List.append_assoc, ways_year tokens hyear, ← List.append_assoc,
    List.head?_map, h]
  rfl

theorem strptime_date_none (tokens : List Token) (date : Date) {text : List Char}
    (h : ways tokens (zeroFilled 2 date.month ++ zeroFilled 2 date.day ++ text) = []) :
    strptime (.field .year :: tokens) (dateText date ++ text) = none := by
  have hyear := date.valid.years.2
  unfold strptime dateText
  rw [List.append_assoc, List.append_assoc, ways_year tokens hyear, ← List.append_assoc, h]
  rfl

theorem parseDateTime_date (date : Date) : parseDateTime dateFormat (dateText date) = some (date, 0) := by
  have hways := (ways_monthDay_date date).1
  have hfields := @strptime_date [.field .month, .field .day] date [] _
    (by rw [List.append_nil]; exact hways)
  rw [List.append_nil] at hfields
  unfold parseDateTime dateFormat
  rw [hfields]
  simp [fieldOf, microsOf, date.valid]

theorem parseDateTime_midnight (date : Date) :
    parseDateTime minuteFormat (dateText date ++ midnight) = some (date, 0) := by
  have hfields := strptime_date _ date (ways_monthDay_date date).2.1
  unfold parseDateTime
  show (strptime (.field .year :: [.field .month, .field .day, .space, .field .hour, .literal ':',
    .field .minute]) _).bind _ = _
  rw [hfields]
  simp [fieldOf, microsOf, date.valid]

theorem parseDateTime_midnight_none (date : Date) :
    parseDateTime secondFormat (dateText date ++ midnight) = none ∧
      parseDateTime fractionFormat (dateText date ++ midnight) = none := by
  have hseconds := strptime_date_none _ date (ways_monthDay_date date).2.2.1
  have hfractions := strptime_date_none _ date (ways_monthDay_date date).2.2.2
  constructor
  · unfold parseDateTime
    show (strptime (.field .year :: [.field .month, .field .day, .space, .field .hour, .literal ':',
      .field .minute, .literal ':', .field .second]) _).bind _ = _
    rw [hseconds]
    rfl
  · unfold parseDateTime
    show (strptime (.field .year :: [.field .month, .field .day, .space, .field .hour, .literal ':',
      .field .minute, .literal ':', .field .second, .literal '.', .field .fraction]) _).bind _ = _
    rw [hfractions]
    rfl

end LocalPlatform.DateTexts
