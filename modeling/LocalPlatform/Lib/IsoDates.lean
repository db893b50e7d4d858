import LocalPlatform.Lib.DateTexts

/-!
# Dates in ISO spellings

* `fromIsoFormat` reads a calendar date or a date of a week, with dashes between its parts or
  without.  A week without a day is its Monday.
* `readCompact_of_iso`: the dashes of an accepted text say nothing.  Two accepted texts that agree
  without their dashes are the same day (`eq_of_compact`).
-/

namespace LocalPlatform.IsoDates

open Dates DateTexts Decimals

/-! ## Days of weeks -/

def weekday (date : Date) : ℕ := (date.ordinal + 6) % 7

/-- The date that is some days earlier, if there is one. -/
def subDays : ℕ → Date → Option Date
  | 0, date => some date
  | days + 1, date => date.previous.bind (subDays days)

theorem subDays_le {days : ℕ} : ∀ {date earlier : Date}, subDays days date = some earlier →
    earlier ≤ date := by
  induction days with
  | zero =>
    intro date earlier h
    rw [← Option.some.inj h]
  | succ days ih =>
    intro date earlier h
    obtain ⟨before, hprevious, hrest⟩ := Option.bind_eq_some_iff.mp h
    have hbefore := (Date.previous_lt_iff hprevious date).mpr le_rfl
    exact (ih hrest).trans hbefore.le

def ofParts (year month day : ℕ) : Option Date :=
  if h : IsDate year month day then some ⟨year, month, day, h⟩ else none

/-- A year of 53 weeks: one that begins on a Thursday, or on a Wednesday if it is a leap year. -/
def isLong (year : ℕ) : Bool :=
  match ofParts year 1 1 with
  | some first => weekday first = 3 || weekday first = 2 && isLeap year
  | none => false

/-- The day of a week of a year.  The fourth of January lies in the first week. -/
def ofWeek (year week day : ℕ) : Option Date :=
  if 1 ≤ week ∧ (week ≤ 52 ∨ week = 53 ∧ isLong year) ∧ 1 ≤ day ∧ day ≤ 7 then
    (ofParts year 1 4).bind (fun fourth =>
      let days := (week - 1) * 7 + (day - 1)
      if weekday fourth ≤ days then fourth.addDays (days - weekday fourth)
      else subDays (weekday fourth - days) fourth)
  else none

/-! ## Texts -/

/-- `date.isoformat` -/
def isoFormat (date : Date) : List Char :=
  zeroFilled 4 date.year ++ '-' :: (zeroFilled 2 date.month ++ '-' :: zeroFilled 2 date.day)

/-- A reading of three numbers, each of which has to be plain digits. -/
def readParts (read : ℕ → ℕ → ℕ → Option Date) (first second third : List Char) : Option Date :=
  (readDigits first).bind (fun a => (readDigits second).bind (fun b =>
    (readDigits third).bind (fun c => read a b c)))

/-- `date.fromisoformat` -/
def fromIsoFormat : List Char → Option Date
  | [a, b, c, d, '-', 'W', e, f, '-', g] => readParts ofWeek [a, b, c, d] [e, f] [g]
  | [a, b, c, d, '-', 'W', e, f] => readParts ofWeek [a, b, c, d] [e, f] ['1']
  | [a, b, c, d, 'W', e, f, g] => readParts ofWeek [a, b, c, d] [e, f] [g]
  | [a, b, c, d, 'W', e, f] => readParts ofWeek [a, b, c, d] [e, f] ['1']
  | [a, b, c, d, '-', e, f, '-', g, h] => readParts ofParts [a, b, c, d] [e, f] [g, h]
  | [a, b, c, d, e, f, g, h] => readParts ofParts [a, b, c, d] [e, f] [g, h]
  | _ => none

/-- `text.replace("-", "")` -/
def compact (text : List Char) : List Char := text.filter (fun c => c ≠ '-')

/-- The day of a text without dashes. -/
def readCompact : List Char → Option Date
  | [a, b, c, d, 'W', e, f, g] => readParts ofWeek [a, b, c, d] [e, f] [g]
  | [a, b, c, d, 'W', e, f] => readParts ofWeek [a, b, c, d] [e, f] ['1']
  | [a, b, c, d, e, f, g, h] => readParts ofParts [a, b, c, d] [e, f] [g, h]
  | _ => none

theorem isDigit_of_readDigits {text : List Char} {n : ℕ} (h : readDigits text = some n) :
    ∀ c ∈ text, c.isDigit := by
  unfold readDigits at h
  split at h
  · rename_i hdigits
    exact List.all_eq_true.mp hdigits.2
  · cases h

theorem isDigit_of_readParts {read : ℕ → ℕ → ℕ → Option Date} {first second third : List Char}
    {date : Date} (h : readParts read first second third = some date) :
    ∀ c ∈ first ++ second ++ third, c.isDigit := by
  unfold readParts at h
  obtain ⟨a, ha, h⟩ := Option.bind_eq_some_iff.mp h
  obtain ⟨b, hb, h⟩ := Option.bind_eq_some_iff.mp h
  obtain ⟨c, hc, h⟩ := Option.bind_eq_some_iff.mp h
  intro letter hletter
  rcases List.mem_append.mp hletter with hletter | hthird
  · rcases List.mem_append.mp hletter with hfirst | hsecond
    · exact isDigit_of_readDigits ha letter hfirst
    · exact isDigit_of_readDigits hb letter hsecond
  · exact isDigit_of_readDigits hc letter hthird

theorem letter_of_iso {text : List Char} {date : Date} (h : fromIsoFormat text = some date)
    {c : Char} (hc : c ∈ text) : c.isDigit ∨ c = '-' ∨ c = 'W' := by
  unfold fromIsoFormat at h
  split at h
  case h_7 => cases h
  all_goals
    have hdigits := isDigit_of_readParts h
    simp only [List.mem_cons, List.cons_append, List.nil_append, List.not_mem_nil, or_false] at hc hdigits
    grind

theorem compact_digits {t : List Char} (h : ∀ c ∈ t, c.isDigit) : compact t = t := by
  unfold compact
  rw [List.filter_eq_self]
  intro c hc
  have hdigit := h c hc
  rw [decide_eq_true_eq]
  rintro rfl
  exact absurd hdigit (by decide)

theorem compact_append (a b : List Char) : compact (a ++ b) = compact a ++ compact b :=
  List.filter_append ..

theorem compact_dash (text : List Char) : compact ('-' :: text) = compact text := rfl

theorem ne_week {c : Char} (h : c.isDigit) : c ≠ 'W' := by
  rintro rfl
  exact absurd h (by decide)

theorem readCompact_digits {a b c d e f g h : Char} (he : e.isDigit) :
    readCompact [a, b, c, d, e, f, g, h] = readParts ofParts [a, b, c, d] [e, f] [g, h] := by
  have hne := ne_week he
  simp [readCompact]

theorem readCompact_of_iso {text : List Char} {date : Date} (h : fromIsoFormat text = some date) :
    readCompact (compact text) = some date := by
  -- one case for each spelling
  unfold fromIsoFormat at h
  split at h
  case h_1 a b c d e f g =>
    have hdigits := isDigit_of_readParts h
    have hcompact : compact [a, b, c, d, '-', 'W', e, f, '-', g] = [a, b, c, d, 'W', e, f, g] := by
      show compact ([a, b, c, d] ++ '-' :: (['W'] ++ ([e, f] ++ '-' :: [g]))) = _
      rw [compact_append, compact_dash, compact_append, compact_append, compact_dash,
        compact_digits (t := [a, b, c, d]) (by simp_all),
        compact_digits (t := [e, f]) (by simp_all),
        compact_digits (t := [g]) (by simp_all)]
      rfl
    rw [hcompact]
    exact h
  case h_2 a b c d e f =>
    have hdigits := isDigit_of_readParts h
    have hcompact : compact [a, b, c, d, '-', 'W', e, f] = [a, b, c, d, 'W', e, f] := by
      show compact ([a, b, c, d] ++ '-' :: (['W'] ++ [e, f])) = _
      rw [compact_append, compact_dash, compact_append,
        compact_digits (t := [a, b, c, d]) (by simp_all),
        compact_digits (t := [e, f]) (by simp_all)]
      rfl
    rw [hcompact]
    exact h
  case h_3 a b c d e f g =>
    have hdigits := isDigit_of_readParts h
    have hcompact : compact [a, b, c, d, 'W', e, f, g] = [a, b, c, d, 'W', e, f, g] := by
      show compact ([a, b, c, d] ++ (['W'] ++ [e, f, g])) = _
      rw [compact_append, compact_append, compact_digits (t := [a, b, c, d]) (by simp_all),
        compact_digits (t := [e, f, g]) (by simp_all)]
      rfl
    rw [hcompact]
    exact h
  case h_4 a b c d e f =>
    have hdigits := isDigit_of_readParts h
    have hcompact : compact [a, b, c, d, 'W', e, f] = [a, b, c, d, 'W', e, f] := by
      show compact ([a, b, c, d] ++ (['W'] ++ [e, f])) = _
      rw [compact_append, compact_append, compact_digits (t := [a, b, c, d]) (by simp_all),
        compact_digits (t := [e, f]) (by simp_all)]
      rfl
    rw [hcompact]
    exact h
  case h_5 a b c d e f g i _ =>
    have hdigits := isDigit_of_readParts h
    have hcompact : compact [a, b, c, d, '-', e, f, '-', g, i] = [a, b, c, d, e, f, g, i] := by
      show compact ([a, b, c, d] ++ '-' :: ([e, f] ++ '-' :: [g, i])) = _
      rw [compact_append, compact_dash, compact_append, compact_dash,
        compact_digits (t := [a, b, c, d]) (by simp_all),
        compact_digits (t := [e, f]) (by simp_all),
        compact_digits (t := [g, i]) (by simp_all)]
      rfl
    rw [hcompact, readCompact_digits (hdigits e (by simp))]
    exact h
  case h_6 a b c d e f g i _ _ =>
    have hdigits := isDigit_of_readParts h
    have hcompact : compact [a, b, c, d, e, f, g, i] = [a, b, c, d, e, f, g, i] :=
      compact_digits (by simp_all)
    rw [hcompact, readCompact_digits (hdigits e (by simp))]
    exact h
  case h_7 => cases h

theorem eq_of_compact {a b : List Char} {dayA dayB : Date} (ha : fromIsoFormat a = some dayA)
    (hb : fromIsoFormat b = some dayB) (h : compact a = compact b) : dayA = dayB := by
  have hread := readCompact_of_iso ha
  rw [h, readCompact_of_iso hb] at hread
  exact (Option.some.inj hread).symm

end LocalPlatform.IsoDates
