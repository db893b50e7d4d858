import Mathlib.Order.Lattice
import Mathlib.Data.List.Basic
import Mathlib.Algebra.GroupWithZero.Nat

/-!
# Calendar dates

* `Date` is a date of the Gregorian calendar from year 1 to year 9999, ordered by time.
* `Date.addMonths` moves a date by months, to the end of a month that is too short for its day.
* `Date.next` and `Date.previous` are the days beside a date, and `Date.ordinal` numbers the days.
* `ascending` sorts dates and drops what comes twice.
* `atOrAfter` is the first position at or after a date.
-/

namespace LocalPlatform.Dates

/-! ## Dates -/

def isLeap (year : ℕ) : Bool := year % 4 == 0 && (year % 100 != 0 || year % 400 == 0)

def monthLength (year month : ℕ) : ℕ :=
  if month = 2 then if isLeap year then 29 else 28
  else if month = 4 ∨ month = 6 ∨ month = 9 ∨ month = 11 then 30
  else 31

/-- A year, a month and a day that make a date. -/
structure IsDate (year month day : ℕ) : Prop where
  years : 1 ≤ year ∧ year ≤ 9999
  months : 1 ≤ month ∧ month ≤ 12
  days : 1 ≤ day ∧ day ≤ monthLength year month

instance (year month day : ℕ) : Decidable (IsDate year month day) :=
  decidable_of_iff
    ((1 ≤ year ∧ year ≤ 9999) ∧ (1 ≤ month ∧ month ≤ 12) ∧ 1 ≤ day ∧ day ≤ monthLength year month)
    ⟨fun h => ⟨h.1, h.2.1, h.2.2⟩, fun h => ⟨h.years, h.months, h.days⟩⟩

structure Date where
  year : ℕ
  month : ℕ
  day : ℕ
  valid : IsDate year month day

namespace Date

def months (date : Date) : ℕ := date.year * 12 + (date.month - 1)

def stamp (date : Date) : ℕ := date.months * 31 + (date.day - 1)

theorem monthLength_pos (year month : ℕ) : 28 ≤ monthLength year month := by
  unfold monthLength
  split_ifs <;> omega

theorem monthLength_le (year month : ℕ) : monthLength year month ≤ 31 := by
  unfold monthLength
  split_ifs <;> omega

theorem day_le (date : Date) : date.day ≤ 31 :=
  date.valid.days.2.trans (monthLength_le date.year date.month)

theorem stamp_injective : Function.Injective stamp := by
  intro a b h
  have hmonth := a.valid.months
  have hmonth' := b.valid.months
  have hday := a.valid.days.1
  have hday' := b.valid.days.1
  have hle := a.day_le
  have hle' := b.day_le
  unfold stamp months at h
  cases a
  cases b
  simp only at *
  congr 1 <;> omega

instance : LinearOrder Date := LinearOrder.lift' stamp stamp_injective

instance : DecidableEq Date := fun a b =>
  decidable_of_iff (a.stamp = b.stamp) stamp_injective.eq_iff

theorem le_iff {a b : Date} : a ≤ b ↔ a.stamp ≤ b.stamp := Iff.rfl

theorem lt_iff {a b : Date} : a < b ↔ a.stamp < b.stamp := Iff.rfl

theorem lt_of_months {a b : Date} (h : a.months < b.months) : a < b := by
  have hday := a.day_le
  have hday' := a.valid.days.1
  rw [lt_iff]
  unfold stamp
  omega

/-- The date that is some months later, if there is one. -/
def addMonths (date : Date) (count : ℤ) : Option Date :=
  let monthIndex : ℤ := date.month - 1 + count
  let year : ℤ := date.year + monthIndex / 12
  let month : ℤ := monthIndex % 12 + 1
  if h : 1 ≤ year ∧ year ≤ 9999 then
    some
      { year := year.toNat
        month := month.toNat
        day := min date.day (monthLength year.toNat month.toNat)
        valid :=
          { years := by omega
            months := by omega
            days := by
              have hday := date.valid.days.1
              have hlength := monthLength_pos year.toNat month.toNat
              omega } }
  else none

variable {date : Date}

theorem months_addMonths {later : Date} {count : ℤ} (h : date.addMonths count = some later) :
    (later.months : ℤ) = date.months + count := by
  have hmonth := date.valid.months
  unfold addMonths at h
  dsimp only at h
  split_ifs at h with hyear
  cases h
  unfold months
  dsimp only
  omega

theorem addMonths_eq_none_iff {count : ℕ} :
    date.addMonths count = none ↔ 120000 ≤ date.months + count := by
  have hyears := date.valid.years
  have hmonths := date.valid.months
  unfold addMonths months
  dsimp only
  split_ifs with hyear
  · simp
    omega
  · simp
    omega

theorem lt_addMonths {later : Date} {count : ℤ} (hcount : 0 < count)
    (h : date.addMonths count = some later) : date < later := by
  have hmonths := months_addMonths h
  exact lt_of_months (by omega)

theorem months_lt (date : Date) : date.months < 120000 := by
  have hyear := date.valid.years.2
  have hmonth := date.valid.months
  unfold months
  omega

/-- The day after, if there is one. -/
def next (date : Date) : Option Date :=
  if h : IsDate date.year date.month (date.day + 1) then some ⟨_, _, _, h⟩
  else if h : IsDate date.year (date.month + 1) 1 then some ⟨_, _, _, h⟩
  else if h : IsDate (date.year + 1) 1 1 then some ⟨_, _, _, h⟩
  else none

/-- The day before, if there is one. -/
def previous (date : Date) : Option Date :=
  if h : IsDate date.year date.month (date.day - 1) then some ⟨_, _, _, h⟩
  else if h : IsDate date.year (date.month - 1) (monthLength date.year (date.month - 1)) then
    some ⟨_, _, _, h⟩
  else if h : IsDate (date.year - 1) 12 31 then some ⟨_, _, _, h⟩
  else none

theorem le_monthEnd {year month : ℕ} (hyear : date.year = year) (hmonth : date.month = month) :
    date.day ≤ monthLength year month := by
  subst hyear
  subst hmonth
  exact date.valid.days.2

theorem day_of_not_next (h : ¬ IsDate date.year date.month (date.day + 1)) :
    date.day = monthLength date.year date.month := by
  have hday : date.day ≤ monthLength date.year date.month := le_monthEnd rfl rfl
  by_contra hne
  exact h ⟨date.valid.years, date.valid.months, by omega, by omega⟩

theorem day_of_not_previous (h : ¬ IsDate date.year date.month (date.day - 1)) : date.day = 1 := by
  have hdays := date.valid.days
  by_contra hne
  exact h ⟨date.valid.years, date.valid.months, by omega, by omega⟩

theorem month_of_not_next (h : ¬ IsDate date.year (date.month + 1) 1) : date.month = 12 := by
  have hmonths := date.valid.months
  have hlength := monthLength_pos date.year (date.month + 1)
  by_contra hne
  exact h ⟨date.valid.years, by omega, le_rfl, by omega⟩

theorem month_of_not_previous
    (h : ¬ IsDate date.year (date.month - 1) (monthLength date.year (date.month - 1))) :
    date.month = 1 := by
  have hmonths := date.valid.months
  have hlength := monthLength_pos date.year (date.month - 1)
  by_contra hne
  exact h ⟨date.valid.years, by omega, by omega, le_rfl⟩

theorem previous_lt_iff {before : Date} (h : date.previous = some before) (other : Date) :
    before < other ↔ date ≤ other := by
  have hyears := date.valid.years
  have hmonths := date.valid.months
  have hdays := date.valid.days
  have hother := other.valid.months
  have hotherDays := other.valid.days.1
  have hotherDay := other.day_le
  have hday := date.day_le
  rw [lt_iff, le_iff]
  unfold previous at h
  split_ifs at h with hsame hmonth hyear
  · cases h
    have hpositive := hsame.days.1
    unfold stamp months
    dsimp only
    omega
  · cases h
    have hpositive := hmonth.months.1
    have hlast := day_of_not_previous hsame
    have hend : other.year = date.year → other.month = date.month - 1 →
        other.day ≤ monthLength date.year (date.month - 1) := le_monthEnd
    have hlength := monthLength_pos date.year (date.month - 1)
    have hlength' := monthLength_le date.year (date.month - 1)
    unfold stamp months
    dsimp only
    omega
  · cases h
    have hpositive := hyear.years.1
    have hlast := day_of_not_previous hsame
    have hfirst := month_of_not_previous hmonth
    unfold stamp months
    dsimp only
    omega

theorem le_of_previous_none (h : date.previous = none) (other : Date) : date ≤ other := by
  have hyears := date.valid.years
  have hmonths := date.valid.months
  have hdays := date.valid.days
  have hother := other.valid.years
  have hotherMonths := other.valid.months
  rw [le_iff]
  unfold previous at h
  split_ifs at h with hsame hmonth hyear
  have hlast := day_of_not_previous hsame
  have hfirst := month_of_not_previous hmonth
  have hone : date.year = 1 := by
    by_contra hne
    exact hyear ⟨by omega, by omega, by decide, by simp [monthLength]⟩
  unfold stamp months
  omega

theorem lt_next_iff {after : Date} (h : date.next = some after) (other : Date) :
    date < other ↔ after ≤ other := by
  have hyears := date.valid.years
  have hmonths := date.valid.months
  have hdays := date.valid.days
  have hother := other.valid.months
  have hotherDays := other.valid.days.1
  have hotherDay := other.day_le
  have hday := date.day_le
  rw [lt_iff, le_iff]
  unfold next at h
  split_ifs at h with hsame hmonth hyear
  · cases h
    unfold stamp months
    dsimp only
    omega
  · cases h
    have hlast := day_of_not_next hsame
    have hend : other.year = date.year → other.month = date.month →
        other.day ≤ monthLength date.year date.month := le_monthEnd
    have hbound := hmonth.months.2
    have hlength := monthLength_le date.year date.month
    unfold stamp months
    dsimp only
    omega
  · cases h
    have hlast := day_of_not_next hsame
    have hend : other.year = date.year → other.month = date.month →
        other.day ≤ monthLength date.year date.month := le_monthEnd
    have hdecember := month_of_not_next hmonth
    have hlength := monthLength_le date.year date.month
    unfold stamp months
    dsimp only
    omega

theorem le_of_next_none (h : date.next = none) (other : Date) : other ≤ date := by
  have hyears := date.valid.years
  have hmonths := date.valid.months
  have hdays := date.valid.days
  have hother := other.valid.years
  have hotherMonths := other.valid.months
  rw [le_iff]
  unfold next at h
  split_ifs at h with hsame hmonth hyear
  have hlast := day_of_not_next hsame
  have hend : other.year = date.year → other.month = date.month →
      other.day ≤ monthLength date.year date.month := le_monthEnd
  have hdecember := month_of_not_next hmonth
  have hfinal : date.year = 9999 := by
    by_contra hne
    exact hyear ⟨by omega, by decide, le_rfl, by simp [monthLength]⟩
  have hlength := monthLength_le date.year date.month
  have hotherDay := other.day_le
  have hotherLength : other.month = 12 → other.day ≤ 31 := fun _ => hotherDay
  have hthirtyOne : date.month = 12 → monthLength date.year date.month = 31 := by
    intro hmonth
    rw [hmonth]
    simp [monthLength]
  unfold stamp months
  omega

theorem next_of_previous {before : Date} (h : date.previous = some before) :
    before.next = some date := by
  have hlt : before < date := (previous_lt_iff h date).mpr le_rfl
  have hbetween : ∀ other : Date, before < other → date ≤ other :=
    fun other => (previous_lt_iff h other).mp
  cases hnext : before.next with
  | none =>
    have hle := le_of_next_none hnext date
    exact absurd hlt (not_lt.mpr hle)
  | some after =>
    have hafter := lt_next_iff hnext
    have hle : date ≤ after := hbetween after ((hafter after).mpr le_rfl)
    rw [le_antisymm ((hafter date).mp hlt) hle]

/-! ### The number of a date -/

/-- The days of the months before a month of a year. -/
def daysBeforeMonth (year month : ℕ) : ℕ :=
  ((List.range (month - 1)).map (fun earlier => monthLength year (earlier + 1))).sum

def daysBeforeYear (year : ℕ) : ℕ :=
  (year - 1) * 365 + (year - 1) / 4 - (year - 1) / 100 + (year - 1) / 400

/-- `toordinal` -/
def ordinal (date : Date) : ℕ :=
  daysBeforeYear date.year + daysBeforeMonth date.year date.month + date.day

def yearLength (year : ℕ) : ℕ := if isLeap year then 366 else 365

theorem daysBeforeMonth_succ {year month : ℕ} (h : 1 ≤ month) :
    daysBeforeMonth year (month + 1) = daysBeforeMonth year month + monthLength year month := by
  obtain ⟨earlier, rfl⟩ : ∃ earlier, month = earlier + 1 := ⟨month - 1, by omega⟩
  unfold daysBeforeMonth
  rw [Nat.add_sub_cancel, Nat.add_sub_cancel, List.range_succ, List.map_append, List.sum_append]
  simp

/-- What is added up from one on. -/
theorem add_le_of_lt {total part : ℕ → ℕ} (hsucc : ∀ {n}, 1 ≤ n → total (n + 1) = total n + part n)
    {a b : ℕ} (ha : 1 ≤ a) (hlt : a < b) : total a + part a ≤ total b := by
  induction b with
  | zero => omega
  | succ b ih =>
    rw [hsucc (by omega)]
    by_cases heq : a = b
    · rw [heq]
    · have hbefore := ih (by omega)
      omega

theorem daysBeforeMonth_end (year : ℕ) : daysBeforeMonth year 13 = yearLength year := by
  cases hleap : isLeap year <;> simp [daysBeforeMonth, yearLength, monthLength, hleap, List.range_succ]

theorem succ_div (n d : ℕ) : (n + 1) / d = n / d + if (n + 1) % d = 0 then 1 else 0 := by
  rw [Nat.succ_div]
  simp only [Nat.dvd_iff_mod_eq_zero]

theorem daysBeforeYear_succ {year : ℕ} (h : 1 ≤ year) :
    daysBeforeYear (year + 1) = daysBeforeYear year + yearLength year := by
  obtain ⟨n, rfl⟩ : ∃ n, year = n + 1 := ⟨year - 1, by omega⟩
  have hfour := succ_div n 4
  have hhundred := succ_div n 100
  have hfourHundred := succ_div n 400
  have hle : n / 100 ≤ n / 4 := Nat.div_le_div_left (by decide) (by decide)
  have hcentury : (n + 1) % 100 = 0 → (n + 1) % 4 = 0 := by omega
  have hcycle : (n + 1) % 400 = 0 → (n + 1) % 100 = 0 := by omega
  unfold daysBeforeYear yearLength isLeap
  simp only [Nat.add_sub_cancel, Bool.and_eq_true, Bool.or_eq_true, beq_iff_eq, bne_iff_ne]
  rw [hfour, hhundred, hfourHundred]
  generalize n / 4 = fours at *
  generalize n / 100 = hundreds at *
  generalize n / 400 = fourHundreds at *
  by_cases hmod : (n + 1) % 4 = 0
  · by_cases hmodHundred : (n + 1) % 100 = 0
    · by_cases hmodFour : (n + 1) % 400 = 0
      · simp [hmod, hmodHundred, hmodFour]
        omega
      · simp [hmod, hmodHundred, hmodFour]
        omega
    · have hmodFour : ¬ (n + 1) % 400 = 0 := fun hzero => hmodHundred (hcycle hzero)
      simp [hmod, hmodHundred, hmodFour]
      omega
  · have hmodHundred : ¬ (n + 1) % 100 = 0 := fun hzero => hmod (hcentury hzero)
    have hmodFour : ¬ (n + 1) % 400 = 0 := fun hzero => hmodHundred (hcycle hzero)
    simp [hmod, hmodHundred, hmodFour]
    omega

theorem ordinal_le (date : Date) :
    date.ordinal ≤ daysBeforeYear date.year + yearLength date.year := by
  have hmonths := date.valid.months
  have hday := date.valid.days.2
  have hmonth := add_le_of_lt (@daysBeforeMonth_succ date.year) hmonths.1 (Nat.lt_succ_of_le hmonths.2)
  rw [daysBeforeMonth_end] at hmonth
  unfold ordinal
  omega

theorem ordinal_lt {a b : Date} (h : a < b) : a.ordinal < b.ordinal := by
  have hyears := a.valid.years.1
  have hmonths := a.valid.months
  have hmonths' := b.valid.months
  have hday := a.valid.days
  have hday' := b.valid.days.1
  have hdayLe := a.day_le
  have hdayLe' := b.day_le
  rw [lt_iff] at h
  unfold stamp months at h
  by_cases hyear : a.year = b.year
  · by_cases hmonth : a.month = b.month
    · unfold ordinal
      rw [hyear, hmonth]
      rw [hyear, hmonth] at h
      omega
    · have hlt : a.month < b.month := by
        rw [hyear] at h
        omega
      have hbefore := add_le_of_lt (@daysBeforeMonth_succ a.year) hmonths.1 hlt
      unfold ordinal
      rw [← hyear]
      omega
  · have hlt : a.year < b.year := by omega
    have hbefore := add_le_of_lt daysBeforeYear_succ hyears hlt
    have hend := a.ordinal_le
    unfold ordinal at hend ⊢
    omega

theorem le_iff_ordinal {a b : Date} : a ≤ b ↔ a.ordinal ≤ b.ordinal := by
  constructor
  · intro h
    rcases h.eq_or_lt with heq | hlt
    · rw [heq]
    · exact (ordinal_lt hlt).le
  · intro h
    by_contra hgt
    have hlt := ordinal_lt (not_le.mp hgt)
    omega

/-- The date that is some days later, if there is one. -/
def addDays : ℕ → Date → Option Date
  | 0, date => some date
  | days + 1, date => date.next.bind (addDays days)

theorem ordinal_addDays {days : ℕ} : ∀ {date later : Date}, date.addDays days = some later →
    date.ordinal + days ≤ later.ordinal := by
  induction days with
  | zero =>
    intro date later h
    rw [← Option.some.inj h]
    exact le_rfl
  | succ days ih =>
    intro date later h
    obtain ⟨after, hnext, hrest⟩ := Option.bind_eq_some_iff.mp h
    have hafter := ordinal_lt ((lt_next_iff hnext after).mpr le_rfl)
    have hlater := ih hrest
    omega

end Date

/-! ## Ascending dates -/

section Order

variable {α : Type} [LinearOrder α]

/-- Put a value in its place, unless it is there. -/
def place (value : α) : List α → List α
  | [] => [value]
  | other :: rest =>
    if value < other then value :: other :: rest
    else if value = other then other :: rest
    else other :: place value rest

/-- `sorted(set(values))` -/
def ascending (values : List α) : List α := values.foldr place []

variable {values : List α}

theorem mem_place {value other : α} :
    other ∈ place value values ↔ other = value ∨ other ∈ values := by
  induction values with
  | nil => simp [place]
  | cons first rest ih =>
    unfold place
    split_ifs with hlt heq
    · simp
    · simp [heq]
    · rw [List.mem_cons, ih, List.mem_cons]
      tauto

theorem mem_ascending {value : α} : value ∈ ascending values ↔ value ∈ values := by
  induction values with
  | nil => simp [ascending]
  | cons first rest ih =>
    show value ∈ place first (ascending rest) ↔ _
    rw [mem_place, ih, List.mem_cons]

theorem sorted_place {value : α} (h : values.Pairwise (· < ·)) :
    (place value values).Pairwise (· < ·) := by
  induction values with
  | nil => simp [place]
  | cons first rest ih =>
    have hparts := List.pairwise_cons.mp h
    unfold place
    split_ifs with hlt heq
    · rw [List.pairwise_cons]
      refine ⟨?_, h⟩
      intro other hother
      cases List.mem_cons.mp hother with
      | inl hfirst => rwa [hfirst]
      | inr hrest => exact hlt.trans (hparts.1 other hrest)
    · exact h
    · rw [List.pairwise_cons]
      refine ⟨?_, ih hparts.2⟩
      intro other hother
      cases mem_place.mp hother with
      | inl hvalue =>
        rw [hvalue]
        exact lt_of_le_of_ne (not_lt.mp hlt) (Ne.symm heq)
      | inr hrest => exact hparts.1 other hrest

theorem sorted_ascending (values : List α) : (ascending values).Pairwise (· < ·) := by
  induction values with
  | nil => exact List.Pairwise.nil
  | cons first rest ih => exact sorted_place ih

theorem ascending_of_sorted (h : values.Pairwise (· < ·)) : ascending values = values := by
  induction values with
  | nil => rfl
  | cons first rest ih =>
    have hparts := List.pairwise_cons.mp h
    show place first (ascending rest) = _
    rw [ih hparts.2]
    cases rest with
    | nil => rfl
    | cons second rest =>
      unfold place
      rw [if_pos (hparts.1 second List.mem_cons_self)]

theorem eq_of_sorted {a b : List α} (ha : a.Pairwise (· < ·)) (hb : b.Pairwise (· < ·))
    (hmem : ∀ value, value ∈ a ↔ value ∈ b) : a = b := by
  have hperm : a.Perm b := (List.perm_ext_iff_of_nodup (ha.imp ne_of_lt) (hb.imp ne_of_lt)).mpr hmem
  apply hperm.eq_of_pairwise _ ha hb
  intro value other _ _ hlt hgt
  exact absurd hlt hgt.asymm

theorem split_sorted {ρ : Type} {key : ρ → α} {rows : List ρ}
    (h : rows.Pairwise (fun a b => key a < key b)) (value : α) :
    rows = rows.filter (fun row => key row ≤ value) ++ rows.filter (fun row => value < key row) := by
  induction rows with
  | nil => rfl
  | cons row rows ih =>
    have hparts := List.pairwise_cons.mp h
    have hrest := ih hparts.2
    by_cases hle : key row ≤ value
    · have hnot : ¬ value < key row := hle.not_gt
      simp only [List.filter_cons, hle, hnot, decide_true, decide_false, if_true,
        Bool.false_eq_true, if_false, List.cons_append]
      rw [← hrest]
    · have hlt := not_le.mp hle
      have hnone : rows.filter (fun row => key row ≤ value) = [] := by
        rw [List.filter_eq_nil_iff]
        intro other hother
        have hlater := hlt.trans (hparts.1 other hother)
        simpa using hlater
      have hall : rows.filter (fun row => value < key row) = rows := by
        rw [hnone, List.nil_append] at hrest
        exact hrest.symm
      simp only [List.filter_cons, hle, hlt, decide_true, decide_false, if_true,
        Bool.false_eq_true, if_false, hnone, hall, List.nil_append]

theorem lt_iff_position (hsorted : values.Pairwise (· < ·)) {i j : ℕ} {a b : α}
    (ha : values[i]? = some a) (hb : values[j]? = some b) : a < b ↔ i < j := by
  obtain ⟨hi, rfl⟩ := List.getElem?_eq_some_iff.mp ha
  obtain ⟨hj, rfl⟩ := List.getElem?_eq_some_iff.mp hb
  have hpairs := List.pairwise_iff_getElem.mp hsorted
  constructor
  · intro hlt
    by_contra hge
    cases Nat.lt_or_eq_of_le (Nat.le_of_not_lt hge) with
    | inl hji => exact absurd hlt (hpairs j i hj hi hji).asymm
    | inr heq =>
      subst heq
      exact lt_irrefl _ hlt
  · exact hpairs i j hi hj

theorem le_iff_position (hsorted : values.Pairwise (· < ·)) {i j : ℕ} {a b : α}
    (ha : values[i]? = some a) (hb : values[j]? = some b) : a ≤ b ↔ i ≤ j := by
  rw [← not_lt, lt_iff_position hsorted hb ha, not_lt]

/-- The first position whose value is not before a target. -/
def atOrAfter (values : List α) (target : α) : Option ℕ :=
  values.findIdx? (fun value => target ≤ value)

theorem atOrAfter_spec (hsorted : values.Pairwise (· < ·)) {target : α} {n : ℕ}
    (h : atOrAfter values target = some n) :
    n < values.length ∧ ∀ i value, values[i]? = some value → (i < n ↔ value < target) := by
  obtain ⟨hn, hfound, hbefore⟩ := List.findIdx?_eq_some_iff_getElem.mp h
  refine ⟨hn, ?_⟩
  intro i value hvalue
  constructor
  · intro hlt
    have hnot := hbefore i hlt
    rw [← (List.getElem?_eq_some_iff.mp hvalue).2]
    simpa using hnot
  · intro hlt
    have hle : target ≤ values[n] := by simpa using hfound
    exact (lt_iff_position hsorted hvalue (List.getElem?_eq_getElem hn)).mp (hlt.trans_le hle)

theorem atOrAfter_mono (hsorted : values.Pairwise (· < ·)) {a b : α} {m n : ℕ} (hab : a ≤ b)
    (ha : atOrAfter values a = some m) (hb : atOrAfter values b = some n) : m ≤ n := by
  by_contra hlt
  have hspec := atOrAfter_spec hsorted ha
  have hspec' := atOrAfter_spec hsorted hb
  have hvalue := List.getElem?_eq_getElem hspec'.1
  have hbefore := (hspec.2 n _ hvalue).mp (by omega)
  have hnot := (hspec'.2 n _ hvalue).not.mp (by omega)
  exact hnot (hbefore.trans_le hab)

end Order

end LocalPlatform.Dates
