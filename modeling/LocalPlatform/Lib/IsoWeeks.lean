import LocalPlatform.Lib.Dates
import Mathlib.Data.Prod.Lex

/-!
# Weeks of a year

* `isoWeek` is `date.isocalendar`, without the day: the first week of a year is the one that has its
  first Thursday.
* `isoWeek_spec` says between which Mondays a date lies.  `isoWeek_mono` and `week_of_isoWeek` follow
  from it: later dates have later weeks, and dates of one week lie within seven days.
-/

namespace LocalPlatform.IsoWeeks

open Dates Dates.Date

def firstDay (year : ℕ) : ℤ := daysBeforeYear year + 1

def weekOneMonday (year : ℕ) : ℤ :=
  let weekday := (firstDay year + 6) % 7
  firstDay year - weekday + if 3 < weekday then 7 else 0

/-- A year and a week, in the order of the tuples. -/
abbrev Week := ℕ ×ₗ ℕ

/-- `date.isocalendar` -/
def isoWeek (date : Date) : Week :=
  let today : ℤ := date.ordinal
  let week := (today - weekOneMonday date.year) / 7
  if week < 0 then
    toLex (date.year - 1, ((today - weekOneMonday (date.year - 1)) / 7).toNat + 1)
  else if 52 ≤ week ∧ weekOneMonday (date.year + 1) ≤ today then toLex (date.year + 1, 1)
  else toLex (date.year, week.toNat + 1)

theorem weekOneMonday_bounds (year : ℕ) :
    weekOneMonday year % 7 = 1 ∧ firstDay year ≤ weekOneMonday year + 3 ∧
      weekOneMonday year ≤ firstDay year + 3 := by
  unfold weekOneMonday
  dsimp only
  split_ifs <;> omega

theorem firstDay_succ {year : ℕ} (h : 1 ≤ year) :
    firstDay (year + 1) = firstDay year + yearLength year := by
  unfold firstDay
  rw [daysBeforeYear_succ h]
  omega

theorem yearLength_bounds (year : ℕ) : 365 ≤ yearLength year ∧ yearLength year ≤ 366 := by
  unfold yearLength
  split <;> omega

theorem weekOneMonday_succ {year : ℕ} (h : 1 ≤ year) :
    weekOneMonday year + 364 ≤ weekOneMonday (year + 1) := by
  have hsucc := firstDay_succ h
  have hlength := yearLength_bounds year
  have hbounds := weekOneMonday_bounds year
  have hnext := weekOneMonday_bounds (year + 1)
  omega

theorem weekOneMonday_mono {a b : ℕ} (ha : 1 ≤ a) (h : a ≤ b) :
    weekOneMonday a ≤ weekOneMonday b := by
  induction b, h using Nat.le_induction with
  | base => exact le_rfl
  | succ b hle ih =>
    have hstep := weekOneMonday_succ (ha.trans hle)
    omega

theorem isoWeek_spec (date : Date) :
    ∃ year week : ℕ, isoWeek date = toLex (year, week + 1) ∧ 1 ≤ year ∧
      weekOneMonday year + 7 * week ≤ date.ordinal ∧
      date.ordinal < weekOneMonday year + 7 * week + 7 ∧
      (date.ordinal : ℤ) < weekOneMonday (year + 1) := by
  have hyear := date.valid.years.1
  have hend := date.ordinal_le
  have hday := date.valid.days.1
  have hstart : firstDay date.year ≤ date.ordinal := by
    unfold firstDay ordinal
    omega
  have hnext := firstDay_succ hyear
  have hbounds := weekOneMonday_bounds date.year
  have hbounds' := weekOneMonday_bounds (date.year + 1)
  have hsucc := weekOneMonday_succ hyear
  have hlength := yearLength_bounds date.year
  have hlast : (date.ordinal : ℤ) < firstDay (date.year + 1) := by
    rw [hnext]
    unfold firstDay
    omega
  unfold isoWeek
  dsimp only
  split_ifs with hbefore hafter
  · -- the last days of the last week of the year before
    have hsecond : 2 ≤ date.year := by
      by_contra hone
      have heq : date.year = 1 := by omega
      have hfirst : weekOneMonday date.year = 1 := by
        rw [heq]
        decide
      have hpositive : 1 ≤ firstDay date.year := by
        rw [heq]
        decide
      omega
    have hprevious := firstDay_succ (show 1 ≤ date.year - 1 by omega)
    have hpreviousLength := yearLength_bounds (date.year - 1)
    have hpreviousBounds := weekOneMonday_bounds (date.year - 1)
    have hpred : date.year - 1 + 1 = date.year := by omega
    rw [hpred] at hprevious
    refine ⟨date.year - 1, ((date.ordinal - weekOneMonday (date.year - 1)) / 7).toNat, rfl,
      by omega, by omega, by omega, ?_⟩
    rw [hpred]
    omega
  · refine ⟨date.year + 1, 0, rfl, by omega, by omega, by omega, ?_⟩
    have hlater := weekOneMonday_succ (show 1 ≤ date.year + 1 by omega)
    omega
  · refine ⟨date.year, ((date.ordinal - weekOneMonday date.year) / 7).toNat, rfl, hyear, by omega,
      by omega, by omega⟩

theorem week_of_isoWeek {a b : Date} (h : isoWeek a = isoWeek b) : b.ordinal < a.ordinal + 7 := by
  obtain ⟨yearA, weekA, ha, _, hlowA, hhighA, _⟩ := isoWeek_spec a
  obtain ⟨yearB, weekB, hb, _, hlowB, hhighB, _⟩ := isoWeek_spec b
  rw [ha, hb] at h
  obtain ⟨hyear, hweek⟩ := Prod.mk.inj (toLex.injective h)
  rw [← hyear] at hlowB hhighB
  omega

theorem isoWeek_mono {a b : Date} (h : a ≤ b) : isoWeek a ≤ isoWeek b := by
  have hordinal : a.ordinal ≤ b.ordinal := by
    rcases h.eq_or_lt with heq | hlt
    · rw [heq]
    · exact (ordinal_lt hlt).le
  obtain ⟨yearA, weekA, ha, hposA, hlowA, hhighA, hnextA⟩ := isoWeek_spec a
  obtain ⟨yearB, weekB, hb, hposB, hlowB, hhighB, hnextB⟩ := isoWeek_spec b
  rw [ha, hb, Prod.Lex.le_iff]
  have hyears : yearA ≤ yearB := by
    by_contra hgt
    have hmono := weekOneMonday_mono (show 1 ≤ yearB + 1 by omega) (show yearB + 1 ≤ yearA by omega)
    omega
  rcases hyears.eq_or_lt with heq | hlt
  · right
    refine ⟨heq, ?_⟩
    rw [heq] at hlowA hhighA
    show weekA + 1 ≤ weekB + 1
    omega
  · left
    exact hlt

end LocalPlatform.IsoWeeks
