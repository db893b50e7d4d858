import LocalPlatform.Lib.DateTexts
import LocalPlatform.Lib.Results

/-!
# The folds of a walk-forward experiment

`_walk_forward_windows` cuts the dates of an experiment into folds of a train, a validation and an
OOS window, and `evaluate_experiment_leakage` checks the windows of one fold.

* A date is moved by years and by months, which clamps its day in two ways (`addYears`, `addMonths`);
  both are `Date.addMonths` where the year stays a year of the calendar.
* `foldLoop` is the loop over the folds, and `Schedule` says which dates the fold at each position
  has.
* `Outcome` is what the function promises.  It raises where no fold fits, and where a date that it
  computes lies after the year 9999 (`PastCalendar`), which is not a date.
-/

namespace LocalPlatform.Experiments.Folds

open Dates DateTexts Results

/-! ## Dates -/

/-- `date(year, month, day)` -/
def replaceDate (year month day : ℕ) : Except String Date :=
  if h : IsDate year month day then .ok ⟨year, month, day, h⟩
  else .error (if 1 ≤ year ∧ year ≤ 9999 then "day is out of range for month"
    else "year " ++ toString year ++ " is out of range")

/-- `add_years` -/
def addYears (value : Date) (years : ℕ) : Except String Date :=
  match replaceDate (value.year + years) value.month value.day with
  | .ok date => .ok date
  | .error _ => replaceDate (value.year + years) 2 28

/-- The loop of `add_months` over the days. -/
def clampDay (year month : ℕ) : ℕ → Except String Date
  | 0 => replaceDate year month 0
  | day + 1 =>
    if 28 < day + 1 then
      match replaceDate year month (day + 1) with
      | .ok date => .ok date
      | .error _ => clampDay year month day
    else replaceDate year month (day + 1)

/-- `add_months` -/
def addMonths (value : Date) (months : ℕ) : Except String Date :=
  let monthIndex := value.month - 1 + months
  clampDay (value.year + monthIndex / 12) (monthIndex % 12 + 1) value.day

/-- `value - timedelta(days=1)` -/
def dayBefore (value : Date) : Except String Date :=
  match value.previous with
  | some date => .ok date
  | none => .error "date value out of range"

/-- `value.isoformat()` -/
def isoformat (value : Date) : String :=
  String.ofList (zeroFilled 4 value.year ++ '-' :: zeroFilled 2 value.month ++
    '-' :: zeroFilled 2 value.day)

/-! ## Windows -/

inductive Phase where
  | train
  | validation
  | oos
  deriving DecidableEq

def Phase.text : Phase → String
  | .train => "train"
  | .validation => "validation"
  | .oos => "oos"

def Phase.role : Phase → String
  | .train => "candidate_generation"
  | .validation => "parameter_selection"
  | .oos => "unbiased_evaluation"

structure Window where
  fold : ℕ
  phase : Phase
  start : Date
  stop : Date
  foldFingerprint : String
  phaseFingerprint : String

/-- The fields of a config that the windows are computed from. -/
structure WalkForwardConfig where
  start : Date
  stop : Date
  trainYears : Option ℤ
  testYears : Option ℤ
  stepYears : Option ℤ
  validationMonths : Option ℤ

/-- `int(value or default)` -/
def orDefault (value : Option ℤ) (default : ℤ) : ℤ :=
  match value with
  | none => default
  | some number => if number = 0 then default else number

namespace WalkForwardConfig

variable (config : WalkForwardConfig)

def train : ℕ := (max 1 (orDefault config.trainYears 3)).toNat
def test : ℕ := (max 1 (orDefault config.testYears 1)).toNat
def step : ℕ := (max 1 (orDefault config.stepYears 1)).toNat

/-- `evaluation_months` -/
def evaluation : ℕ := config.test * 12

/-- `validation_months` -/
def validation : ℤ := orDefault config.validationMonths (max 1 (config.evaluation / 2 : ℕ))

/-- The validation leaves a part of the evaluation to the OOS window. -/
def Admissible : Prop := 0 < config.validation ∧ config.validation < config.evaluation

instance : Decidable config.Admissible := inferInstanceAs (Decidable (_ ∧ _))

end WalkForwardConfig

/-- The dates of the three windows of a fold. -/
structure Bounds where
  trainStart : Date
  trainStop : Date
  validationStart : Date
  validationStop : Date
  oosStart : Date
  oosStop : Date
  deriving DecidableEq

/-- The items of `json.dumps` for a window of the lineage. -/
def windowJson (phase : Phase) (start stop : Date) : String :=
  "\x7b\"end\":\"" ++ isoformat stop ++ "\",\"phase\":\"" ++ phase.text ++ "\",\"role\":\"" ++
    phase.role ++ "\",\"start\":\"" ++ isoformat start ++ "\"\x7d"

/-- `json.dumps(lineage)` -/
def lineageJson (fold : ℕ) (bounds : Bounds) : String :=
  "\x7b\"fold\":" ++ toString fold ++ ",\"schemaVersion\":1,\"windows\":[" ++
    windowJson .train bounds.trainStart bounds.trainStop ++ "," ++
    windowJson .validation bounds.validationStart bounds.validationStop ++ "," ++
    windowJson .oos bounds.oosStart bounds.oosStop ++ "]\x7d"

/-- The text of which `phaseFingerprint` is the digest. -/
def phaseJson (foldFingerprint : String) (phase : Phase) (start stop : Date) : String :=
  "\x7b\"end\":\"" ++ isoformat stop ++ "\",\"foldFingerprint\":\"" ++ foldFingerprint ++
    "\",\"phase\":\"" ++ phase.text ++ "\",\"role\":\"" ++ phase.role ++
    "\",\"schemaVersion\":1,\"start\":\"" ++ isoformat start ++ "\"\x7d"

section Loop

variable (sha256 : String → String) (config : WalkForwardConfig)

def fingerprinted (fold : ℕ) (bounds : Bounds) (phase : Phase) (start stop : Date) : Window :=
  let foldFingerprint := sha256 (lineageJson fold bounds)
  { fold, phase, start, stop, foldFingerprint
    phaseFingerprint := sha256 (phaseJson foldFingerprint phase start stop) }

def windowsOf (fold : ℕ) (bounds : Bounds) : List Window :=
  [fingerprinted sha256 fold bounds .train bounds.trainStart bounds.trainStop,
    fingerprinted sha256 fold bounds .validation bounds.validationStart bounds.validationStop,
    fingerprinted sha256 fold bounds .oos bounds.oosStart bounds.oosStop]

/-- The dates of a fold, if its OOS window starts by the end of the experiment. -/
def foldBounds (foldStart : Date) : Except String (Option Bounds) := do
  let validationStart ← addYears foldStart config.train
  let validationEndExclusive ← addMonths validationStart config.validation.toNat
  let oosEndExclusive ← addYears validationStart config.test
  if config.stop < validationEndExclusive then return none
  let oosStop := min config.stop (← dayBefore oosEndExclusive)
  return some
    { trainStart := foldStart
      trainStop := ← dayBefore validationStart
      validationStart := validationStart
      validationStop := ← dayBefore validationEndExclusive
      oosStart := validationEndExclusive
      oosStop := oosStop }

/-- The loop of `_walk_forward_windows`: the dates of the folds from one on. -/
def foldLoop : ℕ → Date → Option (Except String (List Bounds))
  | 0, _ => none
  | fuel + 1, foldStart =>
    match foldBounds config foldStart with
    | .error message => some (.error message)
    | .ok none => some (.ok [])
    | .ok (some bounds) =>
      match addYears foldStart config.step with
      | .error message => some (.error message)
      | .ok next =>
        if config.stop ≤ bounds.oosStop then some (.ok [bounds])
        else (foldLoop fuel next).map (fun rest => rest.map (bounds :: ·))

def maxTurns : ℕ := 10000

/-- `_walk_forward_windows` -/
def walkForwardWindows : Option (Except String (List Window)) :=
  if config.Admissible then
    (foldLoop config maxTurns config.start).map (fun folds => do
      let folds ← folds
      if folds = [] then
        throw "Walk-forward requires enough history for at least one train/validation/OOS fold."
      return (folds.zipIdx 1).flatMap (fun fold => windowsOf sha256 fold.2 fold.1))
  else some (.error "Walk-forward validationMonths must leave a non-empty OOS window.")

end Loop

/-! ## What the folds are -/

namespace WalkForwardConfig

variable (config : WalkForwardConfig)

def foldStart : ℕ → Option Date
  | 0 => some config.start
  | k + 1 => (foldStart k).bind (fun date => date.addMonths (12 * config.step : ℕ))

def validationStart (k : ℕ) : Option Date :=
  (config.foldStart k).bind (fun date => date.addMonths (12 * config.train : ℕ))

def oosStart (k : ℕ) : Option Date :=
  (config.validationStart k).bind (fun date => date.addMonths config.validation.toNat)

/-- The first date after the OOS window of the fold at a position. -/
def oosEnd (k : ℕ) : Option Date :=
  (config.validationStart k).bind (fun date => date.addMonths (12 * config.test : ℕ))

/-- The OOS window of a fold starts by the end of the experiment. -/
def Fits (k : ℕ) : Prop := ∃ date, config.oosStart k = some date ∧ date ≤ config.stop

/-- The OOS windows of the folds before a position leave a part of the experiment. -/
def Reached (k : ℕ) : Prop := ∀ j < k, ∃ date, config.oosEnd j = some date ∧ date ≤ config.stop

/-- A fold that the loop comes to has a date after the year 9999. -/
def PastCalendar : Prop :=
  ∃ k, config.Reached k ∧
    (config.oosEnd k = none ∨ config.Fits k ∧ config.foldStart (k + 1) = none)

end WalkForwardConfig

/-- The windows of a fold are not empty, follow one another and end with the experiment. -/
structure FoldSound (config : WalkForwardConfig) (bounds : Bounds) : Prop where
  train : bounds.trainStart ≤ bounds.trainStop
  validation : bounds.validationStart ≤ bounds.validationStop
  oos : bounds.oosStart ≤ bounds.oosStop
  train_next : bounds.trainStop.next = some bounds.validationStart
  validation_next : bounds.validationStop.next = some bounds.oosStart
  oos_le : bounds.oosStop ≤ config.stop

/-- The folds are those of the schedule, and none that fits is left out unless an OOS window has
come to the end. -/
structure FoldsSound (config : WalkForwardConfig) (folds : List Bounds) : Prop where
  nonempty : folds ≠ []
  sound : ∀ bounds ∈ folds, FoldSound config bounds
  scheduled : ∀ k bounds, folds[k]? = some bounds →
    config.foldStart k = some bounds.trainStart ∧ config.oosStart k = some bounds.oosStart
  later : folds.Pairwise (fun a b => a.oosStart < b.oosStart)
  complete : ∀ k, folds.length ≤ k → config.Fits k →
    ∃ last, folds.getLast? = some last ∧ last.oosStop = config.stop

/-! ## Moving a date -/

theorem replaceDate_eq {year month day : ℕ} (h : IsDate year month day) :
    replaceDate year month day = .ok ⟨year, month, day, h⟩ := dif_pos h

theorem replaceDate_error {year month day : ℕ} (h : ¬ IsDate year month day) :
    ∃ message, replaceDate year month day = .error message := ⟨_, dif_neg h⟩

theorem replaceDate_ok {year month day : ℕ} {date : Date} :
    replaceDate year month day = .ok date ↔
      date.year = year ∧ date.month = month ∧ date.day = day := by
  constructor
  · intro hok
    unfold replaceDate at hok
    split_ifs at hok
    cases hok
    exact ⟨rfl, rfl, rfl⟩
  · intro hsame
    obtain ⟨rfl, rfl, rfl⟩ := hsame
    exact replaceDate_eq date.valid

theorem addMonths_eq_some_iff {date later : Date} {count : ℕ} :
    date.addMonths count = some later ↔
      later.year = date.year + (date.month - 1 + count) / 12 ∧
        later.month = (date.month - 1 + count) % 12 + 1 ∧
          later.day = min date.day (monthLength later.year later.month) := by
  have hyears := date.valid.years
  have hmonths := date.valid.months
  have hyear : ((date.year : ℤ) + ((date.month : ℤ) - 1 + count) / 12).toNat =
      date.year + (date.month - 1 + count) / 12 := by omega
  have hmonth : (((date.month : ℤ) - 1 + count) % 12 + 1).toNat =
      (date.month - 1 + count) % 12 + 1 := by omega
  unfold Date.addMonths
  dsimp only
  split_ifs with hrange
  · constructor
    · intro hsome
      cases hsome
      exact ⟨hyear, hmonth, rfl⟩
    · intro hparts
      obtain ⟨hyear', hmonth', hday'⟩ := hparts
      rw [← hyear] at hyear'
      rw [← hmonth] at hmonth'
      rw [hyear', hmonth'] at hday'
      cases later
      simp only at hyear' hmonth' hday'
      subst hyear' hmonth' hday'
      rfl
  · constructor
    · intro hsome
      cases hsome
    · intro hparts
      have hlater := later.valid.years
      omega

theorem addYears_ok {value later : Date} {years : ℕ} :
    addYears value years = .ok later ↔ value.addMonths (12 * years : ℕ) = some later := by
  have hmonths := value.valid.months
  have hdays := value.valid.days
  have hyear : (value.month - 1 + 12 * years) / 12 = years := by omega
  have hmonth : (value.month - 1 + 12 * years) % 12 + 1 = value.month := by omega
  rw [addMonths_eq_some_iff, hyear, hmonth]
  by_cases hdate : IsDate (value.year + years) value.month value.day
  · have hday := min_eq_left hdate.days.2
    unfold addYears
    rw [replaceDate_eq hdate]
    dsimp only
    rw [← replaceDate_eq hdate, replaceDate_ok]
    constructor
    · intro hsame
      refine ⟨hsame.1, hsame.2.1, ?_⟩
      rw [hsame.1, hsame.2.1, hsame.2.2, hday]
    · intro hsame
      refine ⟨hsame.1, hsame.2.1, ?_⟩
      rw [hsame.2.2, hsame.1, hsame.2.1, hday]
  · -- The day that is lost is the last one of a leap year's February.
    have hleap : 1 ≤ value.year + years ∧ value.year + years ≤ 9999 →
        value.month = 2 ∧ value.day = 29 ∧ monthLength (value.year + years) value.month = 28 := by
      intro hyears
      have hlong : monthLength (value.year + years) value.month < value.day := by
        by_contra hle
        exact hdate ⟨hyears, hmonths, hdays.1, not_lt.mp hle⟩
      have hold := hdays.2
      unfold monthLength at hold hlong ⊢
      split_ifs at hold hlong ⊢ <;> omega
    obtain ⟨message, hnone⟩ := replaceDate_error hdate
    unfold addYears
    rw [hnone]
    dsimp only
    rw [replaceDate_ok]
    constructor
    · intro hsame
      have hparts := hleap (hsame.1 ▸ later.valid.years)
      refine ⟨hsame.1, by rw [hsame.2.1, hparts.1], ?_⟩
      rw [hsame.1, hsame.2.1, ← hparts.1, hparts.2.2, hsame.2.2, hparts.2.1]
      rfl
    · intro hsame
      have hparts := hleap (hsame.1 ▸ later.valid.years)
      refine ⟨hsame.1, by rw [hsame.2.1, hparts.1], ?_⟩
      rw [hsame.2.2, hsame.1, hsame.2.1, hparts.2.2, hparts.2.1]
      rfl

theorem clampDay_ok {year month day : ℕ} {later : Date} (hday : 1 ≤ day) :
    clampDay year month day = .ok later ↔
      later.year = year ∧ later.month = month ∧ later.day = min day (monthLength year month) := by
  have hlength := Date.monthLength_pos year month
  induction day with
  | zero => omega
  | succ day ih =>
    unfold clampDay
    split_ifs with hlong
    · by_cases hdate : IsDate year month (day + 1)
      · rw [replaceDate_eq hdate]
        dsimp only
        rw [← replaceDate_eq hdate, replaceDate_ok, min_eq_left hdate.days.2]
      · obtain ⟨message, hnone⟩ := replaceDate_error hdate
        rw [hnone]
        dsimp only
        refine (ih (by omega)).trans ?_
        have hshort : later.year = year → later.month = month → monthLength year month ≤ day := by
          intro hyear hmonth
          by_contra hle
          exact hdate ⟨hyear ▸ later.valid.years, hmonth ▸ later.valid.months, by omega, by omega⟩
        constructor
        · intro hsame
          have hle := hshort hsame.1 hsame.2.1
          exact ⟨hsame.1, hsame.2.1, by omega⟩
        · intro hsame
          have hle := hshort hsame.1 hsame.2.1
          exact ⟨hsame.1, hsame.2.1, by omega⟩
    · rw [replaceDate_ok, min_eq_left (by omega)]

theorem addMonths_ok {value later : Date} {months : ℕ} :
    addMonths value months = .ok later ↔ value.addMonths months = some later := by
  rw [addMonths_eq_some_iff]
  unfold addMonths
  dsimp only
  rw [clampDay_ok value.valid.days.1]
  constructor
  · intro hsame
    refine ⟨hsame.1, hsame.2.1, ?_⟩
    rw [hsame.2.2, hsame.1, hsame.2.1]
  · intro hsame
    refine ⟨hsame.1, hsame.2.1, ?_⟩
    rw [hsame.2.2, hsame.1, hsame.2.1]

theorem exists_error {ε α : Type} {result : Except ε α} (h : ∀ value, result ≠ .ok value) :
    ∃ error, result = .error error := by
  cases result with
  | error error => exact ⟨error, rfl⟩
  | ok value => exact absurd rfl (h value)

theorem addYears_error {value : Date} {years : ℕ} (h : value.addMonths (12 * years : ℕ) = none) :
    ∃ message, addYears value years = .error message := by
  apply exists_error
  intro later hok
  rw [addYears_ok, h] at hok
  cases hok

theorem dayBefore_of_lt {date other : Date} (h : other < date) :
    ∃ before, dayBefore date = .ok before ∧ date.previous = some before ∧ other ≤ before := by
  unfold dayBefore
  cases hprevious : date.previous with
  | none => exact absurd h (not_lt.mpr (Date.le_of_previous_none hprevious other))
  | some before =>
    refine ⟨before, rfl, rfl, ?_⟩
    rw [← not_lt, Date.previous_lt_iff hprevious, not_le]
    exact h

/-! ## The schedule -/

section Schedule

variable {config : WalkForwardConfig} {k : ℕ}

theorem train_pos (config : WalkForwardConfig) : 1 ≤ config.train := by
  unfold WalkForwardConfig.train
  omega

theorem step_pos (config : WalkForwardConfig) : 1 ≤ config.step := by
  unfold WalkForwardConfig.step
  omega

theorem validation_bounds (h : config.Admissible) :
    1 ≤ config.validation.toNat ∧ config.validation.toNat < 12 * config.test := by
  have hparts := h
  unfold WalkForwardConfig.Admissible WalkForwardConfig.evaluation at hparts
  omega

theorem months_foldStart {date : Date} (h : config.foldStart k = some date) :
    date.months = config.start.months + 12 * config.step * k := by
  induction k generalizing date with
  | zero =>
    cases h
    rfl
  | succ k ih =>
    obtain ⟨before, hbefore, hlater⟩ := Option.bind_eq_some_iff.mp h
    have hmonths := Date.months_addMonths hlater
    have hih := ih hbefore
    have hmul : 12 * config.step * (k + 1) = 12 * config.step * k + 12 * config.step := by ring
    rw [hmul]
    omega

theorem months_oosStart {date : Date} (h : config.oosStart k = some date) :
    date.months = config.start.months + 12 * config.step * k + 12 * config.train +
      config.validation.toNat := by
  obtain ⟨validationStart, hvalidation, hoos⟩ := Option.bind_eq_some_iff.mp h
  obtain ⟨foldStart, hfold, htrain⟩ := Option.bind_eq_some_iff.mp hvalidation
  have hmonths := months_foldStart hfold
  have hmonths' := Date.months_addMonths htrain
  have hmonths'' := Date.months_addMonths hoos
  omega

theorem oosStart_lt {j : ℕ} {a b : Date} (hlt : k < j) (ha : config.oosStart k = some a)
    (hb : config.oosStart j = some b) : a < b := by
  have hmonths := months_oosStart ha
  have hmonths' := months_oosStart hb
  have hstep := step_pos config
  have hmul : 12 * config.step * k < 12 * config.step * j :=
    Nat.mul_lt_mul_of_pos_left hlt (by omega)
  exact Date.lt_of_months (by omega)

theorem exists_addMonths {date : Date} {count : ℕ} (h : date.months + count < 120000) :
    ∃ later, date.addMonths count = some later := by
  cases hlater : date.addMonths count with
  | none =>
    rw [Date.addMonths_eq_none_iff] at hlater
    omega
  | some later => exact ⟨later, rfl⟩

theorem fits_of_succ (h : config.Fits (k + 1)) : config.Fits k := by
  obtain ⟨late, hlate, hle⟩ := h
  have hmonths := months_oosStart hlate
  have hbound := late.months_lt
  obtain ⟨_, hvalidation, _⟩ := Option.bind_eq_some_iff.mp hlate
  obtain ⟨_, hfold, _⟩ := Option.bind_eq_some_iff.mp hvalidation
  obtain ⟨foldStart, hstart, _⟩ := Option.bind_eq_some_iff.mp hfold
  have hcount := months_foldStart hstart
  have hmul : 12 * config.step * (k + 1) = 12 * config.step * k + 12 * config.step := by ring
  rw [hmul] at hmonths
  obtain ⟨validationStart, hvalidationStart⟩ :=
    @exists_addMonths foldStart (12 * config.train) (by omega)
  have hcount' := Date.months_addMonths hvalidationStart
  obtain ⟨date, hdate⟩ := @exists_addMonths validationStart config.validation.toNat (by omega)
  have hoos : config.oosStart k = some date := by
    rw [WalkForwardConfig.oosStart, WalkForwardConfig.validationStart, hstart, Option.bind_some,
      hvalidationStart, Option.bind_some, hdate]
  exact ⟨date, hoos, (oosStart_lt (Nat.lt_succ_self k) hoos hlate).le.trans hle⟩

theorem fits_of_le {j : ℕ} (hle : k ≤ j) (h : config.Fits j) : config.Fits k := by
  induction hle with
  | refl => exact h
  | step _ ih => exact ih (fits_of_succ h)

/-- The dates of the fold at a position. -/
structure Scheduled (config : WalkForwardConfig) (k : ℕ) (bounds : Bounds) : Prop where
  trainStart : config.foldStart k = some bounds.trainStart
  train_lt : bounds.trainStart < bounds.validationStart
  trainStop : bounds.validationStart.previous = some bounds.trainStop
  validation_lt : bounds.validationStart < bounds.oosStart
  validationStop : bounds.oosStart.previous = some bounds.validationStop
  oosStart : config.oosStart k = some bounds.oosStart
  oosStart_le : bounds.oosStart ≤ config.stop
  oosStop : ∃ after last, config.oosEnd k = some after ∧ after.previous = some last ∧
    bounds.oosStart ≤ last ∧ bounds.oosStop = min config.stop last

/-- What a turn of the loop finds out about the fold at its position. -/
theorem foldBounds_spec (hadmissible : config.Admissible) {foldStart : Date}
    (hstart : config.foldStart k = some foldStart) :
    match foldBounds config foldStart with
    | .error _ => config.oosEnd k = none
    | .ok none => ¬ config.Fits k
    | .ok (some bounds) => Scheduled config k bounds := by
  have hmonths := validation_bounds hadmissible
  cases hvalidation : foldStart.addMonths (12 * config.train : ℕ) with
  | none =>
    obtain ⟨message, herror⟩ := addYears_error hvalidation
    have hnone : config.oosEnd k = none := by
      rw [WalkForwardConfig.oosEnd, WalkForwardConfig.validationStart, hstart, Option.bind_some,
        hvalidation]
      rfl
    unfold foldBounds
    rw [herror]
    exact hnone
  | some validationStart =>
    have hvalidationStart : config.validationStart k = some validationStart := by
      rw [WalkForwardConfig.validationStart, hstart, Option.bind_some, hvalidation]
    have hfirst := addYears_ok.mpr hvalidation
    cases hend : validationStart.addMonths (12 * config.test : ℕ) with
    | none =>
      obtain ⟨message, herror⟩ := addYears_error hend
      have hnone : config.oosEnd k = none := by
        rw [WalkForwardConfig.oosEnd, hvalidationStart, Option.bind_some, hend]
      unfold foldBounds
      rw [hfirst]
      dsimp only [bind, Except.bind]
      cases addMonths validationStart config.validation.toNat with
      | error message => exact hnone
      | ok oosStart =>
        dsimp only
        rw [herror]
        exact hnone
    | some oosEnd =>
      have hoosEnd : config.oosEnd k = some oosEnd := by
        rw [WalkForwardConfig.oosEnd, hvalidationStart, Option.bind_some, hend]
      cases hoos : validationStart.addMonths config.validation.toNat with
      | none =>
        rw [Date.addMonths_eq_none_iff] at hoos
        have hnone : validationStart.addMonths ((12 * config.test : ℕ) : ℤ) = none :=
          Date.addMonths_eq_none_iff.mpr (by omega)
        rw [hend] at hnone
        cases hnone
      | some oosStart =>
        have hoosStart : config.oosStart k = some oosStart := by
          rw [WalkForwardConfig.oosStart, hvalidationStart, Option.bind_some, hoos]
        have htrain := train_pos config
        have hcountEnd := Date.months_addMonths hend
        have hcountOos := Date.months_addMonths hoos
        have htrainLt : foldStart < validationStart := Date.lt_addMonths (by omega) hvalidation
        have hvalidationLt : validationStart < oosStart := Date.lt_addMonths (by omega) hoos
        have hoosLt : oosStart < oosEnd := Date.lt_of_months (by omega)
        obtain ⟨trainStop, htrainStop, htrainPrevious, -⟩ := dayBefore_of_lt htrainLt
        obtain ⟨validationStop, hvalidationStop, hvalidationPrevious, -⟩ :=
          dayBefore_of_lt hvalidationLt
        obtain ⟨last, hlast, hlastPrevious, hle⟩ := dayBefore_of_lt hoosLt
        unfold foldBounds
        rw [hfirst]
        dsimp only [bind, Except.bind]
        rw [addMonths_ok.mpr hoos]
        dsimp only
        rw [addYears_ok.mpr hend]
        dsimp only
        by_cases hlate : config.stop < oosStart
        · rw [if_pos hlate]
          show ¬ config.Fits k
          intro hfits
          obtain ⟨date, hdate, hbefore⟩ := hfits
          rw [hoosStart] at hdate
          cases hdate
          exact absurd hlate (not_lt.mpr hbefore)
        · rw [if_neg hlate, hlast, htrainStop, hvalidationStop]
          exact ⟨hstart, htrainLt, htrainPrevious, hvalidationLt, hvalidationPrevious, hoosStart,
            not_lt.mp hlate, oosEnd, last, hoosEnd, hlastPrevious, hle, rfl⟩

theorem Scheduled.sound {bounds : Bounds} (h : Scheduled config k bounds) :
    FoldSound config bounds := by
  obtain ⟨after, last, -, -, hle, hstop⟩ := h.oosStop
  exact
    { train := by
        rw [← not_lt, Date.previous_lt_iff h.trainStop, not_le]
        exact h.train_lt
      validation := by
        rw [← not_lt, Date.previous_lt_iff h.validationStop, not_le]
        exact h.validation_lt
      oos := by
        rw [hstop]
        exact le_min h.oosStart_le hle
      train_next := Date.next_of_previous h.trainStop
      validation_next := Date.next_of_previous h.validationStop
      oos_le := by
        rw [hstop]
        exact min_le_left _ _ }

theorem Scheduled.leaves {bounds : Bounds} (h : Scheduled config k bounds)
    (hlt : bounds.oosStop < config.stop) :
    ∃ date, config.oosEnd k = some date ∧ date ≤ config.stop := by
  obtain ⟨after, last, hend, hlast, -, hstop⟩ := h.oosStop
  refine ⟨after, hend, ?_⟩
  rw [← Date.previous_lt_iff hlast]
  rw [hstop] at hlt
  exact (min_lt_iff.mp hlt).resolve_left (lt_irrefl _)

end Schedule

/-! ## The loop over the folds -/

/-- What the loop returns from a fold on. -/
structure FoldsFrom (config : WalkForwardConfig) (k : ℕ) (folds : List Bounds) : Prop where
  scheduled : ∀ i bounds, folds[i]? = some bounds → Scheduled config (k + i) bounds
  complete : ∀ j, k + folds.length ≤ j → config.Fits j →
    ∃ last, folds.getLast? = some last ∧ last.oosStop = config.stop

def LoopResult (config : WalkForwardConfig) (k : ℕ) : Except String (List Bounds) → Prop
  | .error _ => config.PastCalendar
  | .ok folds => FoldsFrom config k folds

section Loop

variable {config : WalkForwardConfig} {k : ℕ}

theorem FoldsFrom.nil (hnot : ¬ config.Fits k) : FoldsFrom config k [] where
  scheduled := by simp
  complete := by
    intro j hle hfits
    exact absurd (fits_of_le hle hfits) hnot

theorem FoldsFrom.single {bounds : Bounds} (h : Scheduled config k bounds)
    (hstop : config.stop ≤ bounds.oosStop) : FoldsFrom config k [bounds] where
  scheduled := by
    intro i other hother
    cases i with
    | zero =>
      cases hother
      exact h
    | succ i => cases hother
  complete := by
    intro j _ _
    exact ⟨bounds, rfl, le_antisymm h.sound.oos_le hstop⟩

theorem FoldsFrom.cons {bounds : Bounds} {folds : List Bounds} (h : Scheduled config k bounds)
    (hrest : FoldsFrom config (k + 1) folds) : FoldsFrom config k (bounds :: folds) where
  scheduled := by
    intro i other hother
    cases i with
    | zero =>
      cases hother
      exact h
    | succ i =>
      have hscheduled := hrest.scheduled i other hother
      rwa [Nat.add_assoc, Nat.add_comm 1 i] at hscheduled
  complete := by
    intro j hle hfits
    rw [List.length_cons] at hle
    obtain ⟨last, hlast, hstop⟩ := hrest.complete j (by omega) hfits
    refine ⟨last, ?_, hstop⟩
    rw [List.getLast?_cons, hlast]
    rfl

theorem foldLoop_spec (hadmissible : config.Admissible) {fuel : ℕ} {foldStart : Date}
    (hstart : config.foldStart k = some foldStart) (hreached : config.Reached k)
    {result : Except String (List Bounds)} (h : foldLoop config fuel foldStart = some result) :
    LoopResult config k result := by
  induction fuel generalizing k foldStart result with
  | zero => cases h
  | succ fuel ih =>
    have hspec := foldBounds_spec hadmissible hstart
    unfold foldLoop at h
    cases hbounds : foldBounds config foldStart with
    | error message =>
      rw [hbounds] at h hspec
      cases h
      exact ⟨k, hreached, .inl hspec⟩
    | ok found =>
      rw [hbounds] at h hspec
      cases found with
      | none =>
        cases h
        exact FoldsFrom.nil hspec
      | some bounds =>
        dsimp only at h hspec
        cases hnext : addYears foldStart config.step with
        | error message =>
          rw [hnext] at h
          cases h
          refine ⟨k, hreached, .inr ⟨⟨_, hspec.oosStart, hspec.oosStart_le⟩, ?_⟩⟩
          rw [WalkForwardConfig.foldStart, hstart, Option.bind_some]
          by_contra hsome
          obtain ⟨next, hlater⟩ := Option.ne_none_iff_exists'.mp hsome
          rw [addYears_ok.mpr hlater] at hnext
          cases hnext
        | ok next =>
          rw [hnext] at h
          dsimp only at h
          split_ifs at h with hend
          · cases h
            exact FoldsFrom.single hspec hend
          · have hnextStart : config.foldStart (k + 1) = some next := by
              rw [WalkForwardConfig.foldStart, hstart, Option.bind_some, addYears_ok.mp hnext]
            have hreachedNext : config.Reached (k + 1) := by
              intro j hj
              cases Nat.lt_succ_iff_lt_or_eq.mp hj with
              | inl hlt => exact hreached j hlt
              | inr heq =>
                rw [heq]
                exact hspec.leaves (not_le.mp hend)
            obtain ⟨rest, hrest, hresult⟩ := Option.map_eq_some_iff.mp h
            have hih := ih hnextStart hreachedNext hrest
            cases rest with
            | error message =>
              rw [← hresult]
              exact hih
            | ok folds =>
              rw [← hresult]
              exact FoldsFrom.cons hspec hih

theorem foldLoop_terminates {fuel : ℕ} {foldStart : Date} (h : 9999 < foldStart.year + fuel) :
    foldLoop config fuel foldStart ≠ none := by
  induction fuel generalizing foldStart with
  | zero =>
    have hyears := foldStart.valid.years
    omega
  | succ fuel ih =>
    unfold foldLoop
    cases foldBounds config foldStart with
    | error message => simp
    | ok found =>
      cases found with
      | none => simp
      | some bounds =>
        dsimp only
        cases hnext : addYears foldStart config.step with
        | error message => simp
        | ok next =>
          dsimp only
          split_ifs
          · simp
          · have hstep := step_pos config
            have hmonths := Date.months_addMonths (addYears_ok.mp hnext)
            have hvalid := foldStart.valid.months
            have hvalid' := next.valid.months
            unfold Date.months at hmonths
            have hrest := @ih next (by omega)
            simpa using hrest

end Loop

end LocalPlatform.Experiments.Folds
