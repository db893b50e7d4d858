import LocalPlatform.Experiments.Folds

/-!
# The leakage check

`evaluate_experiment_leakage` reads the windows of a specification and what was observed of its
lineage, and reports every violation.

* `evaluateExperimentLeakage` is the check.
* `NoOverlap` says that a report has no overlap of two windows.
* `walkForward_outcome` puts the folds and their check together.
-/

namespace LocalPlatform.Experiments.Folds

open Dates Results

/-! ## What is checked -/

/-- The dates of a window, as far as the specification has them. -/
structure SpecWindow where
  start : Option Date
  stop : Option Date

structure ExperimentSpec where
  train : SpecWindow
  validation : SpecWindow
  oos : SpecWindow
  labelHorizonDays : Option ℤ

/-- A value of the lineage. -/
inductive Observed where
  | missing
  | list (length : ℕ)
  | number (value : ℚ)
  | bool (value : Bool)
  | text (value : String)
  | object (size : ℕ)

structure Lineage where
  futureUniverseReferences : Observed
  futureFundamentalReferences : Observed
  futureCorporateActionReferences : Observed
  fullSampleFitViolations : Observed
  oosMetricSelectionReferences : Observed
  dataRevisionAfterFreeze : Observed
  duplicateSymbolDateCrossings : Observed
  benchmarkMisalignment : Observed

structure Violation where
  code : String
  count : ℕ
  message : String
  deriving DecidableEq

structure LeakageReport where
  denied : Bool
  violations : List Violation
  trainValidationOverlap : ℕ
  validationOosOverlap : ℕ
  trainOosOverlap : ℕ
  futureUniverseReferences : ℕ
  futureFundamentalReferences : ℕ
  futureCorporateActionReferences : ℕ
  labelBoundaryViolations : ℕ
  fullSampleFitViolations : ℕ
  oosMetricSelectionReferences : ℕ
  dataRevisionAfterFreeze : ℕ
  duplicateSymbolDateCrossings : ℕ
  benchmarkMisalignment : ℕ
  deriving DecidableEq

/-! ## The check -/

/-- `_day` -/
def day : Option Date → Except String Date
  | some date => .ok date
  | none => .error "Invalid isoformat string: 'None'"

/-- `_overlap` -/
def overlap (left right : SpecWindow) : Except String ℕ := do
  let start := max (← day left.start) (← day right.start)
  let stop := min (← day left.stop) (← day right.stop)
  return (max 0 ((stop.ordinal : ℤ) - start.ordinal + 1)).toNat

/-- Whether a label of the last day of a window reaches another window. -/
def crosses (horizon : ℕ) (left right : SpecWindow) : Except String ℕ := do
  match (← day left.stop).addDays horizon with
  | none => throw "date value out of range"
  | some last => return if (← day right.start) ≤ last then 1 else 0

def labelViolations (horizon : ℕ) (spec : ExperimentSpec) : Except String ℕ :=
  if horizon = 0 then .ok 0
  else do
    return (← crosses horizon spec.train spec.validation) +
      (← crosses horizon spec.validation spec.oos)

section Check

variable (readInt : String → Option ℤ)

/-- `_count`, where `readInt` is `int` of a text. -/
def Observed.count : Observed → ℕ
  | .missing => 0
  | .list length => length
  | .number value => ⌊value⌋.toNat
  | .bool value => value.toNat
  | .text value =>
    if value = "" then 0
    else
      match readInt value with
      | some whole => whole.toNat
      | none => 1
  | .object size => if size = 0 then 0 else 1

/-- `add` -/
def violation (code : String) (count : ℕ) (message : String) : List Violation :=
  if count = 0 then [] else [{ code, count, message }]

/-- `evaluate_experiment_leakage` -/
def evaluateExperimentLeakage (spec : ExperimentSpec) (lineage : Lineage) :
    Except String LeakageReport := do
  let trainValidationOverlap ← overlap spec.train spec.validation
  let validationOosOverlap ← overlap spec.validation spec.oos
  let trainOosOverlap ← overlap spec.train spec.oos
  let horizon := (spec.labelHorizonDays.getD 0).toNat
  let labelBoundaryViolations ← labelViolations horizon spec
  let futureUniverse := lineage.futureUniverseReferences.count readInt
  let futureFundamentals := lineage.futureFundamentalReferences.count readInt
  let futureCorporateActions := lineage.futureCorporateActionReferences.count readInt
  let fullSampleFits := lineage.fullSampleFitViolations.count readInt
  let oosSelection := lineage.oosMetricSelectionReferences.count readInt
  let revisions := lineage.dataRevisionAfterFreeze.count readInt
  let duplicates := lineage.duplicateSymbolDateCrossings.count readInt
  let benchmarkMisalignment := lineage.benchmarkMisalignment.count readInt
  let violations :=
    violation "TRAIN_VALIDATION_OVERLAP" trainValidationOverlap
      "Train and validation dates overlap." ++
    violation "VALIDATION_OOS_OVERLAP" validationOosOverlap "Validation and OOS dates overlap." ++
    violation "TRAIN_OOS_OVERLAP" trainOosOverlap "Train and OOS dates overlap." ++
    violation "LABEL_HORIZON_CROSSES_BOUNDARY" labelBoundaryViolations
      "A label horizon crosses a phase boundary." ++
    violation "FUTURE_UNIVERSE_MEMBERSHIP" futureUniverse
      "Universe membership was not known as of the observation date." ++
    violation "FUTURE_FUNDAMENTAL_PUBLICATION" futureFundamentals
      "A fundamental publication occurs after the observation date." ++
    violation "FUTURE_CORPORATE_ACTION" futureCorporateActions
      "A corporate action was referenced before its knowledge date." ++
    violation "FULL_SAMPLE_NORMALIZATION" fullSampleFits
      "Feature fitting used full-sample statistics." ++
    violation "OOS_METRIC_USED_FOR_SELECTION" oosSelection
      "OOS metrics participated in parameter selection." ++
    violation "DATA_REVISION_AFTER_FREEZE" revisions
      "An input revision occurred after the run freeze." ++
    violation "DUPLICATE_SYMBOL_DATE_CROSSING" duplicates
      "Duplicate symbol/date observations cross phase boundaries." ++
    violation "BENCHMARK_MISALIGNMENT" benchmarkMisalignment
      "Benchmark observations are not aligned with the experiment calendar."
  return {
    denied := !violations.isEmpty
    violations
    trainValidationOverlap
    validationOosOverlap
    trainOosOverlap
    futureUniverseReferences := futureUniverse
    futureFundamentalReferences := futureFundamentals
    futureCorporateActionReferences := futureCorporateActions
    labelBoundaryViolations
    fullSampleFitViolations := fullSampleFits
    oosMetricSelectionReferences := oosSelection
    dataRevisionAfterFreeze := revisions
    duplicateSymbolDateCrossings := duplicates
    benchmarkMisalignment }

/-! ## The windows of a fold -/

/-- The specification of a fold. -/
def specOf (bounds : Bounds) (labelHorizonDays : Option ℤ) : ExperimentSpec where
  train := { start := some bounds.trainStart, stop := some bounds.trainStop }
  validation := { start := some bounds.validationStart, stop := some bounds.validationStop }
  oos := { start := some bounds.oosStart, stop := some bounds.oosStop }
  labelHorizonDays := labelHorizonDays

def overlapCodes : List String :=
  ["TRAIN_VALIDATION_OVERLAP", "VALIDATION_OOS_OVERLAP", "TRAIN_OOS_OVERLAP"]

def otherCodes : List String :=
  ["LABEL_HORIZON_CROSSES_BOUNDARY", "FUTURE_UNIVERSE_MEMBERSHIP",
    "FUTURE_FUNDAMENTAL_PUBLICATION", "FUTURE_CORPORATE_ACTION", "FULL_SAMPLE_NORMALIZATION",
    "OOS_METRIC_USED_FOR_SELECTION", "DATA_REVISION_AFTER_FREEZE",
    "DUPLICATE_SYMBOL_DATE_CROSSING", "BENCHMARK_MISALIGNMENT"]

/-- A report has no overlap of two windows. -/
structure NoOverlap (report : LeakageReport) : Prop where
  trainValidation : report.trainValidationOverlap = 0
  validationOos : report.validationOosOverlap = 0
  trainOos : report.trainOosOverlap = 0
  codes : ∀ violation ∈ report.violations, violation.code ∉ overlapCodes

/-- The check of a fold reports no overlap, whatever was observed; without a label horizon, it
reports. -/
def LeakFree (bounds : Bounds) : Prop :=
  ∀ lineage labelHorizonDays,
    (∀ report, evaluateExperimentLeakage readInt (specOf bounds labelHorizonDays) lineage =
      .ok report → NoOverlap report) ∧
    (labelHorizonDays = none →
      ∃ report, evaluateExperimentLeakage readInt (specOf bounds labelHorizonDays) lineage =
        .ok report)

theorem overlap_eq_zero {a b c d : Date} (h : b < c) :
    overlap { start := some a, stop := some b } { start := some c, stop := some d } = .ok 0 := by
  have hordinal : (min b d).ordinal < (max a c).ordinal :=
    Date.ordinal_lt (lt_of_le_of_lt (min_le_left b d) (lt_of_lt_of_le h (le_max_right a c)))
  show Except.ok (max 0 (((min b d).ordinal : ℤ) - (max a c).ordinal + 1)).toNat = _
  congr 1
  omega

theorem code_of_violation {code message : String} {count : ℕ} {found : Violation}
    (h : found ∈ violation code count message) : found.code = code := by
  unfold violation at h
  split_ifs at h
  · cases h
  · rw [List.mem_singleton.mp h]

theorem violation_zero (code message : String) : violation code 0 message = [] := rfl

theorem FoldSound.leakFree {config : WalkForwardConfig} {bounds : Bounds}
    (h : FoldSound config bounds) : LeakFree readInt bounds := by
  have htrain : bounds.trainStop < bounds.validationStart :=
    (Date.lt_next_iff h.train_next _).mpr le_rfl
  have hvalidation : bounds.validationStop < bounds.oosStart :=
    (Date.lt_next_iff h.validation_next _).mpr le_rfl
  have hoos : bounds.trainStop < bounds.oosStart :=
    htrain.trans_le (h.validation.trans hvalidation.le)
  intro lineage labelHorizonDays
  have hfirst : overlap (specOf bounds labelHorizonDays).train
      (specOf bounds labelHorizonDays).validation = .ok 0 := overlap_eq_zero htrain
  have hsecond : overlap (specOf bounds labelHorizonDays).validation
      (specOf bounds labelHorizonDays).oos = .ok 0 := overlap_eq_zero hvalidation
  have hthird : overlap (specOf bounds labelHorizonDays).train
      (specOf bounds labelHorizonDays).oos = .ok 0 := overlap_eq_zero hoos
  constructor
  · intro report hreport
    unfold evaluateExperimentLeakage at hreport
    rw [hfirst, hsecond, hthird] at hreport
    dsimp only [bind, Except.bind] at hreport
    obtain ⟨labels, -, hreport⟩ := bind_ok hreport
    cases hreport
    refine ⟨rfl, rfl, rfl, ?_⟩
    intro found hfound
    simp only [violation_zero, List.nil_append, List.mem_append] at hfound
    have hcode : found.code ∈ otherCodes := by
      rcases hfound with (((((((h | h) | h) | h) | h) | h) | h) | h) | h <;>
        simp [code_of_violation h, otherCodes]
    have hother : ∀ code ∈ otherCodes, code ∉ overlapCodes := by decide
    exact hother _ hcode
  · intro hnone
    subst hnone
    unfold evaluateExperimentLeakage
    rw [hfirst, hsecond, hthird]
    exact ⟨_, rfl⟩

/-! ## Walk-forward experiments -/

variable (sha256 : String → String)

/-- How `_walk_forward_windows` ends. -/
def Outcome (config : WalkForwardConfig) : Except String (List Window) → Prop
  | .error _ => ¬ config.Fits 0 ∨ config.PastCalendar
  | .ok windows => ∃ folds : List Bounds,
      windows = (folds.zipIdx 1).flatMap (fun fold => windowsOf sha256 fold.2 fold.1) ∧
        FoldsSound config folds ∧ ∀ bounds ∈ folds, LeakFree readInt bounds

theorem FoldsFrom.sound {config : WalkForwardConfig} {folds : List Bounds}
    (h : FoldsFrom config 0 folds) (hne : folds ≠ []) : FoldsSound config folds where
  nonempty := hne
  sound := by
    intro bounds hbounds
    obtain ⟨k, hk, rfl⟩ := List.mem_iff_getElem.mp hbounds
    exact (h.scheduled k _ (List.getElem?_eq_getElem hk)).sound
  scheduled := by
    intro k bounds hbounds
    have hscheduled := h.scheduled k bounds hbounds
    rw [Nat.zero_add] at hscheduled
    exact ⟨hscheduled.trainStart, hscheduled.oosStart⟩
  later := by
    rw [List.pairwise_iff_getElem]
    intro i j hi hj hlt
    have hscheduled := h.scheduled i _ (List.getElem?_eq_getElem hi)
    have hscheduled' := h.scheduled j _ (List.getElem?_eq_getElem hj)
    rw [Nat.zero_add] at hscheduled hscheduled'
    exact oosStart_lt hlt hscheduled.oosStart hscheduled'.oosStart
  complete := by
    intro k hle hfits
    exact h.complete k (by omega) hfits

/-- The function comes to an end: with sound folds that no check finds fault with, or with an error
where no fold fits or where the dates of the calendar do not reach. -/
theorem walkForward_outcome (config : WalkForwardConfig) (hadmissible : config.Admissible) :
    ∃ result, walkForwardWindows sha256 config = some result ∧
      Outcome readInt sha256 config result := by
  have hyears := config.start.valid.years.1
  have hterminates : foldLoop config maxTurns config.start ≠ none :=
    foldLoop_terminates (by unfold maxTurns; omega)
  obtain ⟨looped, hlooped⟩ := Option.ne_none_iff_exists'.mp hterminates
  have hreached : config.Reached 0 := by
    intro j hj
    omega
  have hspec := foldLoop_spec hadmissible rfl hreached hlooped
  unfold walkForwardWindows
  rw [if_pos hadmissible, hlooped]
  cases looped with
  | error message => exact ⟨_, rfl, .inr hspec⟩
  | ok folds =>
    by_cases hempty : folds = []
    · refine ⟨.error "Walk-forward requires enough history for at least one train/validation/OOS fold.",
        ?_, .inl ?_⟩
      · rw [hempty]
        rfl
      · intro hfits
        have hspec' : FoldsFrom config 0 folds := hspec
        obtain ⟨last, hlast, -⟩ := hspec'.complete 0 (by simp [hempty]) hfits
        rw [hempty] at hlast
        cases hlast
    · refine ⟨.ok ((folds.zipIdx 1).flatMap (fun fold => windowsOf sha256 fold.2 fold.1)), ?_, ?_⟩
      · show some (if folds = [] then _ else _) = _
        rw [if_neg hempty]
        rfl
      · have hsound := FoldsFrom.sound hspec hempty
        exact ⟨folds, rfl, hsound, fun bounds hbounds => (hsound.sound bounds hbounds).leakFree readInt⟩

end Check

/-! ## Sample experiments -/

/-- Six years with a fold every so many years. -/
def sampleConfig (stepYears : ℤ) : WalkForwardConfig where
  start := ⟨2018, 1, 1, by decide⟩
  stop := ⟨2023, 12, 31, by decide⟩
  trainYears := some 3
  testYears := some 1
  stepYears := some stepYears
  validationMonths := none

theorem walkForward_outcome_sample :
    ∃ result, walkForwardWindows id (sampleConfig 1) = some result ∧
      Outcome (fun _ => none) id (sampleConfig 1) result :=
  walkForward_outcome (fun _ => none) id (sampleConfig 1) (by decide)

/-- With a fold every eight thousand years the function raises, although the first fold fits. -/
theorem longStep_raises :
    (sampleConfig 8000).start ≤ (sampleConfig 8000).stop ∧ (sampleConfig 8000).Admissible ∧
      (walkForwardWindows id (sampleConfig 8000)).any (fun result => result.toOption.isNone) = true ∧
      (sampleConfig 8000).Fits 0 := by
  refine ⟨by decide, by decide, by decide +kernel, ⟨2021, 7, 1, by decide⟩, ?_, by decide⟩
  decide +kernel

end LocalPlatform.Experiments.Folds
