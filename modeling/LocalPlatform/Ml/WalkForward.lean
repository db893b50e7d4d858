import LocalPlatform.Lib.Dates
import LocalPlatform.Lib.Results

/-!
# The walk-forward plan

`build_walk_forward_plan` cuts the trading dates into folds of a train, a validation and a test
segment, and keeps the last year for the holdout.

* The targets of the segments are calendar dates, and their ends are positions of trading dates.
* A label of `add_forward_labels` reads the five positions after its own.
* `Placed` says where the segments of a fold are, and all that is claimed of the labels follows
  from it.  The code does not check that a test segment has a date (`TestWindowsTraded`).
-/

namespace LocalPlatform.Ml

open Dates Results

/-! ## The plan -/

/-- `values[index]` -/
def itemAt (dates : List Date) (index : ℤ) : Except String Date :=
  let position := if index < 0 then index + dates.length else index
  if position < 0 then .error "list index out of range"
  else
    match dates[position.toNat]? with
    | some date => .ok date
    | none => .error "list index out of range"

/-- `_add_months` -/
def addMonths (value : Date) (months : ℤ) : Except String Date :=
  match value.addMonths months with
  | some date => .ok date
  | none => .error "year is out of range"

structure WalkForwardFold where
  index : ℕ
  trainStart : Date
  trainEnd : Date
  validationStart : Date
  validationEnd : Date
  testStart : Date
  testEnd : Date

structure WalkForwardPlan where
  purgeTradingDays : ℤ
  embargoTradingDays : ℤ
  folds : List WalkForwardFold
  holdoutStart : Date
  holdoutEnd : Date

/-- How a turn of the loop ends. -/
inductive Turn where
  | stop
  | next (fold : Option WalkForwardFold) (testStartTarget : Date)

/-- The positions of the segments of a fold; the test segment ends before `testEnd`. -/
structure Positions where
  trainStart : ℕ
  trainEnd : ℤ
  validationStart : ℕ
  validationEnd : ℤ
  testStart : ℕ
  testEnd : ℕ

def makeFold (dates : List Date) (index : ℕ) (positions : Positions) : Except String WalkForwardFold := do
  let trainStart ← itemAt dates positions.trainStart
  let trainEnd ← itemAt dates positions.trainEnd
  let validationStart ← itemAt dates positions.validationStart
  let validationEnd ← itemAt dates positions.validationEnd
  let testStart ← itemAt dates positions.testStart
  let testEnd ← itemAt dates (positions.testEnd - 1)
  return { index, trainStart, trainEnd, validationStart, validationEnd, testStart, testEnd }

section Plan

variable (dates : List Date) (holdoutStart : ℕ) (purge embargo : ℤ)

/-- The fold of a turn, if its train and validation segments have dates. -/
def turnFold (index validationStart testStart testEnd : ℕ) :
    Except String (Option WalkForwardFold) := do
  let trainEnd : ℤ := validationStart - purge - 1
  let validationEnd : ℤ := testStart - embargo - 1
  let validationDate ← itemAt dates validationStart
  let trainTarget ← addMonths validationDate (-60)
  match atOrAfter dates trainTarget with
  | none => return none
  | some trainStart =>
    if trainEnd > trainStart ∧ validationEnd ≥ validationStart then do
      let fold ← makeFold dates index
        { trainStart, trainEnd, validationStart, validationEnd, testStart, testEnd }
      return some fold
    else return none

/-- A turn of the loop. -/
def turn (index : ℕ) (testStartTarget : Date) : Except String Turn := do
  let validationTarget ← addMonths testStartTarget (-6)
  let testEndTarget ← addMonths testStartTarget 3
  match atOrAfter dates validationTarget, atOrAfter dates testStartTarget,
      atOrAfter dates testEndTarget with
  | some validationStart, some testStart, some testEnd =>
    if testEnd ≥ holdoutStart then return .stop
    else do
      let fold ← turnFold dates purge embargo index validationStart testStart testEnd
      return .next fold testEndTarget
  | _, _, _ => return .stop

/-- The loop, which makes at most so many turns. -/
def foldLoop : ℕ → Date → List WalkForwardFold → Option (Except String (List WalkForwardFold))
  | 0, _, _ => none
  | fuel + 1, testStartTarget, folds =>
    match turn dates holdoutStart purge embargo folds.length testStartTarget with
    | .error message => some (.error message)
    | .ok .stop => some (.ok folds)
    | .ok (.next fold target) => foldLoop fuel target (folds ++ fold.toList)

/-- The position where the holdout starts, and the first target of a test segment. -/
def planBounds : Except String (ℕ × Date) := do
  let last ← itemAt dates (-1)
  let holdoutTarget ← addMonths last (-12)
  match atOrAfter dates holdoutTarget with
  | none => .error "Unable to locate final holdout boundary."
  | some holdoutStart =>
    let first ← itemAt dates 0
    let target ← addMonths first 66
    return (holdoutStart, target)

/-- The plan of the folds. -/
def finishPlan (folds : List WalkForwardFold) : Except String WalkForwardPlan := do
  let start ← itemAt dates holdoutStart
  let last ← itemAt dates (-1)
  return {
    purgeTradingDays := purge
    embargoTradingDays := embargo
    folds := folds
    holdoutStart := start
    holdoutEnd := last }

end Plan

def maxTurns : ℕ := 120001

/-- `build_walk_forward_plan` -/
def buildWalkForwardPlan (tradingDates : List Date) (purge embargo : ℤ) :
    Option (Except String WalkForwardPlan) :=
  let dates := ascending tradingDates
  if dates.length < 252 * 7 then
    some (.error ("At least seven years of trading dates are required for 5y/6m/3m "
      ++ "walk-forward validation."))
  else
    match planBounds dates with
    | .error message => some (.error message)
    | .ok (holdoutStart, target) =>
      match foldLoop dates holdoutStart purge embargo maxTurns target [] with
      | none => none
      | some (.error message) => some (.error message)
      | some (.ok folds) =>
        if folds = [] then
          some (.error "No complete pre-holdout walk-forward fold could be constructed.")
        else some (finishPlan dates holdoutStart purge embargo folds)

/-! ## Labels -/

/-- `horizon` of `add_forward_labels` -/
def horizon : ℕ := 5

/-- The dates that the label of a position reads. -/
def labelDates (dates : List Date) (position : ℕ) : List Date :=
  (List.range horizon).filterMap (fun step => dates[position + 1 + step]?)

/-! ## What is claimed of a plan -/

def HasDate (dates : List Date) (first last : Date) : Prop :=
  ∃ date ∈ dates, first ≤ date ∧ date ≤ last

/-- No label of a segment reads a date from a limit on. -/
def LabelsBefore (dates : List Date) (first last limit : Date) : Prop :=
  ∀ position date, dates[position]? = some date → first ≤ date → date ≤ last →
    ∀ read ∈ labelDates dates position, read < limit

structure FoldSound (dates : List Date) (fold : WalkForwardFold) : Prop where
  train : HasDate dates fold.trainStart fold.trainEnd
  validation : HasDate dates fold.validationStart fold.validationEnd
  test : HasDate dates fold.testStart fold.testEnd
  trainBefore : fold.trainEnd < fold.validationStart
  validationBefore : fold.validationEnd < fold.testStart
  trainLabels : LabelsBefore dates fold.trainStart fold.trainEnd fold.validationStart
  validationLabels : LabelsBefore dates fold.validationStart fold.validationEnd fold.testStart

structure PlanSound (dates : List Date) (plan : WalkForwardPlan) : Prop where
  folds : ∀ fold ∈ plan.folds, FoldSound dates fold
  tests : plan.folds.Pairwise (fun fold later => fold.testEnd < later.testStart)
  holdout : ∀ fold ∈ plan.folds, fold.testEnd < plan.holdoutStart

/-- Every three months of which the loop makes a test segment have a trading date. -/
def TestWindowsTraded (dates : List Date) (holdoutStart : ℕ) (purge embargo : ℤ) :
    ℕ → Date → ℕ → Prop
  | 0, _, _ => True
  | fuel + 1, target, index =>
    match turn dates holdoutStart purge embargo index target with
    | .ok (.next fold later) =>
      (fold.isSome → ∃ date ∈ dates, target ≤ date ∧ date < later) ∧
        TestWindowsTraded dates holdoutStart purge embargo fuel later (index + fold.toList.length)
    | _ => True

/-- The test windows of a plan all have a trading date. -/
def WindowsTraded (tradingDates : List Date) (purge embargo : ℤ) : Prop :=
  match planBounds (ascending tradingDates) with
  | .error _ => True
  | .ok (holdoutStart, target) =>
    TestWindowsTraded (ascending tradingDates) holdoutStart purge embargo maxTurns target 0

/-! ## The positions of a fold -/

variable {dates : List Date} {date : Date}

theorem itemAt_ok {index : ℤ} (hindex : 0 ≤ index) (h : itemAt dates index = .ok date)
    : dates[index.toNat]? = some date := by
  unfold itemAt at h
  rw [if_neg (not_lt.mpr hindex)] at h
  dsimp only at h
  rw [if_neg (not_lt.mpr hindex)] at h
  cases hitem : dates[index.toNat]? with
  | none =>
    rw [hitem] at h
    cases h
  | some other =>
    rw [hitem] at h
    cases h
    rfl

/-- The segments of a fold are where the code's checks leave them. -/
structure Placed (dates : List Date) (holdoutStart : ℕ) (purge embargo : ℤ)
    (fold : WalkForwardFold) (positions : Positions) : Prop where
  trainStart : itemAt dates positions.trainStart = .ok fold.trainStart
  trainEnd : itemAt dates positions.trainEnd = .ok fold.trainEnd
  validationStart : itemAt dates positions.validationStart = .ok fold.validationStart
  validationEnd : itemAt dates positions.validationEnd = .ok fold.validationEnd
  testStart : itemAt dates positions.testStart = .ok fold.testStart
  testEnd : itemAt dates (positions.testEnd - 1) = .ok fold.testEnd
  train : positions.trainStart < positions.trainEnd
  purged : positions.trainEnd + purge + 1 = positions.validationStart
  validation : positions.validationStart ≤ positions.validationEnd
  embargoed : positions.validationEnd + embargo + 1 = positions.testStart
  holdout : positions.testEnd < holdoutStart

theorem makeFold_ok {index : ℕ} {positions : Positions} {fold : WalkForwardFold}
    (h : makeFold dates index positions = .ok fold) :
    itemAt dates positions.trainStart = .ok fold.trainStart ∧
      itemAt dates positions.trainEnd = .ok fold.trainEnd ∧
      itemAt dates positions.validationStart = .ok fold.validationStart ∧
      itemAt dates positions.validationEnd = .ok fold.validationEnd ∧
      itemAt dates positions.testStart = .ok fold.testStart ∧
      itemAt dates (positions.testEnd - 1) = .ok fold.testEnd := by
  unfold makeFold at h
  obtain ⟨trainStart, htrainStart, h⟩ := bind_ok h
  obtain ⟨trainEnd, htrainEnd, h⟩ := bind_ok h
  obtain ⟨validationStart, hvalidationStart, h⟩ := bind_ok h
  obtain ⟨validationEnd, hvalidationEnd, h⟩ := bind_ok h
  obtain ⟨testStart, htestStart, h⟩ := bind_ok h
  obtain ⟨testEnd, htestEnd, h⟩ := bind_ok h
  cases h
  exact ⟨htrainStart, htrainEnd, hvalidationStart, hvalidationEnd, htestStart, htestEnd⟩

theorem addMonths_ok {value : Date} {months : ℤ} (h : addMonths value months = .ok date) :
    value.addMonths months = some date := by
  unfold addMonths at h
  cases hadd : value.addMonths months with
  | none =>
    rw [hadd] at h
    cases h
  | some other =>
    rw [hadd] at h
    cases h
    rfl

variable {purge embargo : ℤ} {holdoutStart : ℕ}

theorem turnFold_ok {index validationStart testStart testEnd : ℕ} {fold : WalkForwardFold}
    (h : turnFold dates purge embargo index validationStart testStart testEnd = .ok (some fold))
    (hholdout : testEnd < holdoutStart) :
    ∃ positions, Placed dates holdoutStart purge embargo fold positions ∧ positions.testStart = testStart ∧
      positions.testEnd = testEnd := by
  unfold turnFold at h
  obtain ⟨validationDate, _, h⟩ := bind_ok h
  obtain ⟨trainTarget, _, h⟩ := bind_ok h
  cases htrain : atOrAfter dates trainTarget with
  | none =>
    rw [htrain] at h
    cases h
  | some trainStart =>
    rw [htrain] at h
    dsimp only at h
    split_ifs at h with hguard
    · obtain ⟨made, hmade, h⟩ := bind_ok h
      cases h
      have hitems := makeFold_ok hmade
      refine ⟨{ trainStart := trainStart
                trainEnd := validationStart - purge - 1
                validationStart := validationStart
                validationEnd := testStart - embargo - 1
                testStart := testStart
                testEnd := testEnd }, ?_, rfl, rfl⟩
      exact
        { trainStart := hitems.1
          trainEnd := hitems.2.1
          validationStart := hitems.2.2.1
          validationEnd := hitems.2.2.2.1
          testStart := hitems.2.2.2.2.1
          testEnd := hitems.2.2.2.2.2
          train := hguard.1
          purged := by
            dsimp only
            omega
          validation := hguard.2
          embargoed := by
            dsimp only
            omega
          holdout := hholdout }
    · cases h

theorem turn_next {index : ℕ} {target later : Date} {fold : Option WalkForwardFold}
    (h : turn dates holdoutStart purge embargo index target = .ok (.next fold later)) :
    target.addMonths 3 = some later ∧
      ∃ testStart testEnd, atOrAfter dates target = some testStart ∧
        atOrAfter dates later = some testEnd ∧
        ∀ made ∈ fold, ∃ positions, Placed dates holdoutStart purge embargo made positions ∧
          positions.testStart = testStart ∧ positions.testEnd = testEnd := by
  unfold turn at h
  obtain ⟨validationTarget, _, h⟩ := bind_ok h
  obtain ⟨testEndTarget, hend, h⟩ := bind_ok h
  cases hvalidation : atOrAfter dates validationTarget with
  | none =>
    rw [hvalidation] at h
    cases h
  | some validationStart =>
    cases htest : atOrAfter dates target with
    | none =>
      rw [hvalidation, htest] at h
      cases h
    | some testStart =>
      cases htestEnd : atOrAfter dates testEndTarget with
      | none =>
        rw [hvalidation, htest, htestEnd] at h
        cases h
      | some testEnd =>
        rw [hvalidation, htest, htestEnd] at h
        dsimp only at h
        split_ifs at h with hholdout
        · cases h
        · obtain ⟨made, hmade, h⟩ := bind_ok h
          cases h
          refine ⟨addMonths_ok hend, testStart, testEnd, rfl, htestEnd, ?_⟩
          intro other hother
          rw [hother] at hmade
          exact turnFold_ok hmade (not_le.mp hholdout)

/-! ## A fold -/

section Fold

variable {dates : List Date} {holdoutStart : ℕ} {purge embargo : ℤ} {fold : WalkForwardFold}
  {positions : Positions}

theorem Placed.trainEnd_pos (h : Placed dates holdoutStart purge embargo fold positions) :
    0 ≤ positions.trainEnd := by
  have htrain := h.train
  omega

theorem Placed.validationEnd_pos (h : Placed dates holdoutStart purge embargo fold positions) :
    0 ≤ positions.validationEnd := by
  have hvalidation := h.validation
  omega

theorem Placed.testEnd_pos (h : Placed dates holdoutStart purge embargo fold positions)
    (htest : positions.testStart ≤ positions.testEnd) (hembargo : 0 ≤ embargo) : (0 : ℤ) ≤ positions.testEnd - 1 := by
  have hvalidation := h.validation
  have hembargoed := h.embargoed
  omega

theorem Placed.trainStart_item (h : Placed dates holdoutStart purge embargo fold positions) :
    dates[positions.trainStart]? = some fold.trainStart :=
  itemAt_ok (Int.natCast_nonneg _) h.trainStart

theorem Placed.trainEnd_item (h : Placed dates holdoutStart purge embargo fold positions) :
    dates[positions.trainEnd.toNat]? = some fold.trainEnd :=
  itemAt_ok h.trainEnd_pos h.trainEnd

theorem Placed.validationStart_item (h : Placed dates holdoutStart purge embargo fold positions) :
    dates[positions.validationStart]? = some fold.validationStart :=
  itemAt_ok (Int.natCast_nonneg _) h.validationStart

theorem Placed.validationEnd_item (h : Placed dates holdoutStart purge embargo fold positions) :
    dates[positions.validationEnd.toNat]? = some fold.validationEnd :=
  itemAt_ok h.validationEnd_pos h.validationEnd

theorem Placed.testStart_item (h : Placed dates holdoutStart purge embargo fold positions) :
    dates[positions.testStart]? = some fold.testStart :=
  itemAt_ok (Int.natCast_nonneg _) h.testStart

theorem Placed.testEnd_item (h : Placed dates holdoutStart purge embargo fold positions)
    (htest : positions.testStart ≤ positions.testEnd) (hembargo : 0 ≤ embargo) :
    dates[positions.testEnd - 1]? = some fold.testEnd := by
  have hpos := h.testEnd_pos htest hembargo
  have hitem := itemAt_ok hpos h.testEnd
  have hnat : ((positions.testEnd : ℤ) - 1).toNat = positions.testEnd - 1 := by omega
  rwa [hnat] at hitem

theorem hasDate_of_positions (hsorted : dates.Pairwise (· < ·)) {i j : ℕ} {first last : Date}
    (hi : dates[i]? = some first) (hj : dates[j]? = some last) (hij : i ≤ j) :
    HasDate dates first last :=
  ⟨first, List.mem_of_getElem? hi, le_rfl, (le_iff_position hsorted hi hj).mpr hij⟩

theorem labelsBefore_of_positions (hsorted : dates.Pairwise (· < ·)) {j n : ℕ}
    {first last limit : Date} (hj : dates[j]? = some last) (hn : dates[n]? = some limit)
    (hgap : j + horizon < n) : LabelsBefore dates first last limit := by
  intro position date hdate _ hlast read hread
  obtain ⟨step, hstep, hitem⟩ := List.mem_filterMap.mp hread
  have hstep' := List.mem_range.mp hstep
  have hposition := (le_iff_position hsorted hdate hj).mp hlast
  apply (lt_iff_position hsorted hitem hn).mpr
  omega

theorem Placed.sound (h : Placed dates holdoutStart purge embargo fold positions)
    (hsorted : dates.Pairwise (· < ·)) (hpurge : horizon ≤ purge) (hembargo : horizon ≤ embargo)
    (htest : HasDate dates fold.testStart fold.testEnd) : FoldSound dates fold := by
  have htrain := h.train
  have hpurged := h.purged
  have hvalidation := h.validation
  have hembargoed := h.embargoed
  have htrainPos := h.trainEnd_pos
  have hvalidationPos := h.validationEnd_pos
  exact
    { train := hasDate_of_positions hsorted h.trainStart_item h.trainEnd_item (by omega)
      validation :=
        hasDate_of_positions hsorted h.validationStart_item h.validationEnd_item (by omega)
      test := htest
      trainBefore :=
        (lt_iff_position hsorted h.trainEnd_item h.validationStart_item).mpr (by omega)
      validationBefore :=
        (lt_iff_position hsorted h.validationEnd_item h.testStart_item).mpr (by omega)
      trainLabels :=
        labelsBefore_of_positions hsorted h.trainEnd_item h.validationStart_item (by omega)
      validationLabels :=
        labelsBefore_of_positions hsorted h.validationEnd_item h.testStart_item (by omega) }

theorem Placed.hasDate_iff (h : Placed dates holdoutStart purge embargo fold positions)
    (hsorted : dates.Pairwise (· < ·)) (hembargo : 0 ≤ embargo) {target later : Date}
    (hlater : target ≤ later) (hstart : atOrAfter dates target = some positions.testStart)
    (hend : atOrAfter dates later = some positions.testEnd) :
    HasDate dates fold.testStart fold.testEnd ↔ ∃ date ∈ dates, target ≤ date ∧ date < later := by
  have hle := atOrAfter_mono hsorted hlater hstart hend
  have hitem := h.testStart_item
  have hlast := h.testEnd_item hle hembargo
  have hpos := h.testEnd_pos hle hembargo
  have hspec := atOrAfter_spec hsorted hstart
  have hspec' := atOrAfter_spec hsorted hend
  constructor
  · rintro ⟨date, _, hfirst, hupto⟩
    have hpositions := (le_iff_position hsorted hitem hlast).mp (hfirst.trans hupto)
    refine ⟨fold.testStart, List.mem_of_getElem? hitem, ?_, ?_⟩
    · exact not_lt.mp ((hspec.2 _ _ hitem).not.mp (lt_irrefl _))
    · exact (hspec'.2 _ _ hitem).mp (by omega)
  · rintro ⟨date, hdate, hfirst, hbefore⟩
    obtain ⟨i, hi⟩ := List.mem_iff_getElem?.mp hdate
    have hstarted := (hspec.2 i date hi).not.mpr (not_lt.mpr hfirst)
    have hended := (hspec'.2 i date hi).mpr hbefore
    exact hasDate_of_positions hsorted hitem hlast (by omega)

end Fold

/-! ## The loop -/

section Loop

variable {dates : List Date} {holdoutStart : ℕ} {purge embargo : ℤ}

/-- The folds that a loop adds, which follow each other from its target on. -/
structure Added (dates : List Date) (holdoutStart : ℕ) (purge embargo : ℤ) (target : Date)
    (added : List WalkForwardFold) : Prop where
  placed : ∀ fold ∈ added, ∃ positions, Placed dates holdoutStart purge embargo fold positions ∧
    positions.testStart ≤ positions.testEnd
  start : ∀ fold ∈ added, ∀ position, atOrAfter dates target = some position →
    ∀ date, dates[position - 1]? = some date → 0 < position → date < fold.testStart
  tests : added.Pairwise (fun fold later => fold.testEnd < later.testStart)

theorem turn_positions (hsorted : dates.Pairwise (· < ·)) {index : ℕ} {target later : Date}
    {fold : Option WalkForwardFold}
    (h : turn dates holdoutStart purge embargo index target = .ok (.next fold later)) :
    target < later ∧ ∃ testStart testEnd, atOrAfter dates target = some testStart ∧
      atOrAfter dates later = some testEnd ∧ testStart ≤ testEnd := by
  have hnext := turn_next h
  obtain ⟨testStart, testEnd, hstart, hend, _⟩ := hnext.2
  have hlt := Date.lt_addMonths (by omega) hnext.1
  exact ⟨hlt, testStart, testEnd, hstart, hend, atOrAfter_mono hsorted hlt.le hstart hend⟩

theorem Added.nil (target : Date) : Added dates holdoutStart purge embargo target [] where
  placed := fun _ h => absurd h List.not_mem_nil
  start := fun _ h => absurd h List.not_mem_nil
  tests := List.Pairwise.nil

theorem Added.earlier (hsorted : dates.Pairwise (· < ·)) {target later : Date} {m n : ℕ}
    {added : List WalkForwardFold} (h : Added dates holdoutStart purge embargo later added)
    (hstart : atOrAfter dates target = some m) (hend : atOrAfter dates later = some n)
    (hmn : m ≤ n) : Added dates holdoutStart purge embargo target added where
  placed := h.placed
  start := by
    intro fold hfold position hposition date hdate hpos
    rw [hstart] at hposition
    cases hposition
    have hn := (atOrAfter_spec hsorted hend).1
    have hlast := List.getElem?_eq_getElem (Nat.lt_of_le_of_lt (Nat.sub_le n 1) hn)
    have hbefore := h.start fold hfold n hend _ hlast (by omega)
    exact ((le_iff_position hsorted hdate hlast).mpr (by omega)).trans_lt hbefore
  tests := h.tests

theorem Added.cons (hsorted : dates.Pairwise (· < ·)) (hembargo : 0 ≤ embargo) {target later : Date}
    {fold : WalkForwardFold} {positions : Positions} {added : List WalkForwardFold}
    (h : Added dates holdoutStart purge embargo later added)
    (hplaced : Placed dates holdoutStart purge embargo fold positions)
    (hstart : atOrAfter dates target = some positions.testStart)
    (hend : atOrAfter dates later = some positions.testEnd) (hle : positions.testStart ≤ positions.testEnd) :
    Added dates holdoutStart purge embargo target (fold :: added) := by
  have hrest := h.earlier hsorted hstart hend hle
  have hpos := hplaced.testEnd_pos hle hembargo
  constructor
  · intro other hother
    cases List.mem_cons.mp hother with
    | inl heq => exact ⟨positions, heq ▸ hplaced, hle⟩
    | inr hmem => exact h.placed other hmem
  · intro other hother
    cases List.mem_cons.mp hother with
    | inl heq =>
      intro position hposition date hdate hfirst
      rw [hstart] at hposition
      cases hposition
      rw [heq]
      exact (lt_iff_position hsorted hdate hplaced.testStart_item).mpr (by omega)
    | inr hmem => exact hrest.start other hmem
  · rw [List.pairwise_cons]
    refine ⟨?_, h.tests⟩
    intro other hother
    exact h.start other hother positions.testEnd hend _ (hplaced.testEnd_item hle hembargo) (by omega)

theorem foldLoop_spec (hsorted : dates.Pairwise (· < ·)) (hembargo : 0 ≤ embargo) {fuel : ℕ} :
    ∀ {target : Date} {folds result : List WalkForwardFold},
      foldLoop dates holdoutStart purge embargo fuel target folds = some (.ok result) →
      ∃ added, result = folds ++ added ∧ Added dates holdoutStart purge embargo target added ∧
        ((∀ fold ∈ added, HasDate dates fold.testStart fold.testEnd) ↔
          TestWindowsTraded dates holdoutStart purge embargo fuel target folds.length) := by
  induction fuel with
  | zero =>
    intro target folds result h
    cases h
  | succ fuel ih =>
    intro target folds result h
    unfold foldLoop at h
    unfold TestWindowsTraded
    cases hturn : turn dates holdoutStart purge embargo folds.length target with
    | error message =>
      rw [hturn] at h
      cases h
    | ok outcome =>
      cases outcome with
      | stop =>
        rw [hturn] at h
        cases h
        exact ⟨[], (List.append_nil _).symm, Added.nil target, by simp⟩
      | next fold later =>
        rw [hturn] at h
        dsimp only at h ⊢
        obtain ⟨added, hresult, hadded, htraded⟩ := ih h
        rw [List.length_append] at htraded
        obtain ⟨hlater, m, n, hm, hn, hmn⟩ := turn_positions hsorted hturn
        obtain ⟨_, testStart, testEnd, hstart, hend, hplaced⟩ := turn_next hturn
        cases fold with
        | none =>
          refine ⟨added, ?_, hadded.earlier hsorted hm hn hmn, ?_⟩
          · rw [hresult]
            simp
          · rw [htraded]
            simp
        | some fold =>
          obtain ⟨positions, hat, hs, he⟩ := hplaced fold rfl
          rw [← hs] at hstart
          rw [← he] at hend
          have hle := atOrAfter_mono hsorted hlater.le hstart hend
          refine ⟨fold :: added, ?_, hadded.cons hsorted hembargo hat hstart hend hle, ?_⟩
          · rw [hresult]
            simp
          · rw [List.forall_mem_cons, htraded,
              hat.hasDate_iff hsorted hembargo hlater.le hstart hend]
            simp

theorem foldLoop_terminates {fuel : ℕ} : ∀ {target : Date} {folds : List WalkForwardFold},
    120000 < target.months + fuel →
      foldLoop dates holdoutStart purge embargo fuel target folds ≠ none := by
  induction fuel with
  | zero =>
    intro target folds hfuel
    have hmonths := target.months_lt
    omega
  | succ fuel ih =>
    intro target folds hfuel
    unfold foldLoop
    cases hturn : turn dates holdoutStart purge embargo folds.length target with
    | error message => simp
    | ok outcome =>
      cases outcome with
      | stop => simp
      | next fold later =>
        apply ih
        have hmonths := Date.months_addMonths (turn_next hturn).1
        omega

end Loop

/-! ## The plan as a whole -/

variable {plan : WalkForwardPlan}

theorem finishPlan_ok {folds : List WalkForwardFold}
    (h : finishPlan dates holdoutStart purge embargo folds = .ok plan) :
    plan.folds = folds ∧ dates[holdoutStart]? = some plan.holdoutStart := by
  unfold finishPlan at h
  obtain ⟨start, hstart, h⟩ := bind_ok h
  obtain ⟨last, _, h⟩ := bind_ok h
  cases h
  exact ⟨rfl, itemAt_ok (Int.natCast_nonneg _) hstart⟩

theorem buildWalkForwardPlan_ok {tradingDates : List Date}
    (h : buildWalkForwardPlan tradingDates purge embargo = some (.ok plan)) :
    ∃ holdoutStart target, planBounds (ascending tradingDates) = .ok (holdoutStart, target) ∧
      foldLoop (ascending tradingDates) holdoutStart purge embargo maxTurns target [] =
        some (.ok plan.folds) ∧
      (ascending tradingDates)[holdoutStart]? = some plan.holdoutStart := by
  unfold buildWalkForwardPlan at h
  dsimp only at h
  split_ifs at h with hlength
  · cases h
  · cases hbounds : planBounds (ascending tradingDates) with
    | error message =>
      rw [hbounds] at h
      cases h
    | ok bounds =>
      obtain ⟨holdoutStart, target⟩ := bounds
      rw [hbounds] at h
      dsimp only at h
      refine ⟨holdoutStart, target, rfl, ?_⟩
      cases hloop : foldLoop (ascending tradingDates) holdoutStart purge embargo maxTurns target []
        with
      | none =>
        rw [hloop] at h
        cases h
      | some result =>
        cases result with
        | error message =>
          rw [hloop] at h
          cases h
        | ok folds =>
          rw [hloop] at h
          dsimp only at h
          split_ifs at h with hnil
          · cases h
          · have hfinish := finishPlan_ok (Option.some.inj h)
            rw [hfinish.1]
            exact ⟨rfl, hfinish.2⟩

theorem buildWalkForwardPlan_terminates (tradingDates : List Date) (purge embargo : ℤ) :
    buildWalkForwardPlan tradingDates purge embargo ≠ none := by
  unfold buildWalkForwardPlan
  dsimp only
  split_ifs with hlength
  · simp
  · cases planBounds (ascending tradingDates) with
    | error message => simp
    | ok bounds =>
      obtain ⟨holdoutStart, target⟩ := bounds
      dsimp only
      have hmonths : 120000 < target.months + maxTurns := by
        unfold maxTurns
        omega
      have hends := @foldLoop_terminates (ascending tradingDates) holdoutStart purge embargo maxTurns
        target [] hmonths
      cases hloop : foldLoop (ascending tradingDates) holdoutStart purge embargo maxTurns target []
        with
      | none => exact absurd hloop hends
      | some result =>
        cases result with
        | error message => simp
        | ok folds =>
          dsimp only
          split_ifs
          · simp
          · simp

theorem planSound_iff {tradingDates : List Date} (hpurge : horizon ≤ purge)
    (hembargo : horizon ≤ embargo)
    (h : buildWalkForwardPlan tradingDates purge embargo = some (.ok plan)) :
    PlanSound (ascending tradingDates) plan ↔ WindowsTraded tradingDates purge embargo := by
  have hsorted := sorted_ascending tradingDates
  have hembargo' : 0 ≤ embargo := by
    unfold horizon at hembargo
    omega
  obtain ⟨holdoutStart, target, hbounds, hloop, hholdout⟩ := buildWalkForwardPlan_ok h
  obtain ⟨added, hfolds, hadded, htraded⟩ := foldLoop_spec hsorted hembargo' hloop
  rw [List.nil_append] at hfolds
  unfold WindowsTraded
  rw [hbounds]
  dsimp only
  rw [← List.length_nil (α := WalkForwardFold), ← htraded, hfolds.symm]
  constructor
  · intro hsound fold hfold
    exact (hsound.folds fold hfold).test
  · intro hdates
    rw [← hfolds] at hadded
    constructor
    · intro fold hfold
      obtain ⟨positions, hat, _⟩ := hadded.placed fold hfold
      exact hat.sound hsorted hpurge hembargo (hdates fold hfold)
    · exact hadded.tests
    · intro fold hfold
      obtain ⟨positions, hat, hle⟩ := hadded.placed fold hfold
      have hpos := hat.testEnd_pos hle hembargo'
      have hbefore := hat.holdout
      exact (lt_iff_position hsorted (hat.testEnd_item hle hembargo') hholdout).mpr (by omega)

/-- The loop ends on every set of trading dates, and the plan with the default purge and embargo is
sound exactly when the three months of each of its test segments have a trading date. -/
theorem walkForwardPlan_sound_iff (tradingDates : List Date) :
    (∃ result, buildWalkForwardPlan tradingDates 5 5 = some result) ∧
      ∀ plan, buildWalkForwardPlan tradingDates 5 5 = some (.ok plan) →
        (PlanSound (ascending tradingDates) plan ↔ WindowsTraded tradingDates 5 5) := by
  constructor
  · exact Option.ne_none_iff_exists'.mp (buildWalkForwardPlan_terminates tradingDates 5 5)
  · intro plan hplan
    exact planSound_iff (by decide) (by decide) hplan

/-! ## Steady trading dates, and dates with a gap -/

/-- The first four weeks of a month. -/
def monthDates (year month : ℕ) (h : (1 ≤ year ∧ year ≤ 9999) ∧ 1 ≤ month ∧ month ≤ 12) :
    List Date :=
  (List.finRange 28).map (fun n =>
    { year := year
      month := month
      day := n.val + 1
      valid :=
        { years := h.1
          months := h.2
          days := by
            have hlength := Date.monthLength_pos year month
            omega } })

/-- The dates of so many months from a month on. -/
def monthsFrom (start count : ℕ) : List Date :=
  (List.range count).flatMap (fun n =>
    let total := start + n
    if h : (1 ≤ total / 12 ∧ total / 12 ≤ 9999) ∧ 1 ≤ total % 12 + 1 ∧ total % 12 + 1 ≤ 12 then
      monthDates (total / 12) (total % 12 + 1) h
    else [])

/-- From January 2010 to December 2016. -/
def steadyDates : List Date := monthsFrom (2010 * 12) 84

/-- From January 2010 to June 2015, and from January 2016 to June 2017. -/
def gapDates : List Date := monthsFrom (2010 * 12) 66 ++ monthsFrom (2016 * 12) 18

theorem months_of_mem_monthDates {year month : ℕ}
    {h : (1 ≤ year ∧ year ≤ 9999) ∧ 1 ≤ month ∧ month ≤ 12} (hdate : date ∈ monthDates year month h)
    : date.months = year * 12 + (month - 1) := by
  obtain ⟨n, _, rfl⟩ := List.mem_map.mp hdate
  rfl

theorem sorted_monthDates (year month : ℕ) (h : (1 ≤ year ∧ year ≤ 9999) ∧ 1 ≤ month ∧ month ≤ 12) :
    (monthDates year month h).Pairwise (· < ·) := by
  unfold monthDates
  rw [List.pairwise_map]
  apply (List.pairwise_lt_finRange 28).imp
  intro m n hmn
  have hmn' : m.val < n.val := hmn
  rw [Date.lt_iff]
  simp only [Date.stamp, Date.months]
  omega

theorem months_of_mem_monthsFrom {start count : ℕ} (h : date ∈ monthsFrom start count) :
    start ≤ date.months ∧ date.months < start + count := by
  obtain ⟨n, hn, hdate⟩ := List.mem_flatMap.mp h
  have hcount := List.mem_range.mp hn
  dsimp only at hdate
  split_ifs at hdate with hmonth
  · rw [months_of_mem_monthDates hdate]
    omega
  · exact absurd hdate List.not_mem_nil

theorem sorted_monthsFrom (start count : ℕ) : (monthsFrom start count).Pairwise (· < ·) := by
  unfold monthsFrom
  rw [List.pairwise_flatMap]
  constructor
  · intro n _
    dsimp only
    split_ifs with hmonth
    · exact sorted_monthDates _ _ hmonth
    · exact List.Pairwise.nil
  · apply List.pairwise_lt_range.imp
    intro m n hmn date hdate later hlater
    dsimp only at hdate hlater
    split_ifs at hdate with hmonth
    · split_ifs at hlater with hmonth'
      · apply Date.lt_of_months
        rw [months_of_mem_monthDates hdate, months_of_mem_monthDates hlater]
        omega
      · exact absurd hlater List.not_mem_nil
    · exact absurd hdate List.not_mem_nil

theorem ascending_steadyDates : ascending steadyDates = steadyDates := by
  apply ascending_of_sorted
  unfold steadyDates
  exact sorted_monthsFrom _ _

theorem ascending_gapDates : ascending gapDates = gapDates := by
  apply ascending_of_sorted
  unfold gapDates
  rw [List.pairwise_append]
  refine ⟨sorted_monthsFrom _ _, sorted_monthsFrom _ _, ?_⟩
  intro date hdate later hlater
  have hmonths := months_of_mem_monthsFrom hdate
  have hmonths' := months_of_mem_monthsFrom hlater
  exact Date.lt_of_months (by omega)

def planOf : Option (Except String WalkForwardPlan) → Option WalkForwardPlan
  | some (.ok plan) => some plan
  | _ => none

theorem planOf_some {result : Option (Except String WalkForwardPlan)}
    (h : planOf result = some plan) : result = some (.ok plan) := by
  cases result with
  | none => cases h
  | some result =>
    cases result with
    | error message => cases h
    | ok other =>
      cases h
      rfl

instance decidableTestWindowsTraded (dates : List Date) (holdoutStart : ℕ) (purge embargo : ℤ) :
    ∀ fuel target index,
      Decidable (TestWindowsTraded dates holdoutStart purge embargo fuel target index)
  | 0, _, _ => .isTrue trivial
  | fuel + 1, target, index =>
    have := decidableTestWindowsTraded dates holdoutStart purge embargo fuel
    match h : turn dates holdoutStart purge embargo index target with
    | .ok (.next fold later) =>
      decidable_of_iff ((fold.isSome → dates.any (fun date => target ≤ date ∧ date < later)) ∧
        TestWindowsTraded dates holdoutStart purge embargo fuel later (index + fold.toList.length))
        (by rw [TestWindowsTraded, h]; simp)
    | .ok .stop | .error _ => .isTrue (by rw [TestWindowsTraded, h]; trivial)

theorem traded_iff {bounds : Except String (ℕ × Date)} {dates : List Date} {turns : ℕ}
    {purge embargo : ℤ} :
    (match bounds with
      | .error _ => True
      | .ok (holdoutStart, target) =>
        TestWindowsTraded dates holdoutStart purge embargo turns target 0) ↔
      OnOk (fun bounds => TestWindowsTraded dates bounds.1 purge embargo turns bounds.2 0)
        bounds := by
  cases bounds <;> exact Iff.rfl

theorem windowsTraded_iff {tradingDates : List Date} {purge embargo : ℤ} :
    WindowsTraded tradingDates purge embargo ↔ OnOk (fun bounds => TestWindowsTraded
      (ascending tradingDates) bounds.1 purge embargo maxTurns bounds.2 0)
      (planBounds (ascending tradingDates)) := traded_iff

theorem steadyDates_sound : ∃ plan, buildWalkForwardPlan steadyDates 5 5 = some (.ok plan) ∧
    PlanSound (ascending steadyDates) plan := by
  have hplan : (planOf (buildWalkForwardPlan steadyDates 5 5)).isSome = true := by
    unfold buildWalkForwardPlan
    rw [ascending_steadyDates]
    decide +kernel
  obtain ⟨plan, hsome⟩ := Option.isSome_iff_exists.mp hplan
  refine ⟨plan, planOf_some hsome,
    ((walkForwardPlan_sound_iff steadyDates).2 plan (planOf_some hsome)).mpr ?_⟩
  rw [windowsTraded_iff, ascending_steadyDates]
  decide +kernel

theorem gapDates_plan : (planOf (buildWalkForwardPlan gapDates 5 5)).any (fun plan =>
    plan.folds.any (fun fold => fold.testEnd < fold.testStart)) = true := by
  unfold buildWalkForwardPlan
  rw [ascending_gapDates]
  decide +kernel

theorem gapDates_unsound : 252 * 7 ≤ (ascending gapDates).length ∧
    ∃ plan, buildWalkForwardPlan gapDates 5 5 = some (.ok plan) ∧
      ¬ PlanSound (ascending gapDates) plan := by
  obtain ⟨plan, hsome, hany⟩ := (Option.any_eq_true _ _).mp gapDates_plan
  constructor
  · rw [ascending_gapDates]
    decide +kernel
  · refine ⟨plan, planOf_some hsome, ?_⟩
    intro hsound
    obtain ⟨fold, hfold, hlt⟩ := List.any_eq_true.mp hany
    obtain ⟨date, _, hfirst, hlast⟩ := (hsound.folds fold hfold).test
    have hlt' : fold.testEnd < fold.testStart := of_decide_eq_true hlt
    exact absurd (hfirst.trans hlast) (not_le.mpr hlt')

end LocalPlatform.Ml
