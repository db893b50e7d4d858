import LocalPlatform.Experiments.Batches

/-!
# The selection of a window

`_advance_walk_forward_selection` looks at every window of a batch.  Once all
validation items of a window have succeeded with a value of the objective, one
transaction ranks them, writes the selection event, releases the
out-of-sample item of the best candidate and skips the others.

* `rankValidation` is the ranking, or nothing when the window is passed over.
* `freezeWindow` is the transaction.  It passes a window that has an event.
* `advanceSelection` runs it over the windows in the order of their first items.
-/

namespace LocalPlatform.Experiments

open Floats Paper Transaction

/-! ## The ranking -/

/-- `int(x)`, which raises on an infinity and on `nan`. -/
def pyInt (x : PyFloat) : Except BatchError Int :=
  match x.toInt? with
  | some n => .ok n
  | none =>
    if x = .nan then .error (.valueError "cannot convert float NaN to integer")
    else .error (.overflowError "cannot convert float infinity to integer")

/-- `_validation_metrics` -/
def validationMetrics (statistics : Statistics) : Except BatchError ValidationMetrics :=
  let violations :=
    number (metric statistics ["Constraint Violations", "ConstraintViolations"])
  match pyInt (violations.getD (.real 0)) with
  | .error e => .error e
  | .ok constraintViolations =>
    .ok
      { totalReturn := number (metric statistics
          ["Net Profit", "Compounding Annual Return", "Total Return"])
        sharpe := number (metric statistics ["Sharpe Ratio", "Sharpe"])
        drawdown := number (metric statistics ["Drawdown", "Maximum Drawdown"])
        trades := number (metric statistics ["Total Orders", "Total Trades"])
        turnover := number (metric statistics ["Portfolio Turnover", "Turnover"])
        constraintViolations := constraintViolations }

/-- `metrics[objective]` -/
def ValidationMetrics.value (metrics : ValidationMetrics) : Objective → Option PyFloat
  | .sharpe => metrics.sharpe
  | .totalReturn => metrics.totalReturn
  | .drawdown => metrics.drawdown

/-- `_objective_score` of a value. -/
def objectiveScore (objective : Objective) : Option PyFloat → PyFloat
  | none => .negInf
  | some value => if objective = .drawdown then value.abs.neg else value

/-- The row of a validation item. -/
def rankingRow (item : BatchItem) : Except BatchError RankingRow :=
  match validationMetrics item.statistics with
  | .error e => .error e
  | .ok metrics =>
    .ok { candidateKey := item.candidate, parameters := item.overrides, metrics := metrics }

/-- The sort key of a ranking. -/
structure SortKey where
  score : PyFloat
  drawdown : PyFloat
  turnover : PyFloat
  candidateKey : String
  deriving DecidableEq

def RankingRow.sortKey (row : RankingRow) (objective : Objective) : SortKey where
  score := (objectiveScore objective (row.metrics.value objective)).neg
  drawdown := (row.metrics.drawdown.getD (.real 0)).abs
  turnover := row.metrics.turnover.getD (.real 0)
  candidateKey := row.candidateKey

/-- `a < b` on the tuples of two keys: the first components that differ decide. -/
def SortKey.lt (a b : SortKey) : Bool :=
  if !a.score.same b.score then a.score.lt b.score
  else if !a.drawdown.same b.drawdown then a.drawdown.lt b.drawdown
  else if !a.turnover.same b.turnover then a.turnover.lt b.turnover
  else a.candidateKey < b.candidateKey

/-- `ranked.sort(key=...)`, which is stable. -/
def sortRanking (objective : Objective) (rows : List RankingRow) : List RankingRow :=
  rows.mergeSort (fun a b => !(b.sortKey objective).lt (a.sortKey objective))

/-- The ranking of the validation items of a window, if the window is ready. -/
def rankValidation (objective : Objective) (validation : List BatchItem) :
    Except BatchError (Option (List RankingRow)) :=
  if validation.isEmpty ∨ validation.any (fun item => item.status ∉ terminal) then .ok none
  else if validation.any (fun item => item.status ≠ .success) then .ok none
  else
    match validation.mapM rankingRow with
    | .error e => .error e
    | .ok rows =>
      let ranked := rows.filter (fun row => (row.metrics.value objective).isSome)
      if ranked.length ≠ validation.length then .ok none
      else .ok (some (sortRanking objective ranked))

theorem mapM_rankingRow : ∀ {validation : List BatchItem} {rows : List RankingRow},
    validation.mapM rankingRow = .ok rows →
      List.Forall₂ (fun item row => rankingRow item = .ok row) validation rows := by
  intro validation
  induction validation with
  | nil =>
    intro rows h
    rw [← Except.ok.inj h]
    exact .nil
  | cons item rest ih =>
    intro rows h
    rw [List.mapM_cons] at h
    cases hrow : rankingRow item with
    | error e =>
      rw [hrow] at h
      cases h
    | ok row =>
      cases hrest : rest.mapM rankingRow with
      | error e =>
        rw [hrow, hrest] at h
        cases h
      | ok rows' =>
        rw [hrow, hrest] at h
        rw [← Except.ok.inj h]
        exact .cons hrow (ih hrest)

theorem rankValidation_some {objective : Objective} {validation : List BatchItem}
    {ranking : List RankingRow} (h : rankValidation objective validation = .ok (some ranking)) :
    validation ≠ [] ∧ (∀ item ∈ validation, item.status = .success) ∧
      ∃ rows, validation.mapM rankingRow = .ok rows ∧
        (∀ row ∈ rows, (row.metrics.value objective).isSome) ∧
          ranking = sortRanking objective rows := by
  unfold rankValidation at h
  split_ifs at h with hempty hsuccess
  · cases h
  · cases h
  · split at h
    · cases h
    · rename_i rows hrows
      simp only at h
      split_ifs at h with hlength
      · cases h
      · have hall : rows.filter (fun row => (row.metrics.value objective).isSome) = rows := by
          apply List.filter_eq_self.mpr
          apply List.length_filter_eq_length_iff.mp
          rw [not_not.mp hlength, (mapM_rankingRow hrows).length_eq]
        rw [hall] at h
        refine ⟨?_, ?_, rows, hrows, ?_, ?_⟩
        · rintro rfl
          exact hempty (Or.inl rfl)
        · intro item hitem
          by_contra hother
          exact hsuccess (List.any_eq_true.mpr ⟨item, hitem, decide_eq_true hother⟩)
        · exact List.filter_eq_self.mp hall
        · exact (Option.some.inj (Except.ok.inj h)).symm

/-! ## The transaction of a window -/

def tieBreakRule : String := "minDrawdown,minTurnover,candidateKey"

/-- The update of `parameter_candidates` for a row and its rank. -/
def storeCandidate (key : WindowKey) (candidates : List Candidate) (ranked : RankingRow × Nat) :
    Except BatchError (List Candidate) :=
  let row := ranked.1
  let rank := ranked.2 + 1
  if ¬ candidates.any (fun candidate => candidate.window == key &&
      candidate.candidateKey == row.candidateKey) then .error (.keyError row.candidateKey)
  else
    match row.metrics.trades.mapM pyInt with
    | .error e => .error e
    | .ok trades =>
      .ok (candidates.map (fun candidate =>
        if candidate.window = key ∧ candidate.candidateKey = row.candidateKey then
          { candidate with
            validation := some row.metrics
            tradeCount := trades
            selected := rank == 1
            notSelectedReason := if rank = 1 then none else some s!"validation_rank_{rank}" }
        else candidate))

/-- The payload of the selection fingerprint. -/
def selectionPayload (objective : Objective) (key : WindowKey) (ranking : List RankingRow) :
    SelectionPayload where
  windowId := key
  metric := objective.selectionMetric
  tieBreak := tieBreakRule
  ranking := ranking

/-- The row of a selection event. -/
def selectionEvent (objective : Objective) (key : WindowKey) (selected : RankingRow)
    (ranking : List RankingRow) : SelectionEvent where
  window := key
  selectedCandidate := selected.candidateKey
  selectionMetric := objective.selectionMetric
  tieBreakRule := tieBreakRule
  selectedParameters := selected.parameters
  candidateRanking := ranking
  fingerprint := selectionPayload objective key ranking

/-- An out-of-sample item is released or skipped, if it is still blocked. -/
def releaseItem (selectedKey : String) (oosItems : List BatchItem) (row : BatchItem) : BatchItem :=
  match oosItems.find? (fun item => item.id == row.id) with
  | none => row
  | some item =>
    if row.status ≠ .blockedSelection then row
    else if item.candidate = selectedKey then { row with status := .pending, error := none }
    else { row with status := .skipped, error := some "not_selected_by_validation" }

/-- What the transaction writes for the selected row. -/
def storeSelection (objective : Objective) (key : WindowKey) (oosItems : List BatchItem)
    (selected : RankingRow) (ranking : List RankingRow) (candidates : List Candidate)
    (db : ExperimentDb) : Except BatchError ExperimentDb :=
  match (oosItems.filter (fun item => item.candidate == selected.candidateKey)).getLast? with
  | none =>
    .error (.leanWebError s!"Selected candidate has no OOS item for fold {key.fold}.")
  | some selectedOos =>
    let oosInput : OosInput :=
      { window := key
        selection := some (selectionPayload objective key ranking, selected.parameters) }
    .ok
      { db with
        items := db.items.map (releaseItem selected.candidateKey oosItems)
        candidates := candidates
        events := db.events ++ [selectionEvent objective key selected ranking]
        windows := db.windows.map (fun window =>
          if window.key = key then
            { window with status := "PARAMETER_FROZEN", oosInput := oosInput }
          else window)
        evaluations := db.evaluations ++
          [{ window := key
             selectedCandidate := selected.candidateKey
             oosItemId := selectedOos.id
             oosInput := oosInput }]
        walkForwardRun := db.walkForwardRun.map (fun run =>
          { run with status := "OOS_PENDING" }) }

/-- The transaction of a window of `items`.  It answers whether it froze the
window. -/
def freezeWindow (objective : Objective) (items : List BatchItem) (key : WindowKey)
    (db : ExperimentDb) : Except BatchError (Bool × ExperimentDb) :=
  match rankValidation objective (phaseItems items key "validation") with
  | .error e => .error e
  | .ok none => .ok (false, db)
  | .ok (some ranking) =>
    match ranking with
    | [] => .ok (false, db)
    | selected :: _ =>
      if ¬ db.windows.any (fun window => window.key == key) then .ok (false, db)
      else if (db.event key).isSome then .ok (false, db)
      else
        match ranking.zipIdx.foldlM (storeCandidate key) db.candidates with
        | .error e => .error e
        | .ok candidates =>
          match storeSelection objective key (phaseItems items key "oos") selected ranking
              candidates db with
          | .error e => .error e
          | .ok db' => .ok (true, db')

/-- `_advance_walk_forward_selection` -/
def advanceSelection (batch : Batch) (items : List BatchItem) : TxM ExperimentDb BatchError Bool :=
  if batch.mode ≠ "walk_forward" ∨ batch.cancelRequested then pure false
  else do
    let changed ← TxM.forEach (fun key => TxM.tx (freezeWindow batch.objective items key))
      (groupKeys items)
    pure (changed.any id)

end LocalPlatform.Experiments
