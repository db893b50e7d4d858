import LocalPlatform.Experiments.Noninterference

/-!
# The walk-forward list of a summary

`_summary` names a selected candidate for every fold, next to the selection that
`_advance_walk_forward_selection` froze for every window of the fold.  The two
choose by different rules.

* `walkForward` is the list.  It takes the first maximum of the objective over
  all validation items of a fold.  The other lists of a summary are not kept.
* `FirstBest` says which item that is, in the order of the items.
* `ReportsFrozen` says that every entry names what was frozen.  It is so exactly
  when `TiesFall`: no item of its window comes before the first best item by the
  drawdown, the turnover and the key, which the summary does not look at.
* `Decided` says that no comparison these choices depend on meets a `nan`.
-/

namespace LocalPlatform.Experiments

open Floats Paper Transaction Machines Tables Rankings

/-! ## `_summary` -/

/-- A row of the ranking of a summary. -/
structure SummaryRow where
  itemId : Nat
  runId : Option String
  projectId : String
  symbol : String
  status : ItemStatus
  candidateKey : Option String
  overrides : Overrides
  fold : Option Int
  phase : String
  sharpe : Option PyFloat
  totalReturn : Option PyFloat
  drawdown : Option PyFloat
  trades : StatValue
  error : Option String
  deriving DecidableEq

def summaryRow (item : BatchItem) : SummaryRow where
  itemId := item.id
  runId := item.relatedId
  projectId := item.projectId
  symbol := item.symbol
  status := item.status
  candidateKey := item.candidateKey
  overrides := item.overrides
  fold := item.fold
  phase := item.phase
  sharpe := number (metric item.statistics ["Sharpe Ratio", "Sharpe"])
  totalReturn := number (metric item.statistics
    ["Net Profit", "Compounding Annual Return", "Total Return"])
  drawdown := number (metric item.statistics ["Drawdown", "Maximum Drawdown"])
  trades := metric item.statistics ["Total Orders", "Total Trades"]
  error := item.error

/-- `_objective_value` -/
def SummaryRow.value (row : SummaryRow) : Objective → Option PyFloat
  | .sharpe => row.sharpe
  | .totalReturn => row.totalReturn
  | .drawdown => row.drawdown

/-- `_objective_score` -/
def SummaryRow.score (objective : Objective) (row : SummaryRow) : PyFloat :=
  objectiveScore objective (row.value objective)

/-- `ranked.sort(key=..., reverse=True)`, which is stable. -/
def rankedRows (objective : Objective) (items : List BatchItem) : List SummaryRow :=
  (items.map summaryRow).mergeSort (fun a b => !(a.score objective).lt (b.score objective))

/-- The folds that have validation items, in order. -/
def validationFolds (ranked : List SummaryRow) : List Int :=
  ((ranked.filter (fun row => row.phase == "validation")).filterMap
    SummaryRow.fold).eraseDups.mergeSort (fun a b => decide (a ≤ b))

def selectable (objective : Objective) (fold : Int) (row : SummaryRow) : Bool :=
  row.fold == some fold && row.phase == "validation" && row.status == .success &&
    (row.value objective).isSome

/-- `max(validation, key=..., default=None)` -/
def selectedRow (objective : Objective) (ranked : List SummaryRow) (fold : Int) :
    Option SummaryRow :=
  firstMax (fun best row => (best.score objective).lt (row.score objective))
    (ranked.filter (selectable objective fold))

/-- `selected_phase` -/
def selectedPhase (ranked : List SummaryRow) (fold : Int) (selected : SummaryRow)
    (phase : String) : Option SummaryRow :=
  ranked.find? (fun row => row.fold == some fold && row.phase == phase &&
    row.projectId == selected.projectId && row.symbol == selected.symbol &&
    row.candidateKey == selected.candidateKey)

/-- An entry of the `walkForward` list. -/
structure WalkForwardEntry where
  fold : Int
  selectionMetric : String
  selected : Overrides
  trainSharpe : Option PyFloat
  validationSharpe : Option PyFloat
  oosSharpe : Option PyFloat
  trainRunId : Option String
  validationRunId : Option String
  oosRunId : Option String
  deriving DecidableEq

def walkForwardEntry (objective : Objective) (ranked : List SummaryRow) (fold : Int)
    (selected : SummaryRow) : WalkForwardEntry :=
  let train := selectedPhase ranked fold selected "train"
  let oos := selectedPhase ranked fold selected "oos"
  { fold := fold
    selectionMetric := objective.selectionMetric
    selected := selected.overrides
    trainSharpe := train.bind SummaryRow.sharpe
    validationSharpe := selected.sharpe
    oosSharpe := oos.bind SummaryRow.sharpe
    trainRunId := train.bind SummaryRow.runId
    validationRunId := selected.runId
    oosRunId := oos.bind SummaryRow.runId }

/-- The `walkForward` list of `_summary`. -/
def walkForward (objective : Objective) (items : List BatchItem) : List WalkForwardEntry :=
  let ranked := rankedRows objective items
  (validationFolds ranked).filterMap (fun fold =>
    (selectedRow objective ranked fold).map (walkForwardEntry objective ranked fold))

/-! ## What an entry names -/

def SummaryRow.windowOf (row : SummaryRow) (fold : Int) : WindowKey where
  projectId := row.projectId
  symbol := row.symbol
  fold := fold

/-- The entry of a row names the candidate that was frozen for the window of the
row, its parameters, and the run of the out-of-sample item that was released. -/
def NamesFrozen (db : ExperimentDb) (key : WindowKey) (row : SummaryRow)
    (entry : WalkForwardEntry) : Prop :=
  ∃ event, db.event key = some event ∧ row.candidateKey = some event.selectedCandidate ∧
    entry.selected = event.selectedParameters ∧
    ∃ released ∈ phaseItems db.items key "oos",
      released.candidate = event.selectedCandidate ∧ entry.oosRunId = released.relatedId

/-- Every entry is about a row, and names what was frozen for its window. -/
def ReportsFrozen (db : ExperimentDb) : Prop :=
  ∀ entry ∈ walkForward db.batch.objective db.items, ∃ row,
    selectedRow db.batch.objective (rankedRows db.batch.objective db.items) entry.fold =
      some row ∧
    entry = walkForwardEntry db.batch.objective (rankedRows db.batch.objective db.items)
      entry.fold row ∧
    NamesFrozen db (row.windowOf entry.fold) row entry

/-- The window was frozen from its validation items as they are. -/
def SelectedFrom (db : ExperimentDb) (key : WindowKey) (event : SelectionEvent) : Prop :=
  db.event key = some event ∧ ∃ selected ranking,
    rankValidation db.batch.objective (phaseItems db.items key "validation") =
      .ok (some ranking) ∧ ranking.head? = some selected ∧
    event = selectionEvent db.batch.objective key selected ranking

/-- The first of the best validation items of a fold, in the order of the items. -/
def FirstBest (objective : Objective) (items : List BatchItem) (fold : Int)
    (item : BatchItem) : Prop :=
  ∃ before after, items = before ++ item :: after ∧
    selectable objective fold (summaryRow item) = true ∧
    (∀ other ∈ before, selectable objective fold (summaryRow other) = true →
      ((summaryRow other).score objective).lt ((summaryRow item).score objective) = true) ∧
    ∀ other ∈ after, selectable objective fold (summaryRow other) = true →
      ((summaryRow item).score objective).lt ((summaryRow other).score objective) = false

/-- No item of its window comes before the first best item of a fold in the order
that a selection ranks by. -/
def TiesFall (objective : Objective) (items : List BatchItem) : Prop :=
  ∀ fold item, FirstBest objective items fold item →
    ∀ other ∈ items, other.phase = "validation" → other.window = item.window →
      ∀ row otherRow, rankingRow item = .ok row → rankingRow other = .ok otherRow →
        (otherRow.sortKey objective).lt (row.sortKey objective) = false

def NoNan (objective : Objective) (items : List BatchItem) : Prop :=
  ∀ item ∈ items, (summaryRow item).value objective ≠ some .nan

instance (objective : Objective) (items : List BatchItem) : Decidable (NoNan objective items) :=
  inferInstanceAs (Decidable (∀ item ∈ items, (summaryRow item).value objective ≠ some .nan))

/-- No comparison that decides between the validation items of a fold meets a `nan`. -/
structure Decided (objective : Objective) (items : List BatchItem) : Prop where
  /-- Where a fold has two items, none of them has the value `nan`. -/
  values : ∀ fold, ∀ a ∈ items, ∀ b ∈ items, a ≠ b →
    selectable objective fold (summaryRow a) = true →
    selectable objective fold (summaryRow b) = true → (summaryRow a).value objective ≠ some .nan
  /-- Where two are best, no item has, for the summary sorts all items. -/
  ranked : ∀ fold item, FirstBest objective items fold item →
    ∀ other ∈ items, other ≠ item → selectable objective fold (summaryRow other) = true →
      ((summaryRow other).score objective).lt ((summaryRow item).score objective) = true ∨
        NoNan objective items
  /-- The first best item compares with the others of its window. -/
  ties : ∀ fold item, FirstBest objective items fold item → ∀ row, rankingRow item = .ok row →
    ∀ other ∈ rowsOf (viewsOf items ((summaryRow item).windowOf fold)), other ≠ row →
      SortKey.Compares (other.sortKey objective) (row.sortKey objective)

/-! ## The items of a plan -/

theorem window_some {item : BatchItem} {key : WindowKey} (h : item.window = some key) :
    item.fold = some key.fold ∧ item.projectId = key.projectId ∧ item.symbol = key.symbol := by
  unfold BatchItem.window at h
  split at h
  · cases h
  · rename_i fold hfold
    split_ifs at h
    rw [← Option.some.inj h]
    exact ⟨hfold, rfl, rfl⟩

theorem window_of_fold {item : BatchItem} {fold : Int} (hfold : item.fold = some fold)
    (hphase : item.phase ∈ windowPhases) :
    item.window = some { projectId := item.projectId, symbol := item.symbol, fold := fold } := by
  unfold BatchItem.window
  rw [hfold]
  exact if_pos hphase

section Plan

variable {kind : String} {objective : Option String} {projects symbols : List String}
  {folds : List Int} {candidates : String → List (String × Overrides)} {start : ExperimentDb}
  {items : List BatchItem}

theorem candidateKey_of_createBatch
    (hcreate : createBatch kind objective (expandWalkForward projects symbols folds candidates) =
      .ok start)
    (hitems : planOf items = planOf start.items) {item : BatchItem} (hmem : item ∈ items) :
    item.candidateKey = some item.candidate := by
  obtain ⟨planned, hplanned, hplan⟩ := mem_of_planOf hitems hmem
  rw [(createBatch_ok hcreate).1] at hplanned
  obtain ⟨⟨row, i⟩, hrow, rfl⟩ := List.mem_map.mp hplanned
  have hplannedRow := List.fst_mem_of_mem_zipIdx hrow
  simp only [expandWalkForward, List.mem_flatMap, List.mem_map] at hplannedRow
  obtain ⟨projectId, -, symbol, -, fold, -, phase, -, candidate, -, hrowEq⟩ := hplannedRow
  have hkey : item.candidateKey = some (firstText [some candidate.1, some "base"]) := by
    rw [← show (newItem (row, i)).candidateKey = item.candidateKey from
      congrArg ItemPlan.candidateKey hplan]
    show some row.candidateKey = _
    rw [← hrowEq]
  unfold BatchItem.candidate
  rw [hkey]
  have hnonempty : firstText [some candidate.1, some "base"] ≠ "" :=
    firstText_ne_empty (by decide) [some candidate.1]
  generalize firstText [some candidate.1, some "base"] = name at hnonempty
  rw [firstText, if_neg hnonempty]

theorem itemKey_nodup {planned : List PlannedItem} (hcreate : createBatch kind objective planned =
      .ok start) (hitems : planOf items = planOf start.items) :
    (items.map BatchItem.itemKey).Nodup := by
  have hkeys : ∀ l : List BatchItem, l.map BatchItem.itemKey = (planOf l).map (fun plan =>
      (plan.projectId, plan.symbol, plan.fold, plan.phase, plan.candidateKey)) := by
    intro l
    unfold planOf
    rw [List.map_map]
    rfl
  rw [hkeys, hitems, ← hkeys]
  unfold createBatch at hcreate
  simp only at hcreate
  split_ifs at hcreate with hnodup
  split at hcreate
  · cases hcreate
  · rw [← Except.ok.inj hcreate]
    exact hnodup

theorem item_eq
    (hcreate : createBatch kind objective (expandWalkForward projects symbols folds candidates) =
      .ok start)
    (hitems : planOf items = planOf start.items) {a b : BatchItem} (ha : a ∈ items)
    (hb : b ∈ items) {key : WindowKey} (hwindow : a.window = some key)
    (hwindow' : b.window = some key) (hphase : a.phase = b.phase)
    (hcandidate : a.candidate = b.candidate) : a = b := by
  refine List.inj_on_of_nodup_map (itemKey_nodup hcreate hitems) ha hb ?_
  obtain ⟨hfold, hproject, hsymbol⟩ := window_some hwindow
  obtain ⟨hfold', hproject', hsymbol'⟩ := window_some hwindow'
  unfold BatchItem.itemKey
  rw [hfold, hfold', hproject, hproject', hsymbol, hsymbol', hphase,
    candidateKey_of_createBatch hcreate hitems ha, candidateKey_of_createBatch hcreate hitems hb,
    hcandidate]

theorem items_nodup {planned : List PlannedItem}
    (hcreate : createBatch kind objective planned = .ok start)
    (hitems : planOf items = planOf start.items) : (items.map summaryRow).Nodup := by
  have hunique := unique_of_planOf hitems (quarantine_created hcreate).1.ids
  unfold Tables.Unique at hunique
  have hids : items.map BatchItem.id = (items.map summaryRow).map SummaryRow.itemId := by
    rw [List.map_map]
    rfl
  rw [hids] at hunique
  exact hunique.of_map _

end Plan

/-! ## Rows -/

theorem rankingRow_ok {item : BatchItem} {row : RankingRow} (h : rankingRow item = .ok row) :
    row.candidateKey = item.candidate ∧ row.parameters = item.overrides ∧
      (∀ objective, row.metrics.value objective = (summaryRow item).value objective) ∧
      row.metrics.drawdown = (summaryRow item).drawdown ∧
      row.metrics.turnover =
        number (metric item.statistics ["Portfolio Turnover", "Turnover"]) := by
  unfold rankingRow at h
  split at h
  · cases h
  · rename_i metrics hmetrics
    rw [← Except.ok.inj h]
    unfold validationMetrics at hmetrics
    simp only at hmetrics
    split at hmetrics
    · cases hmetrics
    · rw [← Except.ok.inj hmetrics]
      refine ⟨rfl, rfl, fun objective => ?_, rfl, rfl⟩
      cases objective <;> rfl

section Rows

variable {objective : Objective} {items : List BatchItem}

/-- The place of a row in the ranking of a summary. -/
def scoreLevel (objective : Objective) (row : SummaryRow) : (ℤ ×ₗ ℚ)ᵒᵈ :=
  OrderDual.toDual (row.score objective).level

theorem score_ne_nan {row : SummaryRow} (h : row.value objective ≠ some .nan) :
    row.score objective ≠ .nan := by
  unfold SummaryRow.score
  cases hcase : row.value objective with
  | none => exact fun h => by cases h
  | some value =>
    rw [hcase] at h
    have hnan : value ≠ .nan := fun heq => h (by rw [heq])
    show (if objective = .drawdown then value.abs.neg else value) ≠ .nan
    split_ifs
    · simpa using hnan
    · exact hnan

theorem NoNan.rankedRows (h : NoNan objective items) :
    rankedRows objective items = rank (scoreLevel objective) (items.map summaryRow) := by
  refine mergeSort_eq_rank (fun a ha b hb => ?_)
  obtain ⟨itemA, hitemA, rfl⟩ := List.mem_map.mp ha
  obtain ⟨itemB, hitemB, rfl⟩ := List.mem_map.mp hb
  have hlt := PyFloat.lt_iff (score_ne_nan (h _ hitemA)) (score_ne_nan (h _ hitemB))
  rw [Bool.eq_iff_iff, Bool.not_eq_true', decide_eq_true_iff, ← Bool.not_eq_true, hlt, not_lt]
  rfl

theorem NoNan.selectedRow (h : NoNan objective items) (fold : Int) :
    selectedRow objective (Experiments.rankedRows objective items) fold =
      ((rank (scoreLevel objective) (items.map summaryRow)).filter
        (selectable objective fold)).head? := by
  unfold Experiments.selectedRow
  rw [h.rankedRows]
  have hpairwise := (rank_pairwise (scoreLevel objective) (items.map summaryRow)).filter
    (selectable objective fold)
  cases hrows : (rank (scoreLevel objective) (items.map summaryRow)).filter
      (selectable objective fold) with
  | nil => rfl
  | cons row rest =>
    rw [hrows] at hpairwise
    have hmem : ∀ other ∈ row :: rest, other.score objective ≠ .nan := by
      intro other hother
      rw [← hrows] at hother
      have hrow := (rank_perm _ _).subset (List.mem_filter.mp hother).1
      obtain ⟨item, hitem, rfl⟩ := List.mem_map.mp hrow
      exact score_ne_nan (h item hitem)
    refine firstMax_cons (fun other hother => ?_)
    have hle : scoreLevel objective row ≤ scoreLevel objective other :=
      List.rel_of_pairwise_cons hpairwise hother
    rw [← Bool.not_eq_true, PyFloat.lt_iff (hmem row List.mem_cons_self)
      (hmem other (List.mem_cons_of_mem _ hother)), not_lt]
    exact hle

theorem Decided.lt_iff (h : Decided objective items) {fold : Int} {a b : BatchItem} (ha : a ∈ items)
    (hb : b ∈ items) (hne : a ≠ b) (hselA : selectable objective fold (summaryRow a) = true)
    (hselB : selectable objective fold (summaryRow b) = true) :
    ((summaryRow a).score objective).lt ((summaryRow b).score objective) = true ↔
      scoreLevel objective (summaryRow b) < scoreLevel objective (summaryRow a) :=
  PyFloat.lt_iff (score_ne_nan (h.values fold a ha b hb hne hselA hselB))
    (score_ne_nan (h.values fold b hb a ha hne.symm hselB hselA))

theorem Decided.firstBest_iff (h : Decided objective items)
    (hnodup : (items.map summaryRow).Nodup) {fold : Int} {row : SummaryRow} :
    FirstLeast (scoreLevel objective) (selectable objective fold) (items.map summaryRow) row ↔
      ∃ item, row = summaryRow item ∧ FirstBest objective items fold item := by
  have hsplit : ∀ {before after : List BatchItem} {item : BatchItem},
      items = before ++ item :: after →
      (∀ other ∈ before, other ≠ item) ∧ ∀ other ∈ after, other ≠ item := by
    rintro before after item rfl
    have hitems := List.nodup_append.mp hnodup.of_map
    refine ⟨fun other hother => hitems.2.2 other hother item List.mem_cons_self, ?_⟩
    rintro other hother rfl
    exact (List.nodup_cons.mp hitems.2.1).1 hother
  constructor
  · rintro ⟨before, after, hrows, hselectable, hbefore, hafter⟩
    obtain ⟨before', rest, hitems, rfl, hrest⟩ := List.map_eq_append_iff.mp hrows
    obtain ⟨item, after', rfl, rfl, rfl⟩ := List.map_eq_cons_iff.mp hrest
    obtain ⟨hfirst, hlater⟩ := hsplit hitems
    refine ⟨item, rfl, before', after', hitems, hselectable, ?_, ?_⟩
    · intro other hother hsel
      refine (h.lt_iff (by simp [hitems, hother]) (by simp [hitems]) (hfirst other hother) hsel
        hselectable).mpr ?_
      exact hbefore _ (List.mem_map_of_mem hother) hsel
    · intro other hother hsel
      rw [← Bool.not_eq_true, h.lt_iff (by simp [hitems]) (by simp [hitems, hother])
        (hlater other hother).symm hselectable hsel, not_lt]
      exact hafter _ (List.mem_map_of_mem hother) hsel
  · rintro ⟨item, rfl, before, after, hitems, hselectable, hbefore, hafter⟩
    obtain ⟨hfirst, hlater⟩ := hsplit hitems
    refine ⟨before.map summaryRow, after.map summaryRow, by simp [hitems], hselectable, ?_, ?_⟩
    · intro row hrow hsel
      obtain ⟨other, hother, rfl⟩ := List.mem_map.mp hrow
      exact (h.lt_iff (by simp [hitems, hother]) (by simp [hitems]) (hfirst other hother) hsel
        hselectable).mp (hbefore other hother hsel)
    · intro row hrow hsel
      obtain ⟨other, hother, rfl⟩ := List.mem_map.mp hrow
      have hnot := hafter other hother hsel
      rw [← Bool.not_eq_true, h.lt_iff (by simp [hitems]) (by simp [hitems, hother])
        (hlater other hother).symm hselectable hsel, not_lt] at hnot
      exact hnot

theorem FirstBest.selectedRow (h : Decided objective items) (hnodup : (items.map summaryRow).Nodup)
    {fold : Int} {item : BatchItem} (hbest : FirstBest objective items fold item) :
    Experiments.selectedRow objective (rankedRows objective items) fold = some (summaryRow item) := by
  by_cases hnan : NoNan objective items
  · rw [hnan.selectedRow, head?_filter_rank hnodup]
    exact (h.firstBest_iff hnodup).mpr ⟨item, rfl, hbest⟩
  -- the sort is not determined, but the item is above all others
  have hperm : (rankedRows objective items).Perm (items.map summaryRow) := List.mergeSort_perm _ _
  have habove := h.ranked fold item hbest
  obtain ⟨before, after, hitems, hselectable, -⟩ := hbest
  have hitem : item ∈ items := by simp [hitems]
  have hirrefl : ∀ a : PyFloat, a.lt a = false := by
    intro a
    cases a <;> simp [PyFloat.lt]
  refine firstMax_greatest (List.mem_filter.mpr ⟨hperm.symm.subset (List.mem_map_of_mem hitem),
    hselectable⟩) (hirrefl _) (fun row hrow hne => ?_)
  obtain ⟨hrow, hsel⟩ := List.mem_filter.mp hrow
  obtain ⟨other, hother, rfl⟩ := List.mem_map.mp (hperm.subset hrow)
  have hlt := (habove other hother (fun heq => hne (by rw [heq])) hsel).resolve_right hnan
  refine ⟨hlt, ?_⟩
  rw [← Bool.not_eq_true]
  exact fun hgt => absurd (PyFloat.level_lt hlt) (not_lt.mpr (PyFloat.level_lt hgt).le)

theorem Decided.selectedRow_iff (h : Decided objective items)
    (hnodup : (items.map summaryRow).Nodup) {fold : Int} {row : SummaryRow} :
    selectedRow objective (rankedRows objective items) fold = some row ↔
      ∃ item, row = summaryRow item ∧ FirstBest objective items fold item := by
  constructor
  · intro hrow
    have hsome : (rank (scoreLevel objective) (items.map summaryRow)).filter
        (selectable objective fold) ≠ [] := by
      have hmem : (rankedRows objective items).filter (selectable objective fold) ≠ [] := by
        intro hnil
        unfold selectedRow at hrow
        rw [hnil] at hrow
        cases hrow
      obtain ⟨other, hother⟩ := List.exists_mem_of_ne_nil _ hmem
      obtain ⟨hother, hsel⟩ := List.mem_filter.mp hother
      refine List.ne_nil_of_mem (List.mem_filter.mpr ⟨?_, hsel⟩)
      exact (rank_perm _ _).symm.subset ((List.mergeSort_perm _ _).subset hother)
    obtain ⟨first, hfirst⟩ := Option.isSome_iff_exists.mp (List.isSome_head?.mpr hsome)
    obtain ⟨item, rfl, hbest⟩ := (h.firstBest_iff hnodup).mp (firstLeast_of_head? hnodup hfirst)
    have hsame := (hbest.selectedRow h hnodup).symm.trans hrow
    exact ⟨item, (Option.some.inj hsame).symm, hbest⟩
  · rintro ⟨item, rfl, hbest⟩
    exact hbest.selectedRow h hnodup

end Rows

/-! ## What the first best item of a fold is compared with -/

theorem exists_item {validation : List BatchItem} {rows : List RankingRow}
    (h : List.Forall₂ (fun item row => rankingRow item = .ok row) validation rows)
    {row : RankingRow} (hrow : row ∈ rows) : ∃ item ∈ validation, rankingRow item = .ok row := by
  induction h with
  | nil => cases hrow
  | cons hfirst _ ih =>
    rcases List.mem_cons.mp hrow with rfl | hlater
    · exact ⟨_, List.mem_cons_self, hfirst⟩
    · obtain ⟨item, hmem, hlaterRow⟩ := ih hlater
      exact ⟨item, List.mem_cons_of_mem _ hmem, hlaterRow⟩

section Window

variable {kind : String} {objective : Option String} {projects symbols : List String}
  {folds : List Int} {candidates : String → List (String × Overrides)} {start db : ExperimentDb}

theorem selectedFrom_rows {key : WindowKey} {event : SelectionEvent}
    (h : SelectedFrom db key event) :
    ∃ selected, (sortRanking db.batch.objective (rowsOf (viewsOf db.items key))).head? =
        some selected ∧ event.selectedCandidate = selected.candidateKey ∧
      event.selectedParameters = selected.parameters ∧
      List.Forall₂ (fun item row => rankingRow item = .ok row)
        (phaseItems db.items key "validation") (rowsOf (viewsOf db.items key)) := by
  obtain ⟨-, selected, ranking, hranked, hhead, rfl⟩ := h
  obtain ⟨-, hsuccess, rows, hrows, -, rfl⟩ := rankValidation_some hranked
  have hread := (mapM_rowsOf (readable_of_rankValidation hranked (allSucceeded_iff.mpr hsuccess))).1
  obtain rfl := Except.ok.inj (hrows.symm.trans hread)
  exact ⟨selected, hhead, rfl, rfl, mapM_rankingRow hrows⟩

/-- The item whose row was selected. -/
theorem chosen_item
    (hcreate : createBatch kind objective (expandWalkForward projects symbols folds candidates) =
      .ok start)
    (hitems : planOf db.items = planOf start.items) {key : WindowKey} {rows : List RankingRow}
    (hread : List.Forall₂ (fun item row => rankingRow item = .ok row)
      (phaseItems db.items key "validation") rows) {selected : RankingRow} (hselected : selected ∈ rows)
    {item : BatchItem} (hitem : item ∈ phaseItems db.items key "validation")
    (hcandidate : selected.candidateKey = item.candidate) : rankingRow item = .ok selected := by
  obtain ⟨chosen, hchosen, hchosenRow⟩ := exists_item hread hselected
  obtain ⟨hmem, hwindow, hphase⟩ := mem_phaseItems.mp hitem
  obtain ⟨hchosenMem, hchosenWindow, hchosenPhase⟩ := mem_phaseItems.mp hchosen
  have hsame : chosen = item := by
    refine item_eq hcreate hitems hchosenMem hmem hchosenWindow hwindow
      (hchosenPhase.trans hphase.symm) ?_
    rw [← (rankingRow_ok hchosenRow).1, hcandidate]
  exact hsame ▸ hchosenRow

theorem SortKey.lt_irrefl (a : SortKey) : ¬ a.lt a = true :=
  fun h => (SortKey.level_lt h).ne rfl

/-- Where a row stands to another one: before it, with it, or after it. -/
def side (metric : Objective) (row other : RankingRow) : ℕ :=
  if (other.sortKey metric).lt (row.sortKey metric) then 0 else if other = row then 1 else 2

theorem side_self (metric : Objective) (row : RankingRow) : side metric row row = 1 := by
  simp [side, SortKey.lt_irrefl]

/-- A sort puts a row that compares with all others between those before it and those after it. -/
theorem sortRanking_sides {metric : Objective} {rows : List RankingRow} {row : RankingRow}
    (h : ∀ other ∈ rows, other ≠ row →
      SortKey.Compares (other.sortKey metric) (row.sortKey metric)) :
    (sortRanking metric rows).Pairwise (fun a b => side metric row a ≤ side metric row b) := by
  refine mergeSort_pairwise rows (fun a ha b hb hside => ?_)
  have hlt : (a.sortKey metric).lt (b.sortKey metric) = true := by
    unfold side at hside
    split_ifs at hside with hbefore hb hsame ha hb
    all_goals first
      | omega
      | skip
    · rw [hsame]
      exact hbefore
    · exact SortKey.lt_trans hbefore ((h b ‹_› hsame).resolve_left hb)
    · rw [ha]
      exact (h b ‹_› ‹_›).resolve_left hb
  refine ⟨?_, by rw [hlt]; rfl⟩
  rw [Bool.not_eq_true', ← Bool.not_eq_true]
  exact fun hgt => SortKey.lt_irrefl _ (SortKey.lt_trans hlt hgt)

theorem selected_iff
    (hcreate : createBatch kind objective (expandWalkForward projects symbols folds candidates) =
      .ok start)
    (hitems : planOf db.items = planOf start.items) {key : WindowKey} {event : SelectionEvent}
    (hselected : SelectedFrom db key event) {item : BatchItem}
    (hitem : item ∈ phaseItems db.items key "validation")
    (hcompares : ∀ row, rankingRow item = .ok row → ∀ other ∈ rowsOf (viewsOf db.items key),
      other ≠ row → SortKey.Compares (other.sortKey db.batch.objective)
        (row.sortKey db.batch.objective)) :
    event.selectedCandidate = item.candidate ↔
      ∀ other ∈ db.items, other.phase = "validation" → other.window = item.window →
        ∀ row otherRow, rankingRow item = .ok row → rankingRow other = .ok otherRow →
          (otherRow.sortKey db.batch.objective).lt (row.sortKey db.batch.objective) = false := by
  obtain ⟨selected, hhead, hcandidate, -, hread⟩ := selectedFrom_rows hselected
  obtain ⟨hmem, hwindow, hphase⟩ := mem_phaseItems.mp hitem
  obtain ⟨row, hrowMem, hrow⟩ := exists_row hread hitem
  have hperm : (sortRanking db.batch.objective (rowsOf (viewsOf db.items key))).Perm _ :=
    List.mergeSort_perm _ _
  have hselectedMem := hperm.subset (List.mem_of_head? hhead)
  have hfirst : ∀ other ∈ rowsOf (viewsOf db.items key),
      side db.batch.objective row selected ≤ side db.batch.objective row other := by
    intro other hother
    have hsides := sortRanking_sides (hcompares row hrow)
    obtain ⟨rest, hrest⟩ := List.head?_eq_some_iff.mp hhead
    have hlater := hperm.symm.subset hother
    rw [hrest] at hsides hlater
    rcases List.mem_cons.mp hlater with rfl | hlater
    · exact le_refl _
    · exact List.rel_of_pairwise_cons hsides hlater
  rw [hcandidate]
  constructor
  · intro hsame other hother hotherPhase hotherWindow row' otherRow hrow' hotherRow
    obtain rfl := Except.ok.inj (hrow.symm.trans hrow')
    have hchosen := chosen_item hcreate hitems hread hselectedMem hitem hsame
    obtain rfl := Except.ok.inj (hrow.symm.trans hchosen)
    obtain ⟨found, hfound, hfoundRow⟩ := exists_row hread
      (mem_phaseItems.mpr ⟨hother, hotherWindow.trans hwindow, hotherPhase⟩)
    obtain rfl := Except.ok.inj (hotherRow.symm.trans hfoundRow)
    have hle := hfirst otherRow hfound
    rw [side_self] at hle
    rw [← Bool.not_eq_true]
    intro hlt
    simp [side, hlt] at hle
  · intro hnone
    have hle := hfirst row hrowMem
    obtain ⟨chosen, hchosen, hchosenRow⟩ := exists_item hread hselectedMem
    obtain ⟨hchosenMem, hchosenWindow, hchosenPhase⟩ := mem_phaseItems.mp hchosen
    have hnot := hnone chosen hchosenMem hchosenPhase (hchosenWindow.trans hwindow.symm) row
      selected hrow hchosenRow
    rw [side_self] at hle
    have hsame : selected = row := by
      by_contra hne
      simp [side, hnot, hne] at hle
    rw [hsame]
    exact (rankingRow_ok hrow).1

theorem validation_mem_groupKeys {items : List BatchItem} {item : BatchItem} {key : WindowKey}
    (hmem : item ∈ items) (hwindow : item.window = some key) : key ∈ groupKeys items :=
  mem_groupKeys.mpr ⟨item, hmem, hwindow⟩

theorem selectedPhase_oos
    (hcreate : createBatch kind objective (expandWalkForward projects symbols folds candidates) =
      .ok start)
    (hdb : Evolves start db) {key : WindowKey} {item : BatchItem}
    (hitem : item ∈ phaseItems db.items key "validation") (metric : Objective) :
    ∃ released ∈ phaseItems db.items key "oos", released.candidate = item.candidate ∧
      selectedPhase (rankedRows metric db.items) key.fold (summaryRow item) "oos" =
        some (summaryRow released) := by
  obtain ⟨hmem, hwindow, -⟩ := mem_phaseItems.mp hitem
  obtain ⟨-, hproject, hsymbol⟩ := window_some hwindow
  have hplanned : PlannedWindow db.items db key := plannedWindow_of_createBatch hcreate hdb
    (by rw [hdb.items]) (validation_mem_groupKeys hmem hwindow)
  have hperm : (rankedRows metric db.items).Perm (db.items.map summaryRow) :=
    List.mergeSort_perm _ _
  have hfound : ∃ row, selectedPhase (rankedRows metric db.items) key.fold (summaryRow item)
      "oos" = some row := by
    obtain ⟨other, hother, hcandidate⟩ := hplanned.oos item hitem
    obtain ⟨hotherMem, hotherWindow, hotherPhase⟩ := mem_phaseItems.mp hother
    obtain ⟨hotherFold, hotherProject, hotherSymbol⟩ := window_some hotherWindow
    have hotherKey := candidateKey_of_createBatch hcreate hdb.items hotherMem
    have hkey := candidateKey_of_createBatch hcreate hdb.items hmem
    unfold selectedPhase
    rw [← Option.isSome_iff_exists, List.find?_isSome]
    refine ⟨summaryRow other, hperm.symm.subset (List.mem_map_of_mem hotherMem), ?_⟩
    simp [summaryRow, hotherFold, hotherPhase, hotherProject, hotherSymbol, hotherKey, hkey,
      hproject, hsymbol, hcandidate]
  obtain ⟨row, hrow⟩ := hfound
  obtain ⟨released, hreleased, rfl⟩ := List.mem_map.mp (hperm.subset (List.mem_of_find?_eq_some hrow))
  have hmatch := List.find?_some hrow
  simp only [summaryRow, Bool.and_eq_true, beq_iff_eq] at hmatch
  obtain ⟨⟨⟨⟨hfold, hphase⟩, hproject'⟩, hsymbol'⟩, hcandidate⟩ := hmatch
  refine ⟨released, mem_phaseItems.mpr ⟨hreleased, ?_, hphase⟩, ?_, hrow⟩
  · rw [window_of_fold hfold (by rw [hphase]; decide), hproject', hsymbol', hproject, hsymbol]
  · unfold BatchItem.candidate
    rw [hcandidate]

theorem namesFrozen_iff
    (hcreate : createBatch kind objective (expandWalkForward projects symbols folds candidates) =
      .ok start)
    (hdb : Evolves start db) {key : WindowKey} {event : SelectionEvent} (hselected : SelectedFrom db key event)
    {item : BatchItem} (hitem : item ∈ phaseItems db.items key "validation") :
    NamesFrozen db key (summaryRow item) (walkForwardEntry db.batch.objective
        (rankedRows db.batch.objective db.items) key.fold (summaryRow item)) ↔
      event.selectedCandidate = item.candidate := by
  have hkey := candidateKey_of_createBatch hcreate hdb.items (mem_phaseItems.mp hitem).1
  constructor
  · rintro ⟨event', hevent', hcandidate, -⟩
    rw [hselected.1] at hevent'
    rw [Option.some.inj hevent']
    have hsame : some item.candidate = some event'.selectedCandidate := hkey.symm.trans hcandidate
    exact (Option.some.inj hsame).symm
  · intro hcandidate
    obtain ⟨released, hreleased, hreleasedCandidate, hphase⟩ :=
      selectedPhase_oos hcreate hdb hitem db.batch.objective
    refine ⟨event, hselected.1, ?_, ?_, released, hreleased, ?_, ?_⟩
    · rw [hcandidate]
      exact hkey
    · obtain ⟨selected, hhead, hselectedKey, hparameters, hread⟩ := selectedFrom_rows hselected
      have hmem := (List.mergeSort_perm _ _).subset (List.mem_of_head? hhead)
      have hchosen := chosen_item hcreate hdb.items hread hmem hitem (hselectedKey ▸ hcandidate)
      rw [hparameters]
      exact (rankingRow_ok hchosen).2.1.symm
    · rw [hreleasedCandidate, hcandidate]
    · show Option.bind (selectedPhase _ _ _ "oos") SummaryRow.runId = _
      rw [hphase]
      rfl

theorem FirstBest.item {metric : Objective} {items : List BatchItem} {fold : Int}
    {item : BatchItem} (h : FirstBest metric items fold item) :
    item ∈ phaseItems items ((summaryRow item).windowOf fold) "validation" := by
  obtain ⟨before, after, rfl, hselectable, -⟩ := h
  simp only [selectable, summaryRow, Bool.and_eq_true, beq_iff_eq] at hselectable
  obtain ⟨⟨⟨hfold, hphase⟩, -⟩, -⟩ := hselectable
  refine mem_phaseItems.mpr ⟨by simp, ?_, hphase⟩
  exact window_of_fold hfold (by rw [hphase]; decide)

theorem reportsFrozen_iff_names
    (hcreate : createBatch kind objective (expandWalkForward projects symbols folds candidates) =
      .ok start)
    (hdb : Evolves start db) (hdecided : Decided db.batch.objective db.items) :
    ReportsFrozen db ↔ ∀ fold item, FirstBest db.batch.objective db.items fold item →
      NamesFrozen db ((summaryRow item).windowOf fold) (summaryRow item)
        (walkForwardEntry db.batch.objective (rankedRows db.batch.objective db.items) fold
          (summaryRow item)) := by
  have hnodup := items_nodup hcreate hdb.items
  have hselected : ∀ fold row, selectedRow db.batch.objective
      (rankedRows db.batch.objective db.items) fold = some row ↔
        ∃ item, row = summaryRow item ∧ FirstBest db.batch.objective db.items fold item :=
    fun _ _ => hdecided.selectedRow_iff hnodup
  constructor
  · intro h fold item hbest
    have hrow : selectedRow db.batch.objective (rankedRows db.batch.objective db.items) fold =
        some (summaryRow item) := (hselected fold _).mpr ⟨item, rfl, hbest⟩
    have hfold : fold ∈ validationFolds (rankedRows db.batch.objective db.items) := by
      obtain ⟨hmem, hwindow, hphase⟩ := mem_phaseItems.mp hbest.item
      have hranked : summaryRow item ∈ rankedRows db.batch.objective db.items :=
        (List.mergeSort_perm _ _).symm.subset (List.mem_map_of_mem hmem)
      unfold validationFolds
      rw [List.mem_mergeSort, List.mem_eraseDups, List.mem_filterMap]
      refine ⟨summaryRow item, List.mem_filter.mpr ⟨hranked, ?_⟩, (window_some hwindow).1⟩
      exact beq_iff_eq.mpr hphase
    obtain ⟨row, hrow', -, hnames⟩ := h _ (List.mem_filterMap.mpr ⟨fold, hfold, by
      rw [hrow]
      rfl⟩)
    have hsame : summaryRow item = row := Option.some.inj (hrow.symm.trans hrow')
    rw [← hsame] at hnames
    exact hnames
  · intro h entry hentry
    obtain ⟨fold, -, hmap⟩ := List.mem_filterMap.mp hentry
    obtain ⟨row, hrow, rfl⟩ := Option.map_eq_some_iff.mp hmap
    obtain ⟨item, rfl, hbest⟩ := (hselected fold row).mp hrow
    exact ⟨summaryRow item, hrow, rfl, h fold item hbest⟩

/-- In a batch whose windows were all selected from their validation items as they
are, and where no `nan` decides, the summary reports what was frozen exactly when
the ties of the objective fall to the first best items. -/
theorem reportsFrozen_iff_tiesFall
    (hcreate : createBatch kind objective (expandWalkForward projects symbols folds candidates) =
      .ok start)
    (hdb : Evolves start db)
    (hselected : ∀ key ∈ groupKeys db.items, ∃ event, SelectedFrom db key event)
    (hdecided : Decided db.batch.objective db.items) :
    ReportsFrozen db ↔ TiesFall db.batch.objective db.items := by
  rw [reportsFrozen_iff_names hcreate hdb hdecided]
  refine forall_congr' (fun fold => forall_congr' (fun item => forall_congr' (fun hbest => ?_)))
  obtain ⟨hmem, hwindow, -⟩ := mem_phaseItems.mp hbest.item
  obtain ⟨event, hevent⟩ := hselected _ (validation_mem_groupKeys hmem hwindow)
  have hnames := namesFrozen_iff hcreate hdb hevent hbest.item
  exact hnames.trans (selected_iff hcreate hdb.items hevent hbest.item (hdecided.ties fold item hbest))

end Window

/-- Where no item has the value `nan` and the rows of every window compare, no `nan` decides. -/
theorem decided_of_comparable {metric : Objective} {items : List BatchItem}
    (hnan : NoNan metric items)
    (hcomparable : ∀ key, Comparable metric (rowsOf (viewsOf items key))) :
    Decided metric items where
  values := fun _ a ha _ _ _ _ _ => hnan a ha
  ranked := fun _ _ _ _ _ _ _ => .inr hnan
  ties := by
    intro fold item hbest row hrow other hother hne
    refine hcomparable _ other hother row (List.mem_filterMap.mpr ⟨_, ?_, view_row_iff.mpr hrow⟩) hne
    exact List.mem_map_of_mem hbest.item

/-! ## A tie of the objective -/

/-- The batch of two candidates after the transaction that freezes its window with
a ranking. -/
def frozenState (db : ExperimentDb) (ranking : List RankingRow) : ExperimentDb :=
  match ranking, ranking.zipIdx.foldlM (storeCandidate onlyWindow) db.candidates with
  | selected :: _, .ok candidates =>
    match storeSelection .sharpe onlyWindow (phaseItems db.items onlyWindow "oos") selected ranking
        candidates db with
    | .ok frozen => frozen
    | .error _ => db
  | _, _ => db

/-- Two candidates of one Sharpe ratio, the second one with the smaller drawdown. -/
def tiedState : ExperimentDb :=
  validatedState [("Sharpe Ratio", .text "1.0"), ("Drawdown", .text "0.5")]
    [("Sharpe Ratio", .text "1.0"), ("Drawdown", .text "0.25")]

def tiedRanking : List RankingRow :=
  [sampleRow "60" (some (.real 1)) (some (.real (1 / 4))),
    sampleRow "20" (some (.real 1)) (some (.real (1 / 2)))]

def sharpeRanking : List RankingRow :=
  [sampleRow "20" (some (.real (3 / 2))) none, sampleRow "60" (some (.real (1 / 2))) none]

/-- The window has these two rows, and they are ranked like this. -/
structure RanksPair (items : List BatchItem) (a b : RankingRow) (ranking : List RankingRow) :
    Prop where
  counted : Counted .sharpe (viewsOf items onlyWindow)
  ready : AllSucceeded (viewsOf items onlyWindow)
  rows : rowsOf (viewsOf items onlyWindow) = [a, b]
  valued : AllValued .sharpe [a, b]
  sorted : (if !(b.sortKey .sharpe).lt (a.sortKey .sharpe) then [a, b] else [b, a]) = ranking

theorem RanksPair.rankValidation {items : List BatchItem} {a b : RankingRow}
    {ranking : List RankingRow} (h : RanksPair items a b ranking) :
    rankValidation .sharpe (phaseItems items onlyWindow "validation") = .ok (some ranking) := by
  rw [rankValidation_eq (fun _ => h.counted.violations), ← h.sorted]
  exact congrArg Except.ok (frozenRanking_pair h.ready h.rows h.valued)

theorem RanksPair.selectedFrom {db : ExperimentDb} {a b selected : RankingRow}
    {ranking : List RankingRow} (h : RanksPair db.items a b ranking)
    (hobjective : db.batch.objective = .sharpe) (hkeys : groupKeys db.items = [onlyWindow])
    (hhead : ranking.head? = some selected)
    (hevent : db.event onlyWindow = some (selectionEvent .sharpe onlyWindow selected ranking)) :
    ∀ key ∈ groupKeys db.items, ∃ event, SelectedFrom db key event := by
  intro key hkey
  rw [hkeys, List.mem_singleton] at hkey
  subst hkey
  refine ⟨_, hevent, selected, ranking, ?_, hhead, ?_⟩
  · rw [hobjective]
    exact h.rankValidation
  · rw [hobjective]

theorem freezeWindow_tiedState : freezeWindow .sharpe tiedState.items onlyWindow tiedState =
    .ok (true, frozenState tiedState tiedRanking) := by
  have hranks : RanksPair tiedState.items
      (sampleRow "20" (some (.real 1)) (some (.real (1 / 2))))
      (sampleRow "60" (some (.real 1)) (some (.real (1 / 4)))) tiedRanking :=
    ⟨by decide +kernel, by decide +kernel, by decide +kernel, by decide, by decide +kernel⟩
  unfold freezeWindow
  rw [hranks.rankValidation]
  decide +kernel

theorem freezeWindow_sharpeState :
    freezeWindow .sharpe sharpeState.items onlyWindow sharpeState =
      .ok (true, frozenState sharpeState sharpeRanking) := by
  have hranks : RanksPair sharpeState.items (sampleRow "20" (some (.real (3 / 2))) none)
      (sampleRow "60" (some (.real (1 / 2))) none) sharpeRanking :=
    ⟨by decide +kernel, by decide +kernel, by decide +kernel, by decide, by decide +kernel⟩
  unfold freezeWindow
  rw [hranks.rankValidation]
  decide +kernel

theorem reportsFrozen_sharpeState :
    ReportsFrozen (frozenState sharpeState sharpeRanking) ↔
      TiesFall (frozenState sharpeState sharpeRanking).batch.objective
        (frozenState sharpeState sharpeRanking).items := by
  have hranks : RanksPair (frozenState sharpeState sharpeRanking).items
      (sampleRow "20" (some (.real (3 / 2))) none) (sampleRow "60" (some (.real (1 / 2))) none)
      sharpeRanking :=
    ⟨by decide +kernel, by decide +kernel, by decide +kernel, by decide, by decide +kernel⟩
  refine reportsFrozen_iff_tiesFall created_twoCandidateBatch
    ((evolves_validatedState _ _).trans (evolves_freezeWindow freezeWindow_sharpeState))
    (hranks.selectedFrom ?_ ?_ rfl ?_) (decided_of_comparable ?_
      (forall_viewsOf (P := fun views => Comparable _ (rowsOf views)) ?_ ?_))
  all_goals decide +kernel

/-- With equal Sharpe ratios the selection freezes the candidate with the smaller
drawdown, and the summary names the first one. -/
theorem tie_reported_by_order :
    ¬ ∀ (kind : String) (objective : Option String) (projects symbols : List String)
      (folds : List Int) (candidates : String → List (String × Overrides))
      (start db : ExperimentDb),
      createBatch kind objective (expandWalkForward projects symbols folds candidates) =
        .ok start → Evolves start db →
      (∀ key ∈ groupKeys db.items, ∃ event, SelectedFrom db key event) → ReportsFrozen db := by
  intro h
  have hevolves : Evolves twoCandidateBatch (frozenState tiedState tiedRanking) :=
    (evolves_validatedState _ _).trans (evolves_freezeWindow freezeWindow_tiedState)
  have hdecided : Decided (frozenState tiedState tiedRanking).batch.objective
      (frozenState tiedState tiedRanking).items := by
    refine decided_of_comparable ?_
      (forall_viewsOf (P := fun views => Comparable _ (rowsOf views)) ?_ ?_)
    all_goals decide +kernel
  have hranks : RanksPair (frozenState tiedState tiedRanking).items
      (sampleRow "20" (some (.real 1)) (some (.real (1 / 2))))
      (sampleRow "60" (some (.real 1)) (some (.real (1 / 4)))) tiedRanking :=
    ⟨by decide +kernel, by decide +kernel, by decide +kernel, by decide, by decide +kernel⟩
  have hreports := h _ _ _ _ _ _ _ _ created_twoCandidateBatch hevolves
    (hranks.selectedFrom (by decide +kernel) (by decide +kernel) rfl (by decide +kernel))
  rw [reportsFrozen_iff_names created_twoCandidateBatch hevolves hdecided] at hreports
  -- the first of the two validation items
  have hfirst : ∃ item ∈ (frozenState tiedState tiedRanking).items[2]?,
      (frozenState tiedState tiedRanking).items =
        (frozenState tiedState tiedRanking).items.take 2 ++
          item :: (frozenState tiedState tiedRanking).items.drop 3 ∧
      selectable .sharpe 1 (summaryRow item) = true ∧
      (∀ other ∈ (frozenState tiedState tiedRanking).items.take 2,
        selectable .sharpe 1 (summaryRow other) = true →
          ((summaryRow other).score .sharpe).lt ((summaryRow item).score .sharpe) = true) ∧
      (∀ other ∈ (frozenState tiedState tiedRanking).items.drop 3,
        selectable .sharpe 1 (summaryRow other) = true →
          ((summaryRow item).score .sharpe).lt ((summaryRow other).score .sharpe) = false) ∧
      item.candidateKey = some "window=20" ∧ (summaryRow item).windowOf 1 = onlyWindow := by
    decide +kernel
  obtain ⟨item, -, hsplit, hselectable, hbefore, hafter, hkey, hwindow⟩ := hfirst
  have hobjective : (frozenState tiedState tiedRanking).batch.objective = .sharpe := by
    decide +kernel
  have hbest : FirstBest (frozenState tiedState tiedRanking).batch.objective
      (frozenState tiedState tiedRanking).items 1 item := by
    rw [hobjective]
    exact ⟨_, _, hsplit, hselectable, hbefore, hafter⟩
  obtain ⟨event, hevent, hcandidate, -⟩ := hreports 1 item hbest
  rw [hwindow] at hevent
  have hfrozen : ((frozenState tiedState tiedRanking).event onlyWindow).map
      SelectionEvent.selectedCandidate = some "window=60" := by decide +kernel
  rw [hevent] at hfrozen
  have hsame : some "window=20" = some "window=60" := (hkey.symm.trans hcandidate).trans hfrozen
  exact absurd hsame (by decide)

end LocalPlatform.Experiments
