import LocalPlatform.Lib.Dates
import LocalPlatform.Lib.Results
import LocalPlatform.Lib.Rows
import Mathlib.Algebra.Order.Field.Rat
import Mathlib.Data.String.Basic
import Mathlib.Algebra.BigOperators.Group.List.Basic

/-!
# Daily gaps

* `addDailyGapFeatures` reads the rows of each symbol in the order of their dates.  The loop sees all
  closes and volumes of the symbol at once, and the gaps that came before.
* `symbolFeatures_append`: the features of the first rows are those of the first rows alone.
* `gap_features_causal`: where two calls return, rows after a date change no feature up to it, each
  row has a feature, and an event is measured by enough earlier gaps.
* `later_rows_raise`: later rows can make a call raise.
* Numbers are of any ordered field.  `statistics.fmean` and `statistics.stdev` are parameters, which
  raise where their data overflow or are too few.
-/

namespace LocalPlatform.Research.Gaps

open Tables Results

variable {K ε : Type} [Field K] [LinearOrder K]

/-- The numeral of the bounds below. -/
scoped instance two_atLeastTwo : Nat.AtLeastTwo 2 := ⟨le_rfl⟩

/-! ## Rows -/

/-- A value of a row: none, one that is no finite number, or a number. -/
inductive Cell (K : Type) where
  | missing
  | invalid
  | number (value : K)
  deriving DecidableEq

/-- `_finite` -/
def Cell.finite : Cell K → Option K
  | .number value => some value
  | _ => none

/-- The second value where the first one is missing. -/
def Cell.orElse : Cell K → Cell K → Cell K
  | .missing, other => other
  | cell, _ => cell

/-- A row of daily bars.  A symbol or a date that is missing is empty. -/
structure Row (K : Type) where
  symbol : String
  tradeDate : String
  openPrice : Cell K
  high : Cell K
  low : Cell K
  close : Cell K
  volume : Cell K
  vol : Cell K
  amount : Cell K
  prevClose : Cell K
  preClose : Cell K
  deriving DecidableEq

/-- What `_parameters` accepts. -/
structure Parameters (K : Type) [Field K] [LinearOrder K] where
  gapSigmaWindow : ℕ
  gapSigmaMinPeriods : ℕ
  volumeWindow : ℕ
  volumeMinPeriods : ℕ
  corporateActionTolerance : K
  sigmaWindow_bounds : 20 ≤ gapSigmaWindow ∧ gapSigmaWindow ≤ 252
  sigmaMinPeriods_bounds : 10 ≤ gapSigmaMinPeriods ∧ gapSigmaMinPeriods ≤ gapSigmaWindow
  volumeWindow_bounds : 5 ≤ volumeWindow ∧ volumeWindow ≤ 252
  volumeMinPeriods_bounds : 3 ≤ volumeMinPeriods ∧ volumeMinPeriods ≤ volumeWindow
  tolerance_bounds : 0 ≤ corporateActionTolerance ∧ corporateActionTolerance ≤ 1 / 5

/-- The prices of a bar that is valid. -/
structure Prices (K : Type) where
  openPrice : K
  high : K
  low : K
  close : K
  prevClose : K

/-- The feature of one row. -/
structure Feature (K : Type) where
  symbol : String
  tradeDate : String
  openPrice : Option K
  high : Option K
  low : Option K
  close : Option K
  preClose : Option K
  previousActualClose : Option K
  corporateActionFlag : Bool
  gap : Option K
  gapSigma : Option K
  gapZ : Option K
  retOpenClose : Option K
  mfeFromOpen : Option K
  maeFromOpen : Option K
  volumeRatio : Option K
  amountRatio : Option K
  ret5dBefore : Option K
  ret20dBefore : Option K
  side : Option String := none
  severity : Option String := none
  fillRatioClose : Option K := none
  closeRebound : Option Bool := none
  halfFill : Option Bool := none
  fullFill : Option Bool := none
  givebackRatioClose : Option K := none
  closeFade : Option Bool := none
  fullReversalIntraday : Option Bool := none
  deriving DecidableEq

/-! ## One row -/

/-- `_mean` -/
def mean (fmean : List K → Except ε K) (values : List K) : Except ε (Option K) :=
  if values = [] then .ok none else (fmean values).map some

/-- `_prior_ratio` -/
def priorRatio (fmean : List K → Except ε K) (values : List (Option K))
    (index window minPeriods : ℕ) : Except ε (Option K) := do
  let prior := (((values.take index).drop (index - window)).filterMap id).filter (fun v => 0 ≤ v)
  let average ← if minPeriods ≤ prior.length then mean fmean prior else .ok none
  return match values.getD index none, average with
    | some current, some average => if 0 < average then some (current / average) else none
    | _, _ => none

/-- `_severity` -/
def severityOf (gapZ : K) : String :=
  if |gapZ| < 3 / 2 then "1.0-1.5σ" else if |gapZ| < 2 then "1.5-2.0σ" else "≥2.0σ"

/-- The close before the open, as the exchange gives it. -/
def Row.exchangeClose (row : Row K) : Option K := (row.prevClose.orElse row.preClose).finite

/-- The prices of the row, if they make a bar. -/
def Row.validOhlc (row : Row K) : Option (Prices K) :=
  match row.openPrice.finite, row.exchangeClose, row.high.finite, row.low.finite,
    row.close.finite with
  | some openPrice, some prevClose, some high, some low, some close =>
    if 0 < openPrice ∧ 0 < prevClose ∧ max openPrice close ≤ high ∧ low ≤ min openPrice close then
      some ⟨openPrice, high, low, close, prevClose⟩
    else none
  | _, _, _, _, _ => none

def Row.gap (row : Row K) : Option K :=
  row.validOhlc.map (fun prices => prices.openPrice / prices.prevClose - 1)

/-- The close of the exchange is not the one of the row before. -/
def corporateAction (tolerance : K) (previousActualClose prevClose : Option K) : Bool :=
  match previousActualClose, prevClose with
  | some previous, some prev => 0 < previous ∧ 0 < prev ∧ tolerance < |prev / previous - 1|
  | _, _ => false

/-- The change to the last close from the close of some rows before. -/
def returnBefore (closes : List (Option K)) (index lag : ℕ) (previousActualClose : Option K) :
    Option K :=
  if lag ≤ index then
    match previousActualClose, closes.getD (index - lag) none with
    | some previous, some close =>
      if previous ≠ 0 ∧ 0 < close then some (previous / close - 1) else none
    | _, _ => none
  else none

/-- The fields of an event, which has a gap down or up. -/
def Feature.classify (feature : Feature K) (gapZ : K) (prices : Option (Prices K)) : Feature K :=
  let classified := { feature with severity := some (severityOf gapZ) }
  match prices with
  | none => classified
  | some prices =>
    let gap := prices.openPrice / prices.prevClose - 1
    if gap < 0 then
      let gapSize := prices.prevClose - prices.openPrice
      { classified with
        side := some "down"
        fillRatioClose := some ((prices.close - prices.openPrice) / gapSize)
        closeRebound := some (decide (prices.openPrice < prices.close))
        halfFill := some (decide (prices.openPrice + 1 / 2 * gapSize ≤ prices.high))
        fullFill := some (decide (prices.prevClose ≤ prices.high)) }
    else if 0 < gap then
      let gapSize := prices.openPrice - prices.prevClose
      { classified with
        side := some "up"
        givebackRatioClose := some ((prices.openPrice - prices.close) / gapSize)
        closeFade := some (decide (prices.close < prices.openPrice))
        fullReversalIntraday := some (decide (prices.low ≤ prices.prevClose)) }
    else classified

section Loop

variable (fmean stdev : List K → Except ε K) (parameters : Parameters K) (symbol : String)

/-- The standard deviation of the last gaps, if they are enough. -/
def sigmaOf (priorGaps : List K) : Except ε (Option K) :=
  let history := lastOf parameters.gapSigmaWindow priorGaps
  if parameters.gapSigmaMinPeriods ≤ history.length then (stdev history).map some else .ok none

def gapZOf (gap sigma : Option K) : Option K :=
  match gap, sigma with
  | some gap, some sigma => if 0 < sigma then some (gap / sigma) else none
  | _, _ => none

/-- The close of the row before, if there is one. -/
def previousClose (closes : List (Option K)) (index : ℕ) : Option K :=
  if index = 0 then none else closes.getD (index - 1) none

/-- The feature of a row before it is classified. -/
def measure (closes : List (Option K)) (index : ℕ) (item : Row K)
    (sigma volumeRatio amountRatio : Option K) : Feature K :=
  let previousActualClose := previousClose closes index
  let prices := item.validOhlc
  { symbol := symbol
    tradeDate := item.tradeDate
    openPrice := item.openPrice.finite
    high := item.high.finite
    low := item.low.finite
    close := closes.getD index none
    preClose := item.exchangeClose
    previousActualClose := previousActualClose
    corporateActionFlag := corporateAction parameters.corporateActionTolerance previousActualClose
      item.exchangeClose
    gap := item.gap
    gapSigma := sigma
    gapZ := gapZOf item.gap sigma
    retOpenClose := prices.map (fun p => p.close / p.openPrice - 1)
    mfeFromOpen := prices.map (fun p => p.high / p.openPrice - 1)
    maeFromOpen := prices.map (fun p => p.low / p.openPrice - 1)
    volumeRatio := volumeRatio
    amountRatio := amountRatio
    ret5dBefore := returnBefore closes index 6 previousActualClose
    ret20dBefore := returnBefore closes index 21 previousActualClose }

/-- The feature with the fields of an event, if it is one. -/
def Feature.event (feature : Feature K) (prices : Option (Prices K)) : Feature K :=
  match feature.gapZ with
  | some z =>
    if 1 ≤ |z| ∧ feature.corporateActionFlag = false then feature.classify z prices else feature
  | none => feature

/-- The body of the loop of `add_daily_gap_features`. -/
def featureAt (closes volumes amounts : List (Option K)) (priorGaps : List K) (index : ℕ)
    (item : Row K) : Except ε (Feature K) := do
  let sigma ← sigmaOf stdev parameters priorGaps
  let volumeRatio ← priorRatio fmean volumes index parameters.volumeWindow parameters.volumeMinPeriods
  let amountRatio ← priorRatio fmean amounts index parameters.volumeWindow parameters.volumeMinPeriods
  return (measure parameters symbol closes index item sigma volumeRatio amountRatio).event
    item.validOhlc

/-- The loop over the rows of a symbol. -/
def featuresFrom (closes volumes amounts : List (Option K)) :
    ℕ → List K → List (Row K) → Except ε (List (Feature K))
  | _, _, [] => .ok []
  | index, priorGaps, item :: rest => do
    let feature ← featureAt fmean stdev parameters symbol closes volumes amounts priorGaps index item
    let features ← featuresFrom closes volumes amounts (index + 1) (priorGaps ++ item.gap.toList) rest
    return feature :: features

def Row.volumeCell (row : Row K) : Option K := (row.volume.orElse row.vol).finite

/-- The features of the rows of a symbol, in their order. -/
def symbolFeatures (ordered : List (Row K)) : Except ε (List (Feature K)) :=
  featuresFrom fmean stdev parameters symbol (ordered.map (fun row => row.close.finite))
    (ordered.map Row.volumeCell) (ordered.map (fun row => row.amount.finite)) 0 [] ordered

end Loop

def orderedRows (rows : List (Row K)) (symbol : String) : List (Row K) :=
  orderBy Row.tradeDate (rows.filter (fun row => row.symbol = symbol))

def symbols (rows : List (Row K)) : List String :=
  orderBy id (uniqueFirst id (rows.map Row.symbol))

/-- `add_daily_gap_features` -/
def addDailyGapFeatures (fmean stdev : List K → Except ε K) (parameters : Parameters K)
    (rows : List (Row K)) : Except ε (List (Feature K)) :=
  ((symbols rows).mapM (fun symbol =>
    symbolFeatures fmean stdev parameters symbol (orderedRows rows symbol))).map List.flatten

/-! ## What a feature reads -/

variable {fmean stdev : List K → Except ε K} {parameters : Parameters K} {symbol : String}

theorem classify_symbol (feature : Feature K) (gapZ : K) (prices : Option (Prices K)) :
    (feature.classify gapZ prices).symbol = feature.symbol ∧
      (feature.classify gapZ prices).tradeDate = feature.tradeDate := by
  unfold Feature.classify
  cases prices with
  | none => exact ⟨rfl, rfl⟩
  | some prices =>
    dsimp only
    split_ifs <;> exact ⟨rfl, rfl⟩

theorem event_symbol (feature : Feature K) (prices : Option (Prices K)) :
    (feature.event prices).symbol = feature.symbol ∧
      (feature.event prices).tradeDate = feature.tradeDate := by
  unfold Feature.event
  split
  · split
    · exact classify_symbol _ _ _
    · exact ⟨rfl, rfl⟩
  · exact ⟨rfl, rfl⟩

section Loop

variable {closes volumes amounts : List (Option K)} {priorGaps : List K} {index : ℕ} {item : Row K}

theorem featureAt_ok {feature : Feature K}
    (h : featureAt fmean stdev parameters symbol closes volumes amounts priorGaps index item =
      .ok feature) :
    ∃ sigma volumeRatio amountRatio, sigmaOf stdev parameters priorGaps = .ok sigma ∧
      feature = (measure parameters symbol closes index item sigma volumeRatio amountRatio).event
        item.validOhlc := by
  obtain ⟨sigma, hsigma, hrest⟩ := bind_ok h
  obtain ⟨volumeRatio, -, hrest⟩ := bind_ok hrest
  obtain ⟨amountRatio, -, hvalue⟩ := bind_ok hrest
  exact ⟨sigma, volumeRatio, amountRatio, hsigma, (Except.ok.inj hvalue).symm⟩

theorem featureAt_symbol {feature : Feature K}
    (h : featureAt fmean stdev parameters symbol closes volumes amounts priorGaps index item =
      .ok feature) : feature.symbol = symbol ∧ feature.tradeDate = item.tradeDate := by
  obtain ⟨sigma, volumeRatio, amountRatio, -, rfl⟩ := featureAt_ok h
  exact event_symbol _ _

theorem featuresFrom_cons {rest : List (Row K)} {features : List (Feature K)}
    (h : featuresFrom fmean stdev parameters symbol closes volumes amounts index priorGaps
      (item :: rest) = .ok features) :
    ∃ feature later, features = feature :: later ∧
      featureAt fmean stdev parameters symbol closes volumes amounts priorGaps index item =
        .ok feature ∧
      featuresFrom fmean stdev parameters symbol closes volumes amounts (index + 1)
        (priorGaps ++ item.gap.toList) rest = .ok later := by
  obtain ⟨feature, hfeature, hrest⟩ := bind_ok h
  obtain ⟨later, hlater, hvalue⟩ := bind_ok hrest
  exact ⟨feature, later, (Except.ok.inj hvalue).symm, hfeature, hlater⟩

end Loop

variable {values others : List (Option K)}

omit [Field K] [LinearOrder K] in
theorem getD_of_take {count i : ℕ} (h : values.take count = others.take count) (hi : i < count) :
    values.getD i none = others.getD i none := by
  have hget := congrArg (fun list => list[i]?) h
  simp only [List.getElem?_take, if_pos hi] at hget
  rw [List.getD_eq_getElem?_getD, List.getD_eq_getElem?_getD, hget]

omit [Field K] [LinearOrder K] in
theorem take_of_take {count i : ℕ} (h : values.take count = others.take count) (hi : i ≤ count) :
    values.take i = others.take i := by
  have htake := congrArg (List.take i) h
  rwa [List.take_take, List.take_take, min_eq_left hi] at htake

variable {index : ℕ}

theorem priorRatio_congr (h : values.take (index + 1) = others.take (index + 1))
    (window minPeriods : ℕ) :
    priorRatio fmean values index window minPeriods =
      priorRatio fmean others index window minPeriods := by
  unfold priorRatio
  rw [take_of_take h (Nat.le_succ index), getD_of_take h (Nat.lt_succ_self index)]

theorem returnBefore_congr {lag : ℕ} (h : values.take (index + 1) = others.take (index + 1))
    (previous : Option K) :
    returnBefore values index lag previous = returnBefore others index lag previous := by
  unfold returnBefore
  rw [getD_of_take h (by omega)]

variable {closes : List (Option K)}

theorem featureAt_congr {closes' volumes volumes' amounts amounts' : List (Option K)}
    (hcloses : closes.take (index + 1) = closes'.take (index + 1))
    (hvolumes : volumes.take (index + 1) = volumes'.take (index + 1))
    (hamounts : amounts.take (index + 1) = amounts'.take (index + 1)) (priorGaps : List K)
    (item : Row K) :
    featureAt fmean stdev parameters symbol closes volumes amounts priorGaps index item =
      featureAt fmean stdev parameters symbol closes' volumes' amounts' priorGaps index item := by
  have hprevious : previousClose closes index = previousClose closes' index := by
    unfold previousClose
    rw [getD_of_take hcloses (show index - 1 < index + 1 by omega)]
  have hmeasure : ∀ sigma volumeRatio amountRatio : Option K,
      measure parameters symbol closes index item sigma volumeRatio amountRatio =
        measure parameters symbol closes' index item sigma volumeRatio amountRatio := by
    intro sigma volumeRatio amountRatio
    unfold measure
    dsimp only
    rw [getD_of_take hcloses (Nat.lt_succ_self index), hprevious, returnBefore_congr hcloses,
      returnBefore_congr hcloses]
  unfold featureAt
  simp only [hmeasure]
  rw [priorRatio_congr hvolumes, priorRatio_congr hamounts]

theorem featuresFrom_congr {closes' volumes volumes' amounts amounts' : List (Option K)}
    (rows : List (Row K)) :
    ∀ {index : ℕ} (priorGaps : List K),
      closes.take (index + rows.length) = closes'.take (index + rows.length) →
      volumes.take (index + rows.length) = volumes'.take (index + rows.length) →
      amounts.take (index + rows.length) = amounts'.take (index + rows.length) →
      featuresFrom fmean stdev parameters symbol closes volumes amounts index priorGaps rows =
        featuresFrom fmean stdev parameters symbol closes' volumes' amounts' index priorGaps rows := by
  induction rows with
  | nil =>
    intro index priorGaps _ _ _
    rfl
  | cons item rest ih =>
    intro index priorGaps hcloses hvolumes hamounts
    have hlength : index + (item :: rest).length = index + 1 + rest.length := by
      rw [List.length_cons]
      omega
    rw [hlength] at hcloses hvolumes hamounts
    unfold featuresFrom
    rw [featureAt_congr (take_of_take hcloses (by omega)) (take_of_take hvolumes (by omega))
      (take_of_take hamounts (by omega)), ih _ hcloses hvolumes hamounts]

theorem featuresFrom_append (closes volumes amounts : List (Option K)) (a b : List (Row K)) :
    ∀ {index : ℕ} {priorGaps : List K} {features : List (Feature K)},
      featuresFrom fmean stdev parameters symbol closes volumes amounts index priorGaps (a ++ b) =
        .ok features →
      ∃ first later, features = first ++ later ∧
        featuresFrom fmean stdev parameters symbol closes volumes amounts index priorGaps a =
          .ok first ∧
        featuresFrom fmean stdev parameters symbol closes volumes amounts (index + a.length)
          (priorGaps ++ a.filterMap Row.gap) b = .ok later := by
  induction a with
  | nil =>
    intro index priorGaps features h
    exact ⟨[], features, rfl, rfl, by simpa using h⟩
  | cons item rest ih =>
    intro index priorGaps features h
    obtain ⟨feature, others, rfl, hfeature, hothers⟩ := featuresFrom_cons h
    obtain ⟨first, later, rfl, hfirst, hlater⟩ := ih hothers
    have hindex : index + 1 + rest.length = index + (rest.length + 1) := by omega
    have hgaps : priorGaps ++ item.gap.toList ++ rest.filterMap Row.gap =
        priorGaps ++ (item :: rest).filterMap Row.gap := by
      cases hgap : item.gap <;> simp [hgap]
    rw [hindex, hgaps] at hlater
    refine ⟨feature :: first, later, rfl, ?_, hlater⟩
    unfold featuresFrom
    rw [hfeature, hfirst]
    rfl

variable {rows : List (Row K)}

theorem featuresFrom_keys {volumes amounts : List (Option K)} :
    ∀ {index : ℕ} {priorGaps : List K} {features : List (Feature K)},
      featuresFrom fmean stdev parameters symbol closes volumes amounts index priorGaps rows =
        .ok features →
      (∀ feature ∈ features, feature.symbol = symbol) ∧
        features.map Feature.tradeDate = rows.map Row.tradeDate := by
  induction rows with
  | nil =>
    intro index priorGaps features h
    obtain rfl : [] = features := Except.ok.inj h
    exact ⟨fun _ hmem => absurd hmem List.not_mem_nil, rfl⟩
  | cons item rest ih =>
    intro index priorGaps features h
    obtain ⟨feature, later, rfl, hfeature, hlater⟩ := featuresFrom_cons h
    have hkeys := featureAt_symbol hfeature
    have hrest := ih hlater
    refine ⟨List.forall_mem_cons.mpr ⟨hkeys.1, hrest.1⟩, ?_⟩
    rw [List.map_cons, List.map_cons, hkeys.2, hrest.2]

variable {features : List (Feature K)}

theorem symbolFeatures_append {a b : List (Row K)}
    (h : symbolFeatures fmean stdev parameters symbol (a ++ b) = .ok features) :
    ∃ first later, features = first ++ later ∧
      symbolFeatures fmean stdev parameters symbol a = .ok first ∧
      later.map Feature.tradeDate = b.map Row.tradeDate := by
  have htake : ∀ f : Row K → Option K,
      ((a ++ b).map f).take (0 + a.length) = (a.map f).take (0 + a.length) := by
    intro f
    rw [List.map_append, Nat.zero_add, List.take_left' (List.length_map f),
      List.take_of_length_le (by rw [List.length_map])]
  obtain ⟨first, later, hsplit, hfirst, hlater⟩ := featuresFrom_append _ _ _ a b h
  rw [featuresFrom_congr a [] (htake _) (htake _) (htake _)] at hfirst
  exact ⟨first, later, hsplit, hfirst, (featuresFrom_keys hlater).2⟩

/-! ## Rows of all symbols -/

def DistinctDates (rows : List (Row K)) : Prop :=
  ∀ symbol, Unique Row.tradeDate (rows.filter (fun row => row.symbol = symbol))

def rowsUpTo (rows : List (Row K)) (symbol date : String) : List (Row K) :=
  rows.filter (fun row => row.symbol = symbol ∧ row.tradeDate ≤ date)

def featuresUpTo (features : List (Feature K)) (symbol date : String) : List (Feature K) :=
  features.filter (fun feature => feature.symbol = symbol ∧ feature.tradeDate ≤ date)

omit [Field K] [LinearOrder K] in
theorem orderedRows_strict (h : DistinctDates rows) (symbol : String) :
    (orderedRows rows symbol).Pairwise (fun a b => a.tradeDate < b.tradeDate) :=
  orderBy_strict (h symbol)

omit [Field K] [LinearOrder K] in
theorem mem_symbols {symbol : String} :
    symbol ∈ symbols rows ↔ ∃ row ∈ rows, row.symbol = symbol := by
  unfold symbols
  rw [mem_orderBy, mem_uniqueFirst_id, List.mem_map]

omit [Field K] [LinearOrder K] in
theorem nodup_symbols (rows : List (Row K)) : (symbols rows).Nodup :=
  (orderBy_perm id _).nodup_iff.mpr nodup_uniqueFirst

omit [Field K] [LinearOrder K] in
theorem orderedRows_of_not_mem {symbol : String} (h : symbol ∉ symbols rows) :
    orderedRows rows symbol = [] := by
  have hnone : rows.filter (fun row => row.symbol = symbol) = [] := by
    rw [List.filter_eq_nil_iff]
    intro row hrow
    rw [decide_eq_true_eq]
    intro heq
    exact h (mem_symbols.mpr ⟨row, hrow, heq⟩)
  unfold orderedRows
  rw [hnone]
  rfl

theorem symbolFeatures_keys {ordered : List (Row K)}
    (h : symbolFeatures fmean stdev parameters symbol ordered = .ok features) :
    (∀ feature ∈ features, feature.symbol = symbol) ∧
      features.map Feature.tradeDate = ordered.map Row.tradeDate := featuresFrom_keys h

omit [Field K] [LinearOrder K] in
theorem featuresUpTo_own {other : String} (date : String)
    (h : ∀ feature ∈ features, feature.symbol = other) :
    featuresUpTo features symbol date =
      if other = symbol then features.filter (fun feature => feature.tradeDate ≤ date) else [] := by
  unfold featuresUpTo
  split
  · rename_i heq
    apply List.filter_congr
    intro feature hmem
    simp [h feature hmem, heq]
  · rename_i hne
    rw [List.filter_eq_nil_iff]
    intro feature hmem
    simp [h feature hmem, hne]

/-- The features of a call that returns are, symbol by symbol, those of the symbol's rows. -/
theorem featuresUpTo_eq (h : addDailyGapFeatures fmean stdev parameters rows = .ok features)
    (symbol date : String) :
    ∃ own, symbolFeatures fmean stdev parameters symbol (orderedRows rows symbol) = .ok own ∧
      featuresUpTo features symbol date = own.filter (fun feature => feature.tradeDate ≤ date) := by
  have hlist : ∀ {names : List String} {parts : List (List (Feature K))}, names.Nodup →
      List.Forall₂ (fun name part => symbolFeatures fmean stdev parameters name
        (orderedRows rows name) = .ok part) names parts →
      (symbol ∉ names → featuresUpTo parts.flatten symbol date = []) ∧
      (symbol ∈ names → ∃ own, symbolFeatures fmean stdev parameters symbol
        (orderedRows rows symbol) = .ok own ∧ featuresUpTo parts.flatten symbol date =
          own.filter (fun feature => feature.tradeDate ≤ date)) := by
    intro names parts hnodup hparts
    induction hparts with
    | nil => exact ⟨fun _ => rfl, fun hmem => absurd hmem List.not_mem_nil⟩
    | @cons name part names parts hpart _ ih =>
      obtain ⟨hnot, hrest⟩ := List.nodup_cons.mp hnodup
      have hhead := @featuresUpTo_own K symbol _ _ date (symbolFeatures_keys hpart).1
      have happend : featuresUpTo (part :: parts).flatten symbol date =
          featuresUpTo part symbol date ++ featuresUpTo parts.flatten symbol date := by
        rw [List.flatten_cons]
        exact List.filter_append _ _
      rw [happend, hhead]
      by_cases heq : name = symbol
      · subst heq
        rw [if_pos rfl, (ih hrest).1 hnot, List.append_nil]
        exact ⟨fun hmem => absurd List.mem_cons_self hmem, fun _ => ⟨part, hpart, rfl⟩⟩
      · rw [if_neg heq, List.nil_append]
        simpa [Ne.symm heq] using ih hrest
  obtain ⟨parts, hparts, rfl⟩ := map_ok h
  have hsplit := hlist (nodup_symbols rows) (forall₂_of_mapM hparts)
  by_cases hmem : symbol ∈ symbols rows
  · exact hsplit.2 hmem
  · refine ⟨[], ?_, hsplit.1 hmem⟩
    rw [orderedRows_of_not_mem hmem]
    rfl

theorem symbolFeatures_upTo {ordered : List (Row K)}
    (h : ordered.Pairwise (fun a b => a.tradeDate < b.tradeDate)) (date : String)
    (hfeatures : symbolFeatures fmean stdev parameters symbol ordered = .ok features) :
    symbolFeatures fmean stdev parameters symbol
        (ordered.filter (fun row => row.tradeDate ≤ date)) =
      .ok (features.filter (fun feature => feature.tradeDate ≤ date)) := by
  rw [Dates.split_sorted h date] at hfeatures
  obtain ⟨first, later, rfl, hfirst, hdates⟩ := symbolFeatures_append hfeatures
  have hfirstAll : first.filter (fun feature => feature.tradeDate ≤ date) = first := by
    rw [List.filter_eq_self]
    intro feature hmem
    have hkey := List.mem_map_of_mem (f := Feature.tradeDate) hmem
    rw [(symbolFeatures_keys hfirst).2] at hkey
    obtain ⟨row, hrow, heq⟩ := List.mem_map.mp hkey
    rw [← heq]
    exact (List.mem_filter.mp hrow).2
  have hlast : later.filter (fun feature => feature.tradeDate ≤ date) = [] := by
    rw [List.filter_eq_nil_iff]
    intro feature hmem
    have hkey := List.mem_map_of_mem (f := Feature.tradeDate) hmem
    rw [hdates] at hkey
    obtain ⟨row, hrow, heq⟩ := List.mem_map.mp hkey
    have hlater := (List.mem_filter.mp hrow).2
    rw [decide_eq_true_eq] at hlater ⊢
    rw [← heq]
    exact hlater.not_ge
  rw [List.filter_append, hfirstAll, hlast, List.append_nil]
  exact hfirst

omit [Field K] [LinearOrder K] in
theorem orderedRows_perm (rows : List (Row K)) (symbol date : String) :
    ((orderedRows rows symbol).filter (fun row => row.tradeDate ≤ date)).Perm
      (rowsUpTo rows symbol date) := by
  have hperm := (orderBy_perm Row.tradeDate
    (rows.filter (fun row => row.symbol = symbol))).filter (fun row => row.tradeDate ≤ date)
  rw [List.filter_filter] at hperm
  have hsame : rowsUpTo rows symbol date =
      rows.filter (fun row => decide (row.tradeDate ≤ date) && decide (row.symbol = symbol)) := by
    apply List.filter_congr
    intro row _
    rw [Bool.decide_and, Bool.and_comm]
  rw [hsame]
  exact hperm

omit [Field K] [LinearOrder K] in
theorem orderedRows_upTo {rowsA rowsB : List (Row K)} {symbol date : String}
    (ha : DistinctDates rowsA) (hb : DistinctDates rowsB)
    (h : (rowsUpTo rowsA symbol date).Perm (rowsUpTo rowsB symbol date)) :
    (orderedRows rowsA symbol).filter (fun row => row.tradeDate ≤ date) =
      (orderedRows rowsB symbol).filter (fun row => row.tradeDate ≤ date) := by
  have hperm := ((orderedRows_perm rowsA symbol date).trans h).trans
    (orderedRows_perm rowsB symbol date).symm
  apply hperm.eq_of_pairwise _ ((orderedRows_strict ha symbol).filter _)
    ((orderedRows_strict hb symbol).filter _)
  intro a b _ _ hlt hgt
  exact absurd hlt hgt.asymm

/-! ## Events -/

/-- The gaps of the rows of a symbol before a date, by their dates. -/
def earlierGaps (rows : List (Row K)) (symbol date : String) : List K :=
  (orderedRows (rows.filter (fun row => row.tradeDate < date)) symbol).filterMap Row.gap

def historyOf (parameters : Parameters K) (rows : List (Row K)) (symbol date : String) : List K :=
  lastOf parameters.gapSigmaWindow (earlierGaps rows symbol date)

/-- What an event is measured by. -/
structure Measured (stdev : List K → Except ε K) (parameters : Parameters K) (rows : List (Row K))
    (feature : Feature K) : Prop where
  row : ∃ row ∈ rows, row.symbol = feature.symbol ∧ row.tradeDate = feature.tradeDate ∧
    row.gap = feature.gap
  enough : parameters.gapSigmaMinPeriods ≤
    (historyOf parameters rows feature.symbol feature.tradeDate).length
  gapZ : ∃ sigma gap,
    stdev (historyOf parameters rows feature.symbol feature.tradeDate) = .ok sigma ∧ 0 < sigma ∧
      feature.gapSigma = some sigma ∧ feature.gap = some gap ∧ feature.gapZ = some (gap / sigma)
  fill : ∀ ratio, feature.fillRatioClose = some ratio → ∃ o c p, feature.openPrice = some o ∧
    feature.close = some c ∧ feature.preClose = some p ∧ p - o ≠ 0 ∧ ratio = (c - o) / (p - o)
  giveback : ∀ ratio, feature.givebackRatioClose = some ratio → ∃ o c p,
    feature.openPrice = some o ∧ feature.close = some c ∧ feature.preClose = some p ∧ o - p ≠ 0 ∧
      ratio = (o - c) / (o - p)

variable {prices : Prices K}

theorem validOhlc_spec {row : Row K} (h : row.validOhlc = some prices) :
    row.openPrice.finite = some prices.openPrice ∧ row.exchangeClose = some prices.prevClose ∧
      row.close.finite = some prices.close ∧ 0 < prices.prevClose := by
  unfold Row.validOhlc at h
  split at h
  · rename_i o p hi l c ho hp _ _ hc
    split at h
    · rename_i hvalid
      rw [← Option.some.inj h]
      exact ⟨ho, hp, hc, hvalid.2.1⟩
    · cases h
  · cases h

theorem sub_ne_zero_of_gap (hprev : 0 < prices.prevClose)
    (h : prices.openPrice / prices.prevClose - 1 ≠ 0) :
    prices.prevClose - prices.openPrice ≠ 0 := by
  intro hzero
  apply h
  rw [← sub_eq_zero.mp hzero, div_self hprev.ne', sub_self]

variable {feature : Feature K}

theorem classify_spec {gapZ : K} (hprev : 0 < prices.prevClose) :
    (feature.fillRatioClose = none → ∀ ratio,
      (feature.classify gapZ (some prices)).fillRatioClose = some ratio →
        prices.prevClose - prices.openPrice ≠ 0 ∧
          ratio = (prices.close - prices.openPrice) / (prices.prevClose - prices.openPrice)) ∧
    (feature.givebackRatioClose = none → ∀ ratio,
      (feature.classify gapZ (some prices)).givebackRatioClose = some ratio →
        prices.openPrice - prices.prevClose ≠ 0 ∧
          ratio = (prices.openPrice - prices.close) / (prices.openPrice - prices.prevClose)) := by
  unfold Feature.classify
  dsimp only
  split_ifs with hdown hup
  · refine ⟨fun _ ratio hratio => ⟨sub_ne_zero_of_gap hprev hdown.ne, ?_⟩, fun hnone ratio hratio =>
      absurd (hnone.symm.trans hratio) (by simp)⟩
    exact (Option.some.inj hratio).symm
  · refine ⟨fun hnone ratio hratio => absurd (hnone.symm.trans hratio) (by simp),
      fun _ ratio hratio => ⟨?_, (Option.some.inj hratio).symm⟩⟩
    rw [← neg_sub, neg_ne_zero]
    exact sub_ne_zero_of_gap hprev hup.ne'
  · exact ⟨fun hnone ratio hratio => absurd (hnone.symm.trans hratio) (by simp),
      fun hnone ratio hratio => absurd (hnone.symm.trans hratio) (by simp)⟩

theorem classify_keeps (feature : Feature K) (gapZ : K) (prices : Option (Prices K)) :
    let classified := feature.classify gapZ prices
    classified.openPrice = feature.openPrice ∧ classified.close = feature.close ∧
      classified.preClose = feature.preClose ∧ classified.gap = feature.gap ∧
      classified.gapSigma = feature.gapSigma ∧ classified.gapZ = feature.gapZ := by
  unfold Feature.classify
  cases prices with
  | none => exact ⟨rfl, rfl, rfl, rfl, rfl, rfl⟩
  | some prices =>
    dsimp only
    split_ifs <;> exact ⟨rfl, rfl, rfl, rfl, rfl, rfl⟩

theorem gapZOf_spec {gap sigma : Option K} {z : K} (h : gapZOf gap sigma = some z) :
    ∃ g s, gap = some g ∧ sigma = some s ∧ 0 < s ∧ z = g / s := by
  unfold gapZOf at h
  split at h
  · split at h
    · rename_i g s hpositive
      exact ⟨g, s, rfl, rfl, hpositive, (Option.some.inj h).symm⟩
    · cases h
  · cases h

theorem sigmaOf_spec {priorGaps : List K} {sigma : K}
    (h : sigmaOf stdev parameters priorGaps = .ok (some sigma)) :
    parameters.gapSigmaMinPeriods ≤ (lastOf parameters.gapSigmaWindow priorGaps).length ∧
      stdev (lastOf parameters.gapSigmaWindow priorGaps) = .ok sigma := by
  unfold sigmaOf at h
  dsimp only at h
  split at h
  · rename_i henough
    obtain ⟨value, hvalue, hsome⟩ := map_ok h
    rw [← Option.some.inj hsome]
    exact ⟨henough, hvalue⟩
  · cases h

theorem mem_featuresFrom {volumes amounts : List (Option K)} :
    ∀ {index : ℕ} {priorGaps : List K} {features : List (Feature K)},
      featuresFrom fmean stdev parameters symbol closes volumes amounts index priorGaps rows =
        .ok features → feature ∈ features →
      ∃ before item after, rows = before ++ item :: after ∧
        featureAt fmean stdev parameters symbol closes volumes amounts
          (priorGaps ++ before.filterMap Row.gap) (index + before.length) item = .ok feature := by
  induction rows with
  | nil =>
    intro index priorGaps features h hmem
    obtain rfl : [] = features := Except.ok.inj h
    exact absurd hmem List.not_mem_nil
  | cons item rest ih =>
    intro index priorGaps features h hmem
    obtain ⟨first, later, rfl, hfirst, hlater⟩ := featuresFrom_cons h
    rcases List.mem_cons.mp hmem with rfl | hmem
    · exact ⟨[], item, rest, rfl, by simpa using hfirst⟩
    · obtain ⟨before, other, after, hrows, hfeature⟩ := ih hlater hmem
      refine ⟨item :: before, other, after, by rw [hrows, List.cons_append], ?_⟩
      have hindex : index + 1 + before.length = index + (before.length + 1) := by omega
      have hgaps : priorGaps ++ item.gap.toList ++ before.filterMap Row.gap =
          priorGaps ++ (item :: before).filterMap Row.gap := by
        cases hgap : item.gap <;> simp [hgap]
      rw [List.length_cons, ← hindex, ← hgaps]
      exact hfeature

theorem event_classified {item : Row K} {sigma volumeRatio amountRatio : Option K}
    (hclose : closes.getD index none = item.close.finite)
    (hfeature : feature = (measure parameters symbol closes index item sigma volumeRatio
      amountRatio).event item.validOhlc) (h : feature.severity ≠ none) :
    ∃ prices z, item.validOhlc = some prices ∧ gapZOf item.gap sigma = some z ∧
      feature = (measure parameters symbol closes index item sigma volumeRatio
        amountRatio).classify z (some prices) ∧ feature.close = some prices.close := by
  rw [hfeature] at h ⊢
  unfold Feature.event at h ⊢
  split at h
  · rename_i z hz
    split at h
    · rename_i hclassified
      obtain ⟨gap, sigma, hgap, hsigma, hpositive, hvalue⟩ := gapZOf_spec hz
      obtain ⟨prices, hprices, _⟩ := Option.map_eq_some_iff.mp hgap
      rw [if_pos hclassified, hprices]
      refine ⟨prices, z, rfl, hz, rfl, ?_⟩
      rw [(classify_keeps _ _ _).2.1]
      exact hclose.trans (validOhlc_spec hprices).2.2.1
    · exact absurd rfl h
  · exact absurd rfl h

omit [Field K] [LinearOrder K] in
theorem orderedRows_before (h : DistinctDates rows) {symbol : String} {before after : List (Row K)}
    {item : Row K} (hsplit : orderedRows rows symbol = before ++ item :: after) :
    orderedRows (rows.filter (fun row => row.tradeDate < item.tradeDate)) symbol = before := by
  have hstrict := orderedRows_strict h symbol
  rw [hsplit] at hstrict
  obtain ⟨hbefore, hitem, hcross⟩ := List.pairwise_append.mp hstrict
  have hfilter : (orderedRows rows symbol).filter (fun row => row.tradeDate < item.tradeDate) =
      before := by
    rw [hsplit, List.filter_append, List.filter_cons_of_neg (by simp)]
    have hall : before.filter (fun row => row.tradeDate < item.tradeDate) = before := by
      rw [List.filter_eq_self]
      intro row hrow
      simpa using hcross row hrow item List.mem_cons_self
    have hnone : after.filter (fun row => row.tradeDate < item.tradeDate) = [] := by
      rw [List.filter_eq_nil_iff]
      intro row hrow
      have hlater := (List.pairwise_cons.mp hitem).1 row hrow
      rw [decide_eq_true_eq]
      exact hlater.not_gt
    rw [hall, hnone, List.append_nil]
  have hperm : (orderedRows (rows.filter (fun row => row.tradeDate < item.tradeDate)) symbol).Perm
      before := by
    rw [← hfilter]
    unfold orderedRows
    refine (orderBy_perm _ _).trans ?_
    rw [List.filter_comm]
    exact ((orderBy_perm _ _).filter _).symm
  have hdistinct : DistinctDates (rows.filter (fun row => row.tradeDate < item.tradeDate)) := by
    intro other
    rw [List.filter_comm]
    exact (h other).sublist (List.filter_sublist.map Row.tradeDate)
  apply hperm.eq_of_pairwise _ (orderedRows_strict hdistinct symbol) hbefore
  intro a b _ _ hlt hgt
  exact absurd hlt hgt.asymm

theorem mem_features (h : addDailyGapFeatures fmean stdev parameters rows = .ok features)
    (hmem : feature ∈ features) :
    ∃ symbol own, symbolFeatures fmean stdev parameters symbol (orderedRows rows symbol) = .ok own ∧
      feature ∈ own := by
  obtain ⟨parts, hparts, rfl⟩ := map_ok h
  obtain ⟨part, hpart, hfeature⟩ := List.mem_flatten.mp hmem
  obtain ⟨symbol, -, hown⟩ := exists_of_mapM hparts hpart
  exact ⟨symbol, part, hown, hfeature⟩

theorem measured_of_classified (h : DistinctDates rows)
    (hfeatures : addDailyGapFeatures fmean stdev parameters rows = .ok features)
    (hmem : feature ∈ features) (hclassified : feature.severity ≠ none) :
    Measured stdev parameters rows feature := by
  obtain ⟨symbol, own, hown, hmem⟩ := mem_features hfeatures hmem
  have hsymbol := (symbolFeatures_keys hown).1 feature hmem
  obtain ⟨before, item, after, hsplit, hfeature⟩ := mem_featuresFrom hown hmem
  rw [List.nil_append, Nat.zero_add] at hfeature
  have hclose : ((orderedRows rows symbol).map (fun row => row.close.finite)).getD before.length
      none = item.close.finite := by
    rw [hsplit, List.map_append, List.getD_eq_getElem?_getD]
    simp
  have hdate : feature.tradeDate = item.tradeDate := (featureAt_symbol hfeature).2
  have hhistory : historyOf parameters rows feature.symbol feature.tradeDate =
      lastOf parameters.gapSigmaWindow (before.filterMap Row.gap) := by
    unfold historyOf earlierGaps
    rw [hsymbol, hdate, orderedRows_before h hsplit]
  obtain ⟨sigma, volumeRatio, amountRatio, hsigma, hevent⟩ := featureAt_ok hfeature
  obtain ⟨prices, z, hprices, hz, hspec, hprice⟩ := event_classified hclose hevent hclassified
  obtain ⟨gap, value, hgap, rfl, hpositive, hquotient⟩ := gapZOf_spec hz
  obtain ⟨henough, hstdev⟩ := sigmaOf_spec hsigma
  obtain ⟨hopen, hprev, _, hpos⟩ := validOhlc_spec hprices
  have hkeeps := classify_keeps (measure parameters symbol
    ((orderedRows rows symbol).map (fun row => row.close.finite)) before.length item (some value)
    volumeRatio amountRatio) z (some prices)
  dsimp only at hkeeps
  rw [← hspec] at hkeeps
  obtain ⟨hkopen, _, hkprev, hkgap, hksigma, hkz⟩ := hkeeps
  have hratio := @classify_spec K _ _ prices (measure parameters symbol
    ((orderedRows rows symbol).map (fun row => row.close.finite)) before.length item (some value)
    volumeRatio amountRatio) z hpos
  rw [← hspec] at hratio
  have hitem : item ∈ rows ∧ item.symbol = symbol := by
    have hin : item ∈ orderedRows rows symbol := by
      rw [hsplit]
      exact List.mem_append_right _ List.mem_cons_self
    simpa using mem_orderBy.mp hin
  constructor
  · exact ⟨item, hitem.1, hitem.2.trans hsymbol.symm, hdate.symm, hkgap.symm⟩
  · rw [hhistory]
    exact henough
  · rw [hhistory]
    refine ⟨value, gap, hstdev, hpositive, hksigma, hkgap.trans hgap, ?_⟩
    rw [hkz, ← hquotient]
    exact hz
  · intro ratio hfill
    exact ⟨_, _, _, hkopen.trans hopen, hprice, hkprev.trans hprev, hratio.1 rfl ratio hfill⟩
  · intro ratio hback
    exact ⟨_, _, _, hkopen.trans hopen, hprice, hkprev.trans hprev, hratio.2 rfl ratio hback⟩

/-- Each row has a feature. -/
theorem dates_eq (h : addDailyGapFeatures fmean stdev parameters rows = .ok features)
    (symbol date : String) :
    (featuresUpTo features symbol date).map Feature.tradeDate =
      ((orderedRows rows symbol).filter (fun row => row.tradeDate ≤ date)).map Row.tradeDate := by
  obtain ⟨own, hown, hfeatures⟩ := featuresUpTo_eq h symbol date
  have hdates : (own.map Feature.tradeDate).filter (fun other => other ≤ date) =
      ((orderedRows rows symbol).map Row.tradeDate).filter (fun other => other ≤ date) := by
    rw [(symbolFeatures_keys hown).2]
  rw [List.filter_map, List.filter_map] at hdates
  rw [hfeatures]
  exact hdates

/-- Where the calls on lists that agree up to a date return, their features are the same up to it,
whatever comes later, each row has its feature, and each event was measured by enough earlier gaps
and divides by no zero. -/
theorem gap_features_causal (fmean stdev : List K → Except ε K) (parameters : Parameters K)
    {rowsA rowsB : List (Row K)} {date : String} (ha : DistinctDates rowsA)
    (hb : DistinctDates rowsB)
    (hagree : ∀ symbol, (rowsUpTo rowsA symbol date).Perm (rowsUpTo rowsB symbol date))
    {featuresA featuresB : List (Feature K)}
    (hfeaturesA : addDailyGapFeatures fmean stdev parameters rowsA = .ok featuresA)
    (hfeaturesB : addDailyGapFeatures fmean stdev parameters rowsB = .ok featuresB) :
    (∀ symbol, featuresUpTo featuresA symbol date = featuresUpTo featuresB symbol date) ∧
    (∀ symbol, ((featuresUpTo featuresA symbol date).map Feature.tradeDate).Perm
      ((rowsUpTo rowsA symbol date).map Row.tradeDate)) ∧
    ∀ feature ∈ featuresA, feature.severity ≠ none → Measured stdev parameters rowsA feature := by
  refine ⟨fun symbol => ?_, fun symbol => ?_, fun feature hmem hclassified =>
    measured_of_classified ha hfeaturesA hmem hclassified⟩
  · obtain ⟨ownA, hownA, hA⟩ := featuresUpTo_eq hfeaturesA symbol date
    obtain ⟨ownB, hownB, hB⟩ := featuresUpTo_eq hfeaturesB symbol date
    have hupA := symbolFeatures_upTo (orderedRows_strict ha symbol) date hownA
    have hupB := symbolFeatures_upTo (orderedRows_strict hb symbol) date hownB
    rw [orderedRows_upTo ha hb (hagree symbol), hupB] at hupA
    rw [hA, hB]
    exact (Except.ok.inj hupA).symm
  · rw [dates_eq hfeaturesA symbol date]
    exact (orderedRows_perm rowsA symbol date).map Row.tradeDate

/-! ### Samples -/

def sampleRow (date : String) (openPrice volume : ℚ) : Row ℚ :=
  { symbol := "000300.SH", tradeDate := date, openPrice := .number openPrice, high := .number 12,
    low := .number 8, close := .number 10, volume := .missing, vol := .number volume,
    amount := .invalid, prevClose := .number 10, preClose := .missing }

def sampleParameters : Parameters ℚ where
  gapSigmaWindow := 20
  gapSigmaMinPeriods := 10
  volumeWindow := 5
  volumeMinPeriods := 3
  corporateActionTolerance := 1 / 1000
  sigmaWindow_bounds := by decide
  sigmaMinPeriods_bounds := by decide
  volumeWindow_bounds := by decide
  volumeMinPeriods_bounds := by decide
  tolerance_bounds := by decide +kernel

/-- `statistics.fmean`, which raises where the sum is too large for a double. -/
def sampleMean (values : List ℚ) : Except String ℚ :=
  if values = [] then .error "fmean requires at least one data point"
  else if 2 ^ 1024 - 2 ^ 970 ≤ |values.sum| then .error "intermediate overflow in fsum"
  else .ok (values.sum / values.length)

/-- The whole part of the root, bit by bit. -/
def wholeRoot (n : ℕ) : ℕ :=
  (List.range 64).foldr (fun i r => if (r + 2 ^ i) * (r + 2 ^ i) ≤ n then r + 2 ^ i else r) 0

/-- `statistics.stdev` to twelve digits. -/
def sampleStdev (values : List ℚ) : Except String ℚ :=
  let centre := values.sum / values.length
  let squares := (values.map (fun v => (v - centre) * (v - centre))).sum
  if values.length < 2 then .error "stdev requires at least two data points"
  else .ok (wholeRoot (squares / (values.length - 1) * 10 ^ 24).floor.toNat / 10 ^ 12)

/-- Seventeen gaps with the deviation one percent. -/
def sampleHistory : List (Row ℚ) :=
  (List.range 17).map (fun n => sampleRow ("2024-01-" ++ toString (n + 10))
    (if n = 0 then 10 else if n % 2 = 0 then 101 / 10 else 99 / 10) 100)

def sampleA : List (Row ℚ) := sampleRow "2024-02-01" 9 100 :: sampleRow "2024-01-31" (102 / 10) 100 ::
  sampleHistory

def sampleB : List (Row ℚ) := sampleHistory ++
  [sampleRow "2024-01-31" (102 / 10) 100, sampleRow "2024-02-05" 11 300]

omit [Field K] [LinearOrder K] in
theorem distinctDates_of_nodup (h : (rows.map Row.tradeDate).Nodup) : DistinctDates rows :=
  fun _ => h.sublist (List.filter_sublist.map Row.tradeDate)

omit [Field K] [LinearOrder K] in
theorem rowsUpTo_perm {rowsA rowsB : List (Row K)} {date : String}
    (h : (rowsA.filter (fun row => row.tradeDate ≤ date)).Perm
      (rowsB.filter (fun row => row.tradeDate ≤ date))) (symbol : String) :
    (rowsUpTo rowsA symbol date).Perm (rowsUpTo rowsB symbol date) := by
  have hsame : ∀ rows : List (Row K), rowsUpTo rows symbol date =
      (rows.filter (fun row => row.tradeDate ≤ date)).filter (fun row => row.symbol = symbol) := by
    intro rows
    unfold rowsUpTo
    rw [List.filter_filter]
    simp only [Bool.decide_and]
  rw [hsame, hsame]
  exact h.filter _

/-- A gap of two percent after seventeen others is an event, whatever comes after it. -/
theorem gap_features_causal_sample :
    ∃ featuresA featuresB,
      addDailyGapFeatures sampleMean sampleStdev sampleParameters sampleA = .ok featuresA ∧
      addDailyGapFeatures sampleMean sampleStdev sampleParameters sampleB = .ok featuresB ∧
      (∀ symbol, featuresUpTo featuresA symbol "2024-01-31" =
        featuresUpTo featuresB symbol "2024-01-31") ∧
      ∃ feature ∈ featuresA, feature.tradeDate = "2024-01-31" ∧ feature.gapZ = some 2 ∧
        Measured sampleStdev sampleParameters sampleA feature := by
  obtain ⟨featuresA, hA⟩ := @exists_of_isOk _ _
    (addDailyGapFeatures sampleMean sampleStdev sampleParameters sampleA) (by decide +kernel)
  obtain ⟨featuresB, hB⟩ := @exists_of_isOk _ _
    (addDailyGapFeatures sampleMean sampleStdev sampleParameters sampleB) (by decide +kernel)
  have hevent : ∃ feature ∈ featuresA, feature.tradeDate = "2024-01-31" ∧ feature.gapZ = some 2 ∧
      feature.severity ≠ none := by
    have hcomputed : OnOk (fun features : List (Feature ℚ) => ∃ feature ∈ features,
        feature.tradeDate = "2024-01-31" ∧ feature.gapZ = some 2 ∧ feature.severity ≠ none)
        (addDailyGapFeatures sampleMean sampleStdev sampleParameters sampleA) := by decide +kernel
    rw [hA] at hcomputed
    exact hcomputed
  obtain ⟨feature, hmem, hdate, hz, hclassified⟩ := hevent
  have hrows : (sampleA.filter (fun row => row.tradeDate ≤ "2024-01-31")).Perm
      (sampleB.filter (fun row => row.tradeDate ≤ "2024-01-31")) := by decide +kernel
  have hcausal := gap_features_causal sampleMean sampleStdev sampleParameters
    (distinctDates_of_nodup (by decide +kernel)) (distinctDates_of_nodup (by decide +kernel))
    (rowsUpTo_perm hrows) hA hB
  exact ⟨featuresA, featuresB, hA, hB, hcausal.1, feature, hmem, hdate, hz,
    hcausal.2.2 feature hmem hclassified⟩

/-- Rows with enormous volumes after the first one make the call raise. -/
theorem later_rows_raise :
    (addDailyGapFeatures sampleMean sampleStdev sampleParameters
      [sampleRow "2024-01-02" 10 100]).isOk = true ∧
    (addDailyGapFeatures sampleMean sampleStdev sampleParameters
      [sampleRow "2024-01-02" 10 100, sampleRow "2024-01-03" 10 (10 ^ 308),
        sampleRow "2024-01-04" 10 (10 ^ 308), sampleRow "2024-01-05" 10 100]).isOk = false := by
  decide +kernel

end LocalPlatform.Research.Gaps
