import LocalPlatform.Futures.MainMapping
import LocalPlatform.Lib.Results
import Mathlib.Tactic.FieldSimp
import Mathlib.Tactic.Linarith
import Mathlib.Tactic.Ring

/-!
# Continuous futures series

`_continuous_rows` walks over the priced rows of a mapping batch.  It books the change of the
contract that was held into each row, the costs, and the gap of a roll;
`_apply_continuous_adjustment` goes back over the rows and removes the gaps.

* `IsExit` says on the bars at which price the position of the row before is marked: the close of
  the held contract that day, or its last close where it has none.  `heldExit` is the price of the
  loop.
* `Follows` is what the loop says of two consecutive rows, and `continuousRows_follow` that it does.
* `continuous_agrees`: the adjusted series, the booked changes and the segments that were held all
  give the same moves.
* Arithmetic is exact.
-/

namespace LocalPlatform.Futures

open Results Tables

variable {δ : Type}

/-! ## The rows of a batch -/

structure MappingRow (δ : Type) where
  tradeDate : δ
  mainSymbol : String
  batchId : String
  deriving DecidableEq

/-- The tables; the code of a contract is its primary key. -/
structure SeriesTables (δ : Type) where
  contracts : List (Contract δ)
  bars : List (Bar δ)
  mapping : List (MappingRow δ)
  codes : Unique Contract.code contracts

/-- A row of the join of the mapping with the contracts and the bars. -/
structure JoinedRow (δ : Type) where
  tradeDate : δ
  mainSymbol : String
  openPrice : Option ℚ
  close : Option ℚ
  createdAt : ℕ
  multiplier : Option ℚ
  marginRate : Option ℚ
  tickSize : Option ℚ
  deriving DecidableEq

def joinedRow (entry : MappingRow δ) (contract : Contract δ) (bar : Bar δ) : JoinedRow δ :=
  { tradeDate := entry.tradeDate
    mainSymbol := entry.mainSymbol
    openPrice := bar.openPrice
    close := bar.close
    createdAt := bar.createdAt
    multiplier := contract.multiplier
    marginRate := contract.marginRate
    tickSize := contract.tickSize }

section Select

variable [LinearOrder δ]

def joinedRows (tables : SeriesTables δ) (batchId : String) : List (JoinedRow δ) :=
  (tables.mapping.filter (fun entry => entry.batchId = batchId)).flatMap (fun entry =>
    (tables.contracts.filter (fun contract => contract.code = entry.mainSymbol)).flatMap
      (fun contract =>
        (tables.bars.filter (fun bar => bar.contractCode = entry.mainSymbol ∧
          bar.tradeDate = entry.tradeDate)).map (joinedRow entry contract)))

/-- The latest row of each date, in the order of the dates. -/
def selectedRows (tables : SeriesTables δ) (batchId : String) : List (JoinedRow δ) :=
  uniqueFirst JoinedRow.tradeDate
    (orderBy (fun row => toLex (row.tradeDate, OrderDual.toDual row.createdAt))
      (joinedRows tables batchId))

/-- `_latest_contract_close` -/
def latestContractClose (bars : List (Bar δ)) (code : String) (date : δ) : Option ℚ :=
  (orderBy (fun bar => OrderDual.toDual bar.createdAt)
    (bars.filter (fun bar => bar.contractCode = code ∧ bar.tradeDate = date ∧
      bar.close ≠ none))).head?.bind Bar.close

end Select

/-! ## A row of the series -/

structure FeeSchedule where
  openRate : Option ℚ
  closeRate : Option ℚ
  perContract : Option ℚ
  slippageTicks : Option ℚ
  deriving DecidableEq

structure Cost where
  commission : ℚ
  slippage : ℚ
  deriving DecidableEq

/-- `_transaction_cost` -/
def transactionCost (price multiplier contracts rate perContract tickSize slippageTicks : ℚ) : Cost :=
  let quantity := |contracts|
  { commission := quantity * perContract + quantity * price * multiplier * rate
    slippage := quantity * tickSize * multiplier * slippageTicks }

/-- The price of a row and the terms of its contract. -/
structure Terms where
  close : ℚ
  multiplier : ℚ
  marginRate : ℚ
  tickSize : ℚ
  deriving DecidableEq

/-- `value or fallback` -/
def valueOr (value : Option ℚ) (fallback : ℚ) : ℚ :=
  match value with
  | none => fallback
  | some number => if number = 0 then fallback else number

def missingFields (bar : JoinedRow δ) : List String :=
  ([("close", bar.close), ("multiplier", bar.multiplier), ("margin_rate", bar.marginRate),
    ("tick_size", bar.tickSize)].filter (fun field => field.2 = none)).map Prod.fst

/-- The terms of a row, if it has a price. -/
def termsOf (strict : Bool) (bar : JoinedRow δ) : Except String (Option Terms) :=
  if strict ∧ missingFields bar ≠ [] then
    .error (bar.mainSymbol ++ " is missing required futures metadata: " ++
      String.intercalate ", " (missingFields bar) ++ ".")
  else
    match bar.close with
    | none => .ok none
    | some close =>
      let multiplier := valueOr bar.multiplier 1
      let marginRate := valueOr bar.marginRate 0
      let tickSize := valueOr bar.tickSize 0
      if strict ∧ (multiplier ≤ 0 ∨ marginRate ≤ 0 ∨ tickSize ≤ 0) then
        .error (bar.mainSymbol ++
          " requires positive multiplier, margin rate, and tick size in strict mode.")
      else if multiplier ≤ 0 ∨ marginRate < 0 ∨ tickSize < 0 then
        .error (bar.mainSymbol ++ " has invalid multiplier, margin rate, or tick size.")
      else .ok (some { close, multiplier, marginRate, tickSize })

structure ContinuousRow (δ : Type) where
  tradeDate : δ
  contractCode : String
  rawOpen : Option ℚ
  rawClose : ℚ
  multiplier : ℚ
  marginRate : ℚ
  tickSize : ℚ
  notional : ℚ
  marginRequired : ℚ
  variationPnl : ℚ
  commission : ℚ
  slippage : ℚ
  netPnl : ℚ
  cumulativeNetPnl : ℚ
  isRoll : Bool
  rollGap : Option ℚ
  rollYield : Option ℚ
  deriving DecidableEq

structure Roll (δ : Type) where
  tradeDate : δ
  fromContract : String
  toContract : String
  fromPrice : ℚ
  toPrice : ℚ
  rollGap : ℚ
  rollYield : ℚ
  marketPnl : ℚ
  commission : ℚ
  slippage : ℚ
  netPnl : ℚ
  deriving DecidableEq

/-- What a row says about the position that was held into it. -/
structure Attribution where
  oldClose : Option ℚ
  variationPnl : ℚ
  rollGap : Option ℚ
  rollYield : Option ℚ
  cost : Cost
  deriving DecidableEq

/-- What `_continuous_rows` is called with. -/
structure SeriesConfig where
  batchId : String
  contracts : ℚ
  schedule : FeeSchedule
  strictMetadata : Bool
  deriving DecidableEq

section Loop

variable [LinearOrder δ] [ToString δ] (tables : SeriesTables δ) (config : SeriesConfig)

def openCost (terms : Terms) : Cost :=
  transactionCost terms.close terms.multiplier config.contracts (config.schedule.openRate.getD 0)
    (config.schedule.perContract.getD 0) terms.tickSize (config.schedule.slippageTicks.getD 0)

/-- The costs of closing the position of a row at a price. -/
def closeCost (price : ℚ) (previous : ContinuousRow δ) : Cost :=
  transactionCost price previous.multiplier config.contracts (config.schedule.closeRate.getD 0)
    (config.schedule.perContract.getD 0) previous.tickSize (config.schedule.slippageTicks.getD 0)

/-- A roll marks the old contract at its close of the day, or else at its last one. -/
def rollAt (oldClose : ℚ) (previous : ContinuousRow δ) (terms : Terms) : Attribution :=
  let closing := closeCost config oldClose previous
  let opening := openCost config terms
  { oldClose := some oldClose
    variationPnl := (oldClose - previous.rawClose) * previous.multiplier * config.contracts
    rollGap := some (terms.close - oldClose)
    rollYield := some (if oldClose = 0 then 0 else (oldClose - terms.close) / oldClose)
    cost := { commission := closing.commission + opening.commission
              slippage := closing.slippage + opening.slippage } }

def attribution (previous : Option (ContinuousRow δ)) (bar : JoinedRow δ) (terms : Terms) :
    Except String Attribution :=
  match previous with
  | none => .ok { oldClose := none, variationPnl := 0, rollGap := none, rollYield := none,
                  cost := openCost config terms }
  | some previous =>
    if previous.contractCode = bar.mainSymbol then
      .ok { oldClose := none
            variationPnl := (terms.close - previous.rawClose) * terms.multiplier * config.contracts
            rollGap := none
            rollYield := none
            cost := { commission := 0, slippage := 0 } }
    else
      match latestContractClose tables.bars previous.contractCode bar.tradeDate with
      | some oldClose => .ok (rollAt config oldClose previous terms)
      | none =>
        if config.strictMetadata then
          .error ("Cannot attribute roll on " ++ toString bar.tradeDate ++ ": " ++
            previous.contractCode ++ " has no same-day close.")
        else .ok (rollAt config previous.rawClose previous terms)

def rowOf (previous : Option (ContinuousRow δ)) (cumulative : ℚ) (bar : JoinedRow δ)
    (terms : Terms) (attributed : Attribution) : ContinuousRow δ :=
  let notional := |config.contracts| * terms.close * terms.multiplier
  let netPnl := attributed.variationPnl - attributed.cost.commission - attributed.cost.slippage
  { tradeDate := bar.tradeDate
    contractCode := bar.mainSymbol
    rawOpen := bar.openPrice
    rawClose := terms.close
    multiplier := terms.multiplier
    marginRate := terms.marginRate
    tickSize := terms.tickSize
    notional := notional
    marginRequired := notional * terms.marginRate
    variationPnl := attributed.variationPnl
    commission := attributed.cost.commission
    slippage := attributed.cost.slippage
    netPnl := netPnl
    cumulativeNetPnl := cumulative + netPnl
    isRoll := previous.any (fun row => row.contractCode != bar.mainSymbol)
    rollGap := attributed.rollGap
    rollYield := attributed.rollYield }

/-- The roll of a row, if it is one. -/
def rollOf (previous : Option (ContinuousRow δ)) (row : ContinuousRow δ)
    (attributed : Attribution) : Option (Roll δ) :=
  match previous, attributed.oldClose with
  | some previous, some oldClose =>
    if row.isRoll then
      some
        { tradeDate := row.tradeDate
          fromContract := previous.contractCode
          toContract := row.contractCode
          fromPrice := oldClose
          toPrice := row.rawClose
          rollGap := row.rollGap.getD 0
          rollYield := row.rollYield.getD 0
          marketPnl := row.variationPnl
          commission := row.commission
          slippage := row.slippage
          netPnl := row.netPnl }
    else none
  | _, _ => none

/-- The loop of `_continuous_rows`. -/
def seriesFrom : Option (ContinuousRow δ) → ℚ → List (JoinedRow δ) →
    Except String (List (ContinuousRow δ) × List (Roll δ))
  | _, _, [] => .ok ([], [])
  | previous, cumulative, bar :: bars =>
    (termsOf config.strictMetadata bar).bind fun
      | none => seriesFrom previous cumulative bars
      | some terms =>
        (attribution tables config previous bar terms).bind fun attributed =>
          let row := rowOf config previous cumulative bar terms attributed
          (seriesFrom (some row) row.cumulativeNetPnl bars).map fun rest =>
            (row :: rest.1, (rollOf previous row attributed).toList ++ rest.2)

/-- `_continuous_rows` -/
def continuousRows : Except String (List (ContinuousRow δ) × List (Roll δ)) :=
  let series := selectedRows tables config.batchId
  if series = [] then
    .error "The main-contract mapping produced no priced continuous-contract rows."
  else seriesFrom tables config none 0 series

end Loop

/-! ## Adjustment -/

inductive Adjustment where
  | none
  | backwardRatio
  | backwardDifference
  deriving DecidableEq

def adjustmentOf (name : String) : Except String Adjustment :=
  if name = "none" then .ok .none
  else if name = "backward_ratio" then .ok .backwardRatio
  else if name = "backward_difference" then .ok .backwardDifference
  else .error "adjustment must be none, backward_ratio, or backward_difference."

structure AdjustedRow (δ : Type) where
  row : ContinuousRow δ
  adjustmentFactor : ℚ
  adjustedClose : ℚ
  deriving DecidableEq

/-- What the loop carries to the earlier rows. -/
structure Carry where
  ratio : ℚ
  difference : ℚ
  deriving DecidableEq

def adjustRow (adjustment : Adjustment) (carry : Carry) (row : ContinuousRow δ) : AdjustedRow δ :=
  match adjustment with
  | .backwardRatio => ⟨row, carry.ratio, row.rawClose * carry.ratio⟩
  | .backwardDifference => ⟨row, carry.difference, row.rawClose + carry.difference⟩
  | .none => ⟨row, 1, row.rawClose⟩

def Carry.over (adjustment : Adjustment) (carry : Carry) (row : ContinuousRow δ) : Carry :=
  match row.isRoll, row.rollGap with
  | true, some gap =>
    let oldPrice := row.rawClose - gap
    match adjustment with
    | .backwardRatio =>
      if oldPrice = 0 then carry else { carry with ratio := carry.ratio * (row.rawClose / oldPrice) }
    | .backwardDifference => { carry with difference := carry.difference + gap }
    | .none => carry
  | _, _ => carry

/-- The loop from the last row to the first: the adjusted rows, and what is carried on. -/
def adjustBack (adjustment : Adjustment) : List (ContinuousRow δ) → List (AdjustedRow δ) × Carry
  | [] => ([], { ratio := 1, difference := 0 })
  | row :: rows =>
    let later := adjustBack adjustment rows
    (adjustRow adjustment later.2 row :: later.1, later.2.over adjustment row)

/-- `_apply_continuous_adjustment` -/
def applyContinuousAdjustment (rows : List (ContinuousRow δ)) (adjustment : String) :
    Except String (List (AdjustedRow δ)) :=
  (adjustmentOf adjustment).map fun adjustment => (adjustBack adjustment rows).1

/-! ## Two consecutive rows -/

section Follow

variable [LinearOrder δ] [ToString δ] {tables : SeriesTables δ} {config : SeriesConfig}

/-- A close of a contract on a date, of which no bar with a close is later. -/
def LatestClose (bars : List (Bar δ)) (code : String) (date : δ) (close : ℚ) : Prop :=
  ∃ bar ∈ bars, bar.contractCode = code ∧ bar.tradeDate = date ∧ bar.close = some close ∧
    ∀ other ∈ bars, other.contractCode = code → other.tradeDate = date → other.close ≠ none →
      other.createdAt ≤ bar.createdAt

/-- The price of a position on the date of the next row: the latest close of the held contract, or
the price of its own row where the contract has no close that day. -/
def IsExit (bars : List (Bar δ)) (previous row : ContinuousRow δ) (price : ℚ) : Prop :=
  LatestClose bars previous.contractCode row.tradeDate price ∨
    (∀ bar ∈ bars, bar.contractCode = previous.contractCode → bar.tradeDate = row.tradeDate →
      bar.close = none) ∧ price = previous.rawClose

/-- The price at which the loop marks the position of a row on the next one. -/
def heldExit (bars : List (Bar δ)) (previous row : ContinuousRow δ) : ℚ :=
  if previous.contractCode = row.contractCode then row.rawClose
  else (latestContractClose bars previous.contractCode row.tradeDate).getD previous.rawClose

/-- What a row says of itself. -/
structure Priced (tables : SeriesTables δ) (row : ContinuousRow δ) : Prop where
  net : row.netPnl = row.variationPnl - row.commission - row.slippage
  multiplier_pos : 0 < row.multiplier
  ofContract : ∀ contract ∈ tables.contracts, contract.code = row.contractCode →
    row.multiplier = valueOr contract.multiplier 1
  known : ∃ contract ∈ tables.contracts, contract.code = row.contractCode
  close : LatestClose tables.bars row.contractCode row.tradeDate row.rawClose

/-- What the loop says of two consecutive rows. -/
structure Follows (bars : List (Bar δ)) (contracts : ℚ) (previous row : ContinuousRow δ) :
    Prop where
  isRoll : row.isRoll = decide (previous.contractCode ≠ row.contractCode)
  gap : row.rollGap = if previous.contractCode = row.contractCode then none
    else some (row.rawClose - heldExit bars previous row)
  variation : row.variationPnl =
    (heldExit bars previous row - previous.rawClose) * previous.multiplier * contracts
  cumulative : row.cumulativeNetPnl = previous.cumulativeNetPnl + row.netPnl

variable {bar : JoinedRow δ} {terms : Terms}

omit [LinearOrder δ] [ToString δ] in
theorem termsOf_some {strict : Bool} (h : termsOf strict bar = .ok (some terms)) :
    bar.close = some terms.close ∧ terms.multiplier = valueOr bar.multiplier 1 ∧
      0 < terms.multiplier := by
  unfold termsOf at h
  by_cases hmissing : strict ∧ missingFields bar ≠ []
  · rw [if_pos hmissing] at h
    cases h
  · rw [if_neg hmissing] at h
    cases hclose : bar.close with
    | none => simp [hclose] at h
    | some close =>
      simp only [hclose] at h
      split_ifs at h with hstrict hinvalid
      have hterms := Option.some.inj (Except.ok.inj h)
      rw [← hterms]
      refine ⟨rfl, rfl, ?_⟩
      exact not_le.mp (fun hle => hinvalid (.inl hle))

variable {batchId : String}

omit [ToString δ] in
theorem mem_joinedRows {row : JoinedRow δ} :
    row ∈ joinedRows tables batchId ↔ ∃ entry ∈ tables.mapping, entry.batchId = batchId ∧
      ∃ contract ∈ tables.contracts, contract.code = entry.mainSymbol ∧ ∃ bar ∈ tables.bars,
        bar.contractCode = entry.mainSymbol ∧ bar.tradeDate = entry.tradeDate ∧
          joinedRow entry contract bar = row := by
  unfold joinedRows
  simp only [List.mem_flatMap, List.mem_map, List.mem_filter, decide_eq_true_eq, and_assoc]

omit [ToString δ] in
theorem mem_selectedRows {row : JoinedRow δ} (h : row ∈ selectedRows tables batchId) :
    row ∈ joinedRows tables batchId ∧
      ∀ other ∈ joinedRows tables batchId, other.tradeDate = row.tradeDate →
        other.createdAt ≤ row.createdAt := by
  have hfind := mem_uniqueFirst_iff.mp h
  refine ⟨mem_orderBy.mp (mem_of_find hfind), fun other hother hdate => ?_⟩
  -- the rows of one date stand from the latest to the first
  obtain ⟨before, after, hsplit, hbefore⟩ := (List.find?_eq_some_iff_append.mp hfind).2
  have hsorted := orderBy_sorted (fun row : JoinedRow δ =>
    toLex (row.tradeDate, OrderDual.toDual row.createdAt)) (joinedRows tables batchId)
  have hmem : other ∈ orderBy (fun row : JoinedRow δ =>
      toLex (row.tradeDate, OrderDual.toDual row.createdAt)) (joinedRows tables batchId) :=
    mem_orderBy.mpr hother
  rw [hsplit] at hsorted hmem
  rcases List.mem_append.mp hmem with hfirst | hlast
  · have hdiffers := hbefore other hfirst
    simp [hdate] at hdiffers
  · rcases List.mem_cons.mp hlast with rfl | hafter
    · exact le_rfl
    · have hle := (List.pairwise_cons.mp (List.pairwise_append.mp hsorted).2.1).1 other hafter
      rcases Prod.Lex.toLex_le_toLex.mp hle with hlt | hsame
      · exact absurd hdate.symm hlt.ne
      · exact OrderDual.toDual_le_toDual.mp hsame.2

/-- What is known of the first row. -/
structure Opens (row : ContinuousRow δ) : Prop where
  isRoll : row.isRoll = false
  variation : row.variationPnl = 0
  cumulative : row.cumulativeNetPnl = row.netPnl

theorem attribution_first {attributed : Attribution}
    (h : attribution tables config none bar terms = .ok attributed) :
    Opens (rowOf config none 0 bar terms attributed) := by
  have hattributed := Except.ok.inj h
  rw [← hattributed]
  exact ⟨rfl, rfl, zero_add _⟩

theorem attribution_next {previous row : ContinuousRow δ} {attributed : Attribution}
    (h : attribution tables config (some previous) bar terms = .ok attributed)
    (hrow : row = rowOf config (some previous) previous.cumulativeNetPnl bar terms attributed)
    (hmultiplier : previous.contractCode = bar.mainSymbol →
      terms.multiplier = previous.multiplier) :
    Follows tables.bars config.contracts previous row := by
  have hcode : row.contractCode = bar.mainSymbol := by rw [hrow]; rfl
  have hdate : row.tradeDate = bar.tradeDate := by rw [hrow]; rfl
  have hclose : row.rawClose = terms.close := by rw [hrow]; rfl
  have hgap : row.rollGap = attributed.rollGap := by rw [hrow]; rfl
  have hvariation : row.variationPnl = attributed.variationPnl := by rw [hrow]; rfl
  have hcumulative : row.cumulativeNetPnl = previous.cumulativeNetPnl + row.netPnl := by
    rw [hrow]
    rfl
  have hisRoll : row.isRoll = decide (previous.contractCode ≠ row.contractCode) := by
    rw [hcode, hrow]
    by_cases hsame : previous.contractCode = bar.mainSymbol
    · simp [rowOf, hsame]
    · simp [rowOf, hsame]
  have hroll : ∀ oldClose, attributed = rollAt config oldClose previous terms →
      previous.contractCode ≠ bar.mainSymbol →
      (latestContractClose tables.bars previous.contractCode bar.tradeDate).getD
        previous.rawClose = oldClose →
      Follows tables.bars config.contracts previous row := by
    intro oldClose hattributed hne hexit
    have hheld : heldExit tables.bars previous row = oldClose := by
      unfold heldExit
      rw [hcode, if_neg hne, hdate, hexit]
    refine ⟨hisRoll, ?_, ?_, hcumulative⟩
    · rw [hgap, hheld, hcode, if_neg hne, hattributed, hclose]
      rfl
    · rw [hvariation, hheld, hattributed]
      rfl
  unfold attribution at h
  dsimp only at h
  by_cases hsame : previous.contractCode = bar.mainSymbol
  · rw [if_pos hsame] at h
    have hattributed := Except.ok.inj h
    have hheld : heldExit tables.bars previous row = terms.close := by
      unfold heldExit
      rw [hcode, if_pos hsame, hclose]
    refine ⟨hisRoll, ?_, ?_, hcumulative⟩
    · rw [hgap, hcode, if_pos hsame, ← hattributed]
    · rw [hvariation, hheld, ← hattributed, ← hmultiplier hsame]
  · rw [if_neg hsame] at h
    cases hlatest : latestContractClose tables.bars previous.contractCode bar.tradeDate with
    | some oldClose =>
      rw [hlatest] at h
      apply hroll oldClose (Except.ok.inj h).symm hsame
      rw [hlatest, Option.getD_some]
    | none =>
      rw [hlatest] at h
      dsimp only at h
      split_ifs at h
      apply hroll previous.rawClose (Except.ok.inj h).symm hsame
      rw [hlatest, Option.getD_none]

omit [ToString δ] in
theorem priced_rowOf {previous : Option (ContinuousRow δ)} {cumulative : ℚ}
    (hbar : bar ∈ selectedRows tables batchId)
    (hterms : termsOf config.strictMetadata bar = .ok (some terms)) (attributed : Attribution) :
    Priced tables (rowOf config previous cumulative bar terms attributed) := by
  obtain ⟨hjoined, hlatest⟩ := mem_selectedRows hbar
  obtain ⟨entry, hentry, hbatch, contract, hcontract, hcode, source, hsource, hbarCode, hbarDate,
    rfl⟩ := mem_joinedRows.mp hjoined
  obtain ⟨hprice, hvalue, hpositive⟩ := termsOf_some hterms
  refine ⟨rfl, hpositive, ?_, ⟨contract, hcontract, hcode⟩, source, hsource, hbarCode, hbarDate,
    hprice, ?_⟩
  · intro other hother hsame
    rw [Unique.eq tables.codes hother hcontract (hsame.trans hcode.symm)]
    exact hvalue
  · intro other hother hotherCode hotherDate _
    exact hlatest (joinedRow entry contract other) (mem_joinedRows.mpr ⟨entry, hentry, hbatch,
      contract, hcontract, hcode, other, hother, hotherCode, hotherDate, rfl⟩) rfl

omit [LinearOrder δ] [ToString δ] in
theorem Priced.multiplier_eq {previous row : ContinuousRow δ} (hprevious : Priced tables previous)
    (hrow : Priced tables row) (h : previous.contractCode = row.contractCode) :
    row.multiplier = previous.multiplier := by
  obtain ⟨contract, hcontract, hcode⟩ := hrow.known
  rw [hrow.ofContract contract hcontract hcode,
    hprevious.ofContract contract hcontract (hcode.trans h.symm)]

theorem seriesFrom_follow (bars : List (JoinedRow δ)) :
    ∀ {previous : Option (ContinuousRow δ)} {rows : List (ContinuousRow δ)} {rolls : List (Roll δ)},
      (∀ bar ∈ bars, bar ∈ selectedRows tables batchId) → (∀ row ∈ previous, Priced tables row) →
      seriesFrom tables config previous ((previous.map ContinuousRow.cumulativeNetPnl).getD 0) bars =
        .ok (rows, rolls) →
        (previous.toList ++ rows).IsChain (Follows tables.bars config.contracts) ∧
          (∀ row ∈ rows, Priced tables row) ∧
          (previous = none → ∀ row ∈ rows.head?, Opens row) := by
  induction bars with
  | nil =>
    intro previous rows rolls _ _ h
    have hrows := (Prod.mk.inj (Except.ok.inj h)).1
    rw [← hrows]
    cases previous <;> simp
  | cons bar bars ih =>
    intro previous rows rolls hjoined hprevious h
    have hlater := fun other hother => hjoined other (List.mem_cons_of_mem _ hother)
    obtain ⟨terms, hterms, hrest⟩ := bind_ok h
    cases terms with
    | none => exact ih hlater hprevious hrest
    | some terms =>
      obtain ⟨attributed, hattributed, hrest⟩ := bind_ok hrest
      obtain ⟨rest, hseries, heq⟩ := map_ok hrest
      have hrow : ∀ cumulative : ℚ,
          Priced tables (rowOf config previous cumulative bar terms attributed) :=
        fun _ => priced_rowOf (hjoined bar List.mem_cons_self) hterms attributed
      obtain ⟨hchain, hpriced, -⟩ :=
        ih hlater (fun row hmem => Option.some.inj hmem ▸ hrow _) hseries
      rw [← (Prod.mk.inj heq).1]
      refine ⟨?_, List.forall_mem_cons.mpr ⟨hrow _, hpriced⟩, ?_⟩
      · cases previous with
        | none => exact hchain
        | some previous =>
          refine List.isChain_cons_cons.mpr ⟨attribution_next hattributed rfl fun hsame => ?_, hchain⟩
          exact (hprevious previous rfl).multiplier_eq (hrow previous.cumulativeNetPnl) hsame
      · rintro rfl row hhead
        rw [← Option.some.inj hhead]
        exact attribution_first hattributed

/-- What the loop says of a series. -/
structure Booked (tables : SeriesTables δ) (contracts : ℚ) (rows : List (ContinuousRow δ)) :
    Prop where
  follow : rows.IsChain (Follows tables.bars contracts)
  priced : ∀ row ∈ rows, Priced tables row
  opens : ∀ row ∈ rows.head?, Opens row

theorem continuousRows_booked {rows : List (ContinuousRow δ)} {rolls : List (Roll δ)}
    (h : continuousRows tables config = .ok (rows, rolls)) :
    Booked tables config.contracts rows := by
  unfold continuousRows at h
  dsimp only at h
  split_ifs at h
  obtain ⟨hchain, hpriced, hopens⟩ :=
    seriesFrom_follow (selectedRows tables config.batchId) (fun _ hbar => hbar) (by simp) h
  exact ⟨hchain, hpriced, hopens rfl⟩

end Follow

/-! ## The adjusted series -/

section Adjusted

variable [LinearOrder δ] {bars : List (Bar δ)} {contracts : ℚ}

theorem Follows.carry {previous row : ContinuousRow δ} (h : Follows bars contracts previous row)
    (carry : Carry) :
    (carry.over .backwardDifference row).difference =
        carry.difference + (row.rawClose - heldExit bars previous row) ∧
      (heldExit bars previous row ≠ 0 → row.rawClose ≠ 0 →
        (carry.over .backwardRatio row).ratio =
          carry.ratio * (row.rawClose / heldExit bars previous row)) := by
  have hroll := h.isRoll
  have hgap := h.gap
  by_cases hsame : previous.contractCode = row.contractCode
  · have hexit : heldExit bars previous row = row.rawClose := if_pos hsame
    have hstays : row.isRoll = false := by simpa [hsame] using hroll
    have hkeeps : ∀ adjustment, carry.over adjustment row = carry := by
      intro adjustment
      unfold Carry.over
      rw [hstays]
    rw [hkeeps, hkeeps, hexit, sub_self, add_zero]
    refine ⟨rfl, fun hne _ => ?_⟩
    rw [div_self hne, mul_one]
  · have hrolls : row.isRoll = true := by simpa [hsame] using hroll
    rw [if_neg hsame] at hgap
    unfold Carry.over
    rw [hrolls, hgap]
    dsimp only
    rw [sub_sub_cancel]
    refine ⟨rfl, fun hne _ => ?_⟩
    rw [if_neg hne]

variable {rows : List (ContinuousRow δ)}

theorem adjusted_difference (h : rows.IsChain (Follows bars contracts)) :
    (adjustBack .backwardDifference rows).1.IsChain (fun previous next =>
      next.adjustedClose - previous.adjustedClose =
        heldExit bars previous.row next.row - previous.row.rawClose) := by
  induction rows with
  | nil => exact List.isChain_nil
  | cons previous rows ih =>
    cases rows with
    | nil => exact List.isChain_singleton _
    | cons row rows =>
      obtain ⟨hfollows, hrest⟩ := List.isChain_cons_cons.mp h
      refine List.isChain_cons_cons.mpr ⟨?_, ih hrest⟩
      have hcarry := (hfollows.carry (adjustBack .backwardDifference rows).2).1
      show row.rawClose + (adjustBack .backwardDifference rows).2.difference -
        (previous.rawClose +
          ((adjustBack .backwardDifference rows).2.over .backwardDifference row).difference) =
            heldExit bars previous row - previous.rawClose
      rw [hcarry]
      ring

theorem ratio_pos {previous : ContinuousRow δ}
    (hprices : ∀ row ∈ previous :: rows, 0 < row.rawClose)
    (hexits : (previous :: rows).IsChain (fun previous row => 0 < heldExit bars previous row))
    (h : (previous :: rows).IsChain (Follows bars contracts)) :
    0 < (adjustBack .backwardRatio rows).2.ratio := by
  induction rows generalizing previous with
  | nil => exact one_pos
  | cons row rows ih =>
    obtain ⟨hfollows, hrest⟩ := List.isChain_cons_cons.mp h
    obtain ⟨hexit, hexits⟩ := List.isChain_cons_cons.mp hexits
    have hprice := hprices row (List.mem_cons_of_mem _ List.mem_cons_self)
    have hlater := ih (fun other hother => hprices other (List.mem_cons_of_mem _ hother)) hexits hrest
    have hcarry := (hfollows.carry (adjustBack .backwardRatio rows).2).2 hexit.ne' hprice.ne'
    show 0 < ((adjustBack .backwardRatio rows).2.over .backwardRatio row).ratio
    rw [hcarry]
    exact mul_pos hlater (div_pos hprice hexit)

theorem adjusted_ratio (hprices : ∀ row ∈ rows, 0 < row.rawClose)
    (hexits : rows.IsChain (fun previous row => 0 < heldExit bars previous row))
    (h : rows.IsChain (Follows bars contracts)) :
    (adjustBack .backwardRatio rows).1.IsChain (fun previous next =>
      next.adjustedClose / previous.adjustedClose =
        heldExit bars previous.row next.row / previous.row.rawClose) := by
  induction rows with
  | nil => exact List.isChain_nil
  | cons previous rows ih =>
    cases rows with
    | nil => exact List.isChain_singleton _
    | cons row rows =>
      obtain ⟨hfollows, hrest⟩ := List.isChain_cons_cons.mp h
      obtain ⟨hexit, hexits⟩ := List.isChain_cons_cons.mp hexits
      have hlater := fun other hother => hprices other (List.mem_cons_of_mem previous hother)
      refine List.isChain_cons_cons.mpr ⟨?_, ih hlater hexits hrest⟩
      have hprice := hlater row List.mem_cons_self
      have hfirst := hprices previous List.mem_cons_self
      have hpositive := ratio_pos hlater hexits hrest
      have hcarry := (hfollows.carry (adjustBack .backwardRatio rows).2).2 hexit.ne' hprice.ne'
      show row.rawClose * (adjustBack .backwardRatio rows).2.ratio /
        (previous.rawClose * ((adjustBack .backwardRatio rows).2.over .backwardRatio row).ratio) =
          heldExit bars previous row / previous.rawClose
      rw [hcarry]
      field_simp

omit [LinearOrder δ] in
theorem adjustBack_rows (adjustment : Adjustment) (rows : List (ContinuousRow δ)) :
    (adjustBack adjustment rows).1.map AdjustedRow.row = rows := by
  induction rows with
  | nil => rfl
  | cons row rows ih =>
    show (adjustRow adjustment _ row).row :: (adjustBack adjustment rows).1.map AdjustedRow.row = _
    rw [ih]
    cases adjustment with
    | none => rfl
    | backwardRatio => rfl
    | backwardDifference => rfl

end Adjusted

/-! ## The segments that were held -/

section Segments

variable [LinearOrder δ] [ToString δ] {tables : SeriesTables δ} {contracts : ℚ}

/-- A contract from its first row to the price at which it was left. -/
structure Segment where
  contractCode : String
  multiplier : ℚ
  entryClose : ℚ
  exitClose : ℚ
  deriving DecidableEq

/-- The segments from a row on, whose contract was entered at a price; `exit` gives the price at
which the position of a row is left on the next one. -/
def segmentsFrom (exit : ContinuousRow δ → ContinuousRow δ → ℚ) (entryClose : ℚ)
    (row : ContinuousRow δ) : List (ContinuousRow δ) → List Segment
  | [] => [⟨row.contractCode, row.multiplier, entryClose, row.rawClose⟩]
  | next :: rows =>
    if row.contractCode = next.contractCode then segmentsFrom exit entryClose next rows
    else
      ⟨row.contractCode, row.multiplier, entryClose, exit row next⟩ ::
        segmentsFrom exit next.rawClose next rows

/-- The maximal segments of rows with one contract. -/
def heldSegments (exit : ContinuousRow δ → ContinuousRow δ → ℚ) :
    List (ContinuousRow δ) → List Segment
  | [] => []
  | row :: rows => segmentsFrom exit row.rawClose row rows

def Segment.pnl (contracts : ℚ) (segment : Segment) : ℚ :=
  contracts * segment.multiplier * (segment.exitClose - segment.entryClose)

omit [ToString δ] in
theorem segmentsFrom_pnl (rows : List (ContinuousRow δ)) :
    ∀ {row : ContinuousRow δ} (entryClose : ℚ),
      (row :: rows).IsChain (Follows tables.bars contracts) →
      (∀ other ∈ row :: rows, Priced tables other) →
        contracts * row.multiplier * (row.rawClose - entryClose) +
            (rows.map ContinuousRow.variationPnl).sum =
          ((segmentsFrom (heldExit tables.bars) entryClose row rows).map (Segment.pnl contracts)).sum := by
  induction rows with
  | nil =>
    intro row entryClose _ _
    simp [segmentsFrom, Segment.pnl]
  | cons next rows ih =>
    intro row entryClose h hpriced
    obtain ⟨hfollows, hrest⟩ := List.isChain_cons_cons.mp h
    have hlater := fun other hother => hpriced other (List.mem_cons_of_mem row hother)
    have hvariation := hfollows.variation
    unfold segmentsFrom
    rw [List.map_cons, List.sum_cons, hvariation]
    by_cases hsame : row.contractCode = next.contractCode
    · have hmultiplier := (hpriced row List.mem_cons_self).multiplier_eq
        (hlater next List.mem_cons_self) hsame
      have hexit : heldExit tables.bars row next = next.rawClose := if_pos hsame
      rw [if_pos hsame, ← ih entryClose hrest hlater, hexit, hmultiplier]
      ring
    · rw [if_neg hsame, List.map_cons, List.sum_cons, ← ih next.rawClose hrest hlater]
      unfold Segment.pnl
      ring

end Segments

/-! ## The whole series -/

section Whole

variable [LinearOrder δ] [ToString δ]

omit [ToString δ] in
theorem latestContractClose_spec (bars : List (Bar δ)) (code : String) (date : δ) :
    match latestContractClose bars code date with
    | some close => LatestClose bars code date close
    | none => ∀ bar ∈ bars, bar.contractCode = code → bar.tradeDate = date → bar.close = none := by
  unfold latestContractClose
  cases hhead : (orderBy (fun bar => OrderDual.toDual bar.createdAt) (bars.filter (fun bar =>
      bar.contractCode = code ∧ bar.tradeDate = date ∧ bar.close ≠ none))).head? with
  | none =>
    intro bar hbar hcode hdate
    by_contra hclose
    have hmem : bar ∈ orderBy (fun bar : Bar δ => OrderDual.toDual bar.createdAt)
        (bars.filter (fun bar => bar.contractCode = code ∧ bar.tradeDate = date ∧
          bar.close ≠ none)) := by
      rw [mem_orderBy]
      simpa [hcode, hdate] using ⟨hbar, hclose⟩
    rw [List.head?_eq_none_iff.mp hhead] at hmem
    exact absurd hmem List.not_mem_nil
  | some bar =>
    obtain ⟨hmem, hlatest⟩ := le_of_head?_orderBy hhead
    obtain ⟨hbar, hfilter⟩ := List.mem_filter.mp hmem
    obtain ⟨hcode, hdate, hclose⟩ := of_decide_eq_true hfilter
    obtain ⟨close, hsome⟩ := Option.ne_none_iff_exists'.mp hclose
    rw [Option.bind_some, hsome]
    refine ⟨bar, hbar, hcode, hdate, hsome, fun other hother hotherCode hotherDate hpriced => ?_⟩
    refine OrderDual.toDual_le_toDual.mp (hlatest other (List.mem_filter.mpr ⟨hother, ?_⟩))
    exact decide_eq_true ⟨hotherCode, hotherDate, hpriced⟩

omit [ToString δ] in
/-- The loop marks a position at its price on the bars. -/
theorem heldExit_isExit {tables : SeriesTables δ} {row : ContinuousRow δ}
    (hrow : Priced tables row) (previous : ContinuousRow δ) :
    IsExit tables.bars previous row (heldExit tables.bars previous row) := by
  have hspec := latestContractClose_spec tables.bars previous.contractCode row.tradeDate
  unfold heldExit
  by_cases hsame : previous.contractCode = row.contractCode
  · rw [if_pos hsame, IsExit, hsame]
    exact .inl hrow.close
  · rw [if_neg hsame]
    cases hlatest : latestContractClose tables.bars previous.contractCode row.tradeDate with
    | none =>
      rw [hlatest] at hspec
      exact .inr ⟨hspec, rfl⟩
    | some close =>
      rw [hlatest] at hspec
      exact .inl hspec

omit [ToString δ] in
theorem cumulative_sum {bars : List (Bar δ)} {contracts : ℚ} {rows : List (ContinuousRow δ)}
    (h : rows.IsChain (Follows bars contracts)) (hopens : ∀ row ∈ rows.head?, Opens row)
    (before : List (ContinuousRow δ)) :
    ∀ {row : ContinuousRow δ} {after : List (ContinuousRow δ)}, rows = before ++ row :: after →
      row.cumulativeNetPnl = ((before ++ [row]).map ContinuousRow.netPnl).sum := by
  induction before using List.reverseRecOn with
  | nil =>
    intro row after hsplit
    have hfirst := hopens row (by simp [hsplit])
    simp [hfirst.cumulative]
  | append_singleton before previous ih =>
    intro row after hsplit
    have hearlier : rows = before ++ previous :: row :: after := by simp [hsplit]
    have hsum := ih hearlier
    rw [hearlier] at h
    have hfollows := (List.isChain_cons_cons.mp (List.isChain_append.mp h).2.1).1
    rw [List.map_append, List.sum_append, ← hsum, hfollows.cumulative]
    simp

/-- The adjusted rows of a series under one of the names. -/
def AdjustedBy (rows : List (ContinuousRow δ)) (adjustment : String)
    (agrees : AdjustedRow δ → AdjustedRow δ → Prop) : Prop :=
  ∃ adjusted, applyContinuousAdjustment rows adjustment = .ok adjusted ∧
    adjusted.map AdjustedRow.row = rows ∧ adjusted.IsChain agrees

/-- The series agrees with the position that was held, which was left at the prices of `exit`. -/
structure HeldAgreement (tables : SeriesTables δ) (contracts : ℚ) (rows : List (ContinuousRow δ))
    (exit : ContinuousRow δ → ContinuousRow δ → ℚ) : Prop where
  closes : ∀ row ∈ rows, LatestClose tables.bars row.contractCode row.tradeDate row.rawClose
  exits : rows.IsChain (fun previous row => IsExit tables.bars previous row (exit previous row))
  difference : AdjustedBy rows "backward_difference" (fun previous next =>
    next.adjustedClose - previous.adjustedClose =
      exit previous.row next.row - previous.row.rawClose)
  ratio : AdjustedBy rows "backward_ratio" (fun previous next =>
    next.adjustedClose / previous.adjustedClose =
      exit previous.row next.row / previous.row.rawClose)
  variation : rows.IsChain (fun previous row =>
    row.variationPnl = (exit previous row - previous.rawClose) * previous.multiplier * contracts ∧
      (contracts ≠ 0 → row.variationPnl / (previous.multiplier * contracts) =
        exit previous row - previous.rawClose))
  segments : (rows.map ContinuousRow.variationPnl).sum =
    ((heldSegments exit rows).map (Segment.pnl contracts)).sum
  net : ∀ row ∈ rows, row.netPnl = row.variationPnl - row.commission - row.slippage
  cumulative : ∀ before row after, rows = before ++ row :: after →
    row.cumulativeNetPnl = ((before ++ [row]).map ContinuousRow.netPnl).sum

/-- With positive prices the adjusted series, the booked changes and the segments agree with the
closes of the contracts that were held. -/
theorem continuous_agrees (tables : SeriesTables δ) (config : SeriesConfig)
    (hcloses : ∀ bar ∈ tables.bars, ∀ close ∈ bar.close, 0 < close)
    {rows : List (ContinuousRow δ)} {rolls : List (Roll δ)}
    (h : continuousRows tables config = .ok (rows, rolls)) :
    ∃ exit, HeldAgreement tables config.contracts rows exit := by
  have hbooked := continuousRows_booked h
  have hprices : ∀ row ∈ rows, 0 < row.rawClose := by
    intro row hrow
    obtain ⟨bar, hbar, -, -, hclose, -⟩ := (hbooked.priced row hrow).close
    exact hcloses bar hbar _ hclose
  have hisExits : rows.IsChain (fun previous row =>
      IsExit tables.bars previous row (heldExit tables.bars previous row)) :=
    List.IsChain.imp_of_mem_imp (fun previous row _ hrow _ =>
      heldExit_isExit (hbooked.priced row hrow) previous) hbooked.follow
  have hexits : rows.IsChain (fun previous row => 0 < heldExit tables.bars previous row) := by
    apply List.IsChain.imp_of_mem_imp _ hisExits
    intro previous row hprevious _ hexit
    rcases hexit with ⟨bar, hbar, -, -, hclose, -⟩ | ⟨-, hlast⟩
    · exact hcloses bar hbar _ hclose
    · rw [hlast]
      exact hprices previous hprevious
  refine ⟨heldExit tables.bars, fun row hrow => (hbooked.priced row hrow).close, hisExits,
    ⟨_, rfl, adjustBack_rows _ rows, adjusted_difference hbooked.follow⟩,
    ⟨_, rfl, adjustBack_rows _ rows, adjusted_ratio hprices hexits hbooked.follow⟩, ?_, ?_,
    fun row hrow => (hbooked.priced row hrow).net, ?_⟩
  · apply List.IsChain.imp_of_mem_imp _ hbooked.follow
    intro previous row hprevious _ hfollows
    refine ⟨hfollows.variation, ?_⟩
    intro hcontracts
    have hmultiplier := (hbooked.priced previous hprevious).multiplier_pos.ne'
    rw [hfollows.variation]
    field_simp
  · cases rows with
    | nil => rfl
    | cons row rows =>
      have hsum := segmentsFrom_pnl rows row.rawClose hbooked.follow hbooked.priced
      have hopens := hbooked.opens row rfl
      rw [sub_self, mul_zero, zero_add] at hsum
      rw [List.map_cons, List.sum_cons, hopens.variation, zero_add]
      exact hsum
  · intro before row after hsplit
    exact cumulative_sum hbooked.follow hbooked.opens before hsplit

end Whole


def sampleBar (code tradeDate : String) (close : Option ℚ) : Bar String :=
  { contractCode := code, tradeDate := tradeDate, openPrice := close, close := close,
    volume := none, openInterest := none, source := "unit", createdAt := 0 }

/-- Two contracts that are rolled twice, with a day without a price and a roll without an old
close. -/
def sampleTables : SeriesTables String where
  contracts := [
    { code := "M2405", product := "M", exchange := "DCE", multiplier := some 10,
      marginRate := some (1 / 10), tickSize := some 1, listedDate := none, lastTradeDate := none },
    { code := "M2409", product := "M", exchange := "DCE", multiplier := some 5,
      marginRate := some (1 / 10), tickSize := none, listedDate := none, lastTradeDate := none }]
  bars := [sampleBar "M2405" "2024-01-02" (some 100), sampleBar "M2405" "2024-01-03" (some 104),
    sampleBar "M2409" "2024-01-03" (some 110), sampleBar "M2409" "2024-01-04" none,
    sampleBar "M2405" "2024-01-05" (some 98)]
  mapping := [⟨"2024-01-02", "M2405", "b"⟩, ⟨"2024-01-03", "M2409", "b"⟩,
    ⟨"2024-01-04", "M2409", "b"⟩, ⟨"2024-01-05", "M2405", "b"⟩]
  codes := by decide

def sampleConfig : SeriesConfig :=
  { batchId := "b", contracts := 2, strictMetadata := false,
    schedule := { openRate := some (1 / 10000), closeRate := none, perContract := some 1,
                  slippageTicks := none } }

def sampleRows : List (ContinuousRow String) × List (Roll String) :=
  match continuousRows sampleTables sampleConfig with
  | .ok result => result
  | .error _ => ([], [])

theorem sampleRows_agree : sampleRows.1.length = 3 ∧ sampleRows.2.length = 2 ∧
    ∃ exit, HeldAgreement sampleTables 2 sampleRows.1 exit := by
  have hrows : continuousRows sampleTables sampleConfig = .ok (sampleRows.1, sampleRows.2) := by
    decide +kernel
  refine ⟨by decide +kernel, by decide +kernel, ?_⟩
  exact continuous_agrees sampleTables sampleConfig (by decide +kernel) hrows

end LocalPlatform.Futures
