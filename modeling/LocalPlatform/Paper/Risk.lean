import LocalPlatform.Paper.Ledger

/-!
# Constraints, charges and the match price

What `_process_v2_lean_intents` asks before it writes a fill:
`_lean_intent_rejection` checks an order against the market, the parameters of
the session and its read model, `_deterministic_v2_match_price` gives the price
of the fill, and `_fee_breakdown` its charges.

* `Market` is the reference data and the bars that the services look up, which
  no run of the pipeline writes.
* A rejection is a list of checks in the order of the source, and
  `firstRejection` lets the first one that raises or rejects decide.
* `Accepted` is what an order that passes every check is known to satisfy, and
  `accepted_of_rejection_none` the only lemma about the checks that later
  proofs use.
-/

namespace LocalPlatform.Paper

/-! ## Market data -/

/-- A daily bar, as far as the checks read it. -/
structure Bar where
  openPrice : Option ℚ
  close : Option ℚ
  volume : Option ℚ
  deriving DecidableEq

/-- The result of `quality_gate`: whether it passed, and the identifiers of the
reports that block the symbol. -/
structure QualityGate where
  passed : Bool
  blockingReports : List (Option String)
  deriving DecidableEq

/-- A row of `get_security`. -/
structure Security where
  listedDate : Option String
  delistedDate : Option String
  deriving DecidableEq

/-- A row of `effective_trade_status`. -/
structure TradeStatus where
  isSuspended : Bool
  isSt : Bool
  limitUp : Option ℚ
  limitDown : Option ℚ
  deriving DecidableEq

/-- The data that the services look up and never write: bars by symbol, date
and source, reference data by symbol and date, and the equity of the account
behind a session. -/
structure Market where
  ashareBar : String → String → Option String → Option Bar
  marketBar : String → String → String → String → Option String → Option Bar
  qualityGate : String → String → QualityGate
  getSecurity : String → Option Security
  statusFor : String → String → Option TradeStatus
  securityIndustry : String → String → Option String → Option String
  accountEquity : String → Option (ℚ × Option ℚ)

/-- `float(bar.get("open") or 0)` -/
def Bar.openValue (bar : Bar) : ℚ := firstNumber [bar.openPrice]

/-! ## The read model -/

/-- `list_positions` -/
def listPositions (db : Db) (sessionId : SessionId) : List Position :=
  (db.positions sessionId).insertionSort (fun p q => p.symbol ≤ q.symbol)

/-- `_position`, by the primary key `(session_id, symbol)`. -/
def findPosition (db : Db) (sessionId : SessionId) (symbol : String) : Option Position :=
  (db.positions sessionId).find? (fun position => position.symbol == symbol)

/-- The quantity of the position of a symbol, or zero. -/
def heldQuantity (db : Db) (sessionId : SessionId) (symbol : String) : ℚ :=
  ((findPosition db sessionId symbol).map Position.quantity).getD 0

/-- The fills of the intents of a session and a date, valued and summed. -/
def dailyTurnover (db : Db) (sessionId : SessionId) (tradeDate : String) : ℚ :=
  (db.fills.map (fun fill =>
    if (getIntent db fill.intentId).any (fun intent =>
        intent.sessionId == sessionId && intent.tradeDate == tradeDate)
    then |fill.quantity * fill.price| else 0)).sum

/-! ## Charges -/

/-- The result of `_fee_breakdown`. -/
structure FeeBreakdown where
  commission : ℚ
  tax : ℚ
  statutory : ℚ
  deriving DecidableEq

/-- The commission on a value: a rate, but not less than a minimum. -/
def commissionOn (parameters : Parameters) (value rate minimum : ℚ) : Except PaperError ℚ :=
  if value = 0 then .ok 0
  else do
    let rate ← floatParameter parameters "commissionRate" rate
    let minimum ← floatParameter parameters "minCommission" minimum
    pure (max (value * rate) minimum)

/-- `_fee_breakdown` -/
def feeBreakdown (quantity price : ℚ) (side : String) (session : Session) :
    Except PaperError FeeBreakdown :=
  let parameters := session.parameters
  let value := |quantity * price|
  if session.venue = "hongkong" then do
    let commission ← commissionOn parameters value (3 / 10 ^ 4) 3
    let stampTax ← floatParameter parameters
      (if side = "buy" then "stampTaxBuy" else "stampTaxSell") (1 / 10 ^ 3)
    let sfcLevy ← floatParameter parameters "sfcLevyRate" (27 / 10 ^ 6)
    let afrcLevy ← floatParameter parameters "afrcLevyRate" (15 / 10 ^ 7)
    let tradingFee ← floatParameter parameters "exchangeTradingFeeRate" (565 / 10 ^ 7)
    let settlementFee ← floatParameter parameters "settlementFeeRate" (42 / 10 ^ 6)
    pure { commission := commission, tax := value * stampTax,
           statutory := value * (sfcLevy + afrcLevy + tradingFee + settlementFee) }
  else do
    let commission ← commissionOn parameters value (1 / 10 ^ 4) 5
    let stampTax ←
      if side = "sell" then floatParameter parameters "stampTaxSell" (5 / 10 ^ 4) else pure 0
    let transferFee ← floatParameter parameters "transferFeeRate" (1 / 10 ^ 5)
    pure { commission := commission, tax := value * stampTax, statutory := value * transferFee }

def FeeBreakdown.total (breakdown : FeeBreakdown) : ℚ :=
  breakdown.commission + breakdown.tax + breakdown.statutory

/-- `_fee` -/
def orderFee (quantity price : ℚ) (side : String) (session : Session) : Except PaperError ℚ :=
  (feeBreakdown quantity price side session).map FeeBreakdown.total

/-! ## Checks -/

/-- The first check that raises or rejects decides. -/
def firstRejection : List (Except PaperError (Option String)) → Except PaperError (Option String)
  | [] => .ok none
  | .ok none :: checks => firstRejection checks
  | .ok (some reason) :: _ => .ok (some reason)
  | .error e :: _ => .error e

def rejectIf (p : Prop) [Decidable p] (reason : String) : Except PaperError (Option String) :=
  .ok (if p then some reason else none)

/-- A check against a limit that the parameters may set. -/
def rejectAbove (limit : Except PaperError (Option ℚ)) (exceeds : ℚ → Bool) (reason : String) :
    Except PaperError (Option String) :=
  limit.map (fun limit => if limit.any exceeds then some reason else none)

theorem firstRejection_none_iff (checks : List (Except PaperError (Option String))) :
    firstRejection checks = .ok none ↔ ∀ check ∈ checks, check = .ok none := by
  induction checks with
  | nil => simp [firstRejection]
  | cons check checks ih =>
    rw [List.forall_mem_cons]
    rcases check with e | _ | reason
    · simp [firstRejection]
    · simp [firstRejection, ih]
    · simp [firstRejection]

theorem rejectIf_none_iff {p : Prop} [Decidable p] {reason : String} :
    rejectIf p reason = .ok none ↔ ¬ p := by
  unfold rejectIf
  split_ifs with h <;> simp [h]

/-- `a or b or ... or 0` of values that `float` still has to read. -/
def firstValue : List ParamValue → ParamValue
  | [] => .num 0
  | value :: values => if value.truthy then value else firstValue values

/-- `_risk_equity_baseline` -/
def riskEquityBaseline (market : Market) (session : Session) : Except PaperError (ℚ × ℚ) :=
  let parameters := session.parameters
  let accountId := strip ((parameters.textOrNone "paperAccountId").getD "")
  let account := if accountId = "" then none else market.accountEquity accountId
  match account with
  | some (initialCash, totalEquity) => .ok (initialCash, totalEquity.getD session.equity)
  | none => do
    let initial ← (firstValue [parameters.get "cash", parameters.get "initialCash",
      parameters.get "initial_cash", .num session.cash, .num session.equity]).float
    pure (initial, session.equity)

/-- `_portfolio_constraint_rejection` -/
def portfolioConstraintRejection (market : Market) (session : Session)
    (positions : List Position) (symbol side executionDate : String) (currentQuantity : ℚ) :
    Except PaperError (Option String) :=
  let parameters := session.parameters
  let watchlist := parameterList parameters ["watchlist", "watchlistSymbols", "observableSymbols"]
  if side ≠ "buy" then .ok none
  else firstRejection
    [rejectIf (symbol ∈ parameterList parameters
        ["blacklist", "blacklistSymbols", "blockedSymbols"]) "blacklisted",
      rejectIf (symbol ∈ parameterList parameters
        ["observeOnlySymbols", "observe_only_symbols", "observeOnly"]) "observe_only",
      rejectIf (watchlist ≠ [] ∧ symbol ∉ watchlist) "not_in_watchlist",
      (do
        let breaker ← parameterFloat parameters
          ["circuitBreakerDrawdown", "circuit_breaker_drawdown", "maxDrawdown"]
        let (initial, current) ← riskEquityBaseline market session
        rejectIf (0 < initial ∧ breaker.any (fun breaker =>
          decide (breaker ≤ max 0 ((initial - current) / initial) + 1 / 10 ^ 12)) = true)
          "circuit_breaker"),
      rejectIf (parameterBool parameters "allowStBuy" false = false ∧
        (market.statusFor symbol executionDate).any TradeStatus.isSt = true) "st_blocked",
      (do
        let maxPositions ← parameterInt parameters ["maxPositions", "max_positions", "maxHoldings"]
        rejectIf (currentQuantity ≤ 0 ∧ maxPositions.any (fun limit : ℤ =>
          decide (limit ≤ (positions.filter (fun p => 0 < p.quantity)).length)) = true)
          "max_positions")]

/-- The weight check of `_projected_risk_rejection` on the industry of a symbol. -/
def industryRejection (market : Market) (session : Session) (positions : List Position)
    (symbol : String) (incrementalQuantity price limit : ℚ) (executionDate : String) :
    Option String :=
  if session.equity ≤ 0 then some "industry_limit"
  else
    let venue := firstText [some session.venue, some "china"]
    let industry := fun symbol => market.securityIndustry symbol venue (textOrNone executionDate)
    match industry symbol with
    | none => some "industry_unknown"
    | some target =>
      let value := ((positions.filter (fun p =>
        0 < p.quantity ∧ industry (upper p.symbol) = some target)).map Position.marketValue).sum
      if 1 / 10 ^ 12 < (value + incrementalQuantity * price) / session.equity - limit then
        some "industry_concentration"
      else none

/-- `_projected_risk_rejection` -/
def projectedRiskRejection (market : Market) (session : Session) (positions : List Position)
    (symbol : String) (incrementalQuantity price : ℚ) (bar : Option Bar)
    (executionDate : String) : Except PaperError (Option String) :=
  firstRejection
    [(parameterFloat session.parameters
        ["maxVolumeParticipation", "max_volume_participation", "capacityParticipation"]).map
        (fun limit => limit.bind (fun limit =>
          let volume := firstNumber [bar.bind Bar.volume]
          if volume ≤ 0 then some "capacity_data_unavailable"
          else if 1 / 10 ^ 12 < incrementalQuantity / volume - limit then some "capacity_limit"
          else none)),
      (parameterFloat session.parameters
        ["maxIndustryWeight", "max_industry_weight", "industryConcentrationLimit"]).map
        (fun limit => limit.bind (fun limit => industryRejection market session positions symbol
          incrementalQuantity price limit executionDate))]

/-- `_parameter_float(parameters, "minCash", "min_cash", "cashFloor") or 0.0` -/
def minCash (session : Session) : Except PaperError ℚ :=
  (parameterFloat session.parameters ["minCash", "min_cash", "cashFloor"]).map (·.getD 0)

/-- The cash check of a buy. -/
def cashRejection (session : Session) (quantity price : ℚ) (side : String) :
    Except PaperError (Option String) := do
  let fee ← orderFee quantity price side session
  let floor ← minCash session
  rejectIf (session.cash - quantity * price - fee < floor)
    (if floor ≠ 0 then "cash_floor" else "insufficient_cash")

/-- The position checks of a sell. -/
def sellRejection (session : Session) (position : Option Position) (quantity : ℚ)
    (tradeDate : String) : Except PaperError (Option String) :=
  firstRejection
    [rejectIf (1 / 10 ^ 12 < quantity - (position.map Position.quantity).getD 0)
        "insufficient_position",
      rejectIf (session.venue = "china" ∧ position.bind Position.lastBuyDate = some tradeDate)
        "t_plus_1"]

def qaFailed (gate : QualityGate) : String :=
  match gate.blockingReports.head?.bind (fun id => id.bind textOrNone) with
  | some id => s!"qa_failed:{id}"
  | none => "qa_failed"

/-- The listing checks of a China order. -/
def securityRejection (security : Option Security) (tradeDate : String) :
    Except PaperError (Option String) :=
  match security with
  | none => .ok (some "security_not_found")
  | some security => firstRejection
    [rejectIf ((security.listedDate.bind textOrNone).any (fun date => decide (tradeDate < date))
        = true) "not_listed",
      rejectIf ((security.delistedDate.bind textOrNone).any (fun date =>
        decide (date ≤ tradeDate)) = true) "delisted"]

/-- The trade status checks of a China order. -/
def statusRejection (session : Session) (status : Option TradeStatus) (side : String)
    (openPrice : ℚ) : Except PaperError (Option String) :=
  let tolerance := max (1 / 10 ^ 3) (openPrice * (5 / 10 ^ 5))
  match status with
  | none => .ok (some "trade_status_missing")
  | some status => firstRejection
    [rejectIf (status.isSuspended = true) "suspended",
      rejectIf (side = "buy" ∧ status.isSt = true ∧
        parameterBool session.parameters "allowStBuy" false = false) "st_blocked",
      rejectIf (side = "buy" ∧ status.limitUp.any (fun limit =>
        decide (|openPrice - limit| ≤ tolerance)) = true) "limit_up_open",
      rejectIf (side = "sell" ∧ status.limitDown.any (fun limit =>
        decide (|openPrice - limit| ≤ tolerance)) = true) "limit_down_open"]

/-- The checks that only a China order passes through. -/
def ashareRejection (market : Market) (session : Session) (symbol side tradeDate : String)
    (bar : Bar) : Except PaperError (Option String) :=
  firstRejection
    [rejectIf (bar.openValue ≤ 0) "stale_price",
      rejectIf ((market.qualityGate symbol tradeDate).passed = false)
        (qaFailed (market.qualityGate symbol tradeDate)),
      securityRejection (market.getSecurity symbol) tradeDate,
      statusRejection session (market.statusFor symbol tradeDate) side bar.openValue]

/-- The checks of `_lean_intent_rejection` from `_position` on. -/
def portfolioRejection (market : Market) (session : Session) (symbol side : String)
    (quantity price : ℚ) (bar : Option Bar) (tradeDate : String) (db : Db) :
    Except PaperError (Option String) :=
  let parameters := session.parameters
  let positions := listPositions db session.id
  let position := findPosition db session.id symbol
  let currentQuantity := heldQuantity db session.id symbol
  let principal := quantity * price
  firstRejection
    [portfolioConstraintRejection market session positions symbol side tradeDate currentQuantity,
      rejectAbove (parameterFloat parameters ["maxOrderAmount", "max_order_amount"])
        (fun limit => decide (1 / 10 ^ 9 < principal - limit)) "max_order_amount",
      rejectAbove (parameterFloat parameters ["maxDailyTurnover", "max_daily_turnover"])
        (fun limit => decide (0 < session.equity ∧ 1 / 10 ^ 12 <
          (dailyTurnover db session.id tradeDate + principal) / session.equity - limit))
        "max_daily_turnover",
      if side = "buy" then firstRejection
        [rejectAbove (parameterFloat parameters
            ["maxPositionWeight", "max_position_weight", "singleStockMaxWeight"])
            (fun cap => decide (0 < session.equity ∧ 1 / 10 ^ 12 <
              (currentQuantity + quantity) * price / session.equity - cap)) "max_position_weight",
          projectedRiskRejection market session positions symbol quantity price bar tradeDate,
          cashRejection session quantity price side]
      else sellRejection session position quantity tradeDate]

/-- `_lean_intent_rejection` -/
def leanIntentRejection (market : Market) (session : Session) (order : LeanOrder)
    (tradeDate : String) (db : Db) : Except PaperError (Option String) :=
  let symbol := upper (firstText [order.symbol, some session.symbol])
  let side := lower (firstText [order.side])
  let quantity := |firstNumber [order.quantity]|
  if side ≠ "buy" ∧ side ≠ "sell" then .ok (some "invalid_side")
  else if quantity ≤ 0 then .ok (some "invalid_quantity")
  else if session.venue = "china" then
    match market.ashareBar symbol tradeDate (session.parameters.textOrNone "source") with
    | none => .ok (some "stale_data")
    | some bar => firstRejection
      [ashareRejection market session symbol side tradeDate bar,
        portfolioRejection market session symbol side quantity bar.openValue (some bar)
          tradeDate db]
  else firstRejection
    [rejectIf (order.eventPrice ≤ 0) "invalid_price",
      portfolioRejection market session symbol side quantity order.eventPrice none tradeDate db]

/-! ## The match price -/

/-- `_deterministic_v2_match_price`: the price of the fill, or why there is
none. -/
def deterministicMatchPrice (market : Market) (session : Session) (intent : Intent) :
    Except String ℚ :=
  let contract := lower ((session.parameters.textOrNone "executionPolicy").getD "next_open")
  let openPrice : Except String ℚ :=
    if session.venue = "china" then
      match market.ashareBar intent.symbol intent.tradeDate
          (session.parameters.textOrNone "source") with
      | none => .error "market_data_unavailable"
      | some bar => if bar.openValue ≤ 0 then .error "invalid_open_price" else .ok bar.openValue
    else if firstNumber [intent.requestedPrice] ≤ 0 then .error "market_data_unavailable"
    else .ok (firstNumber [intent.requestedPrice])
  if contract ≠ "next_open" then .error "unsupported_execution_contract"
  else
    match openPrice with
    | .error reason => .error reason
    | .ok price =>
      if lower (firstText [some intent.orderType, some "market"]) = "limit" ∧
          (intent.side = "buy" ∧ intent.limitPrice.any (fun limit => decide (limit < price)) ∨
            intent.side = "sell" ∧ intent.limitPrice.any (fun limit => decide (price < limit)))
      then .error "limit_not_marketable"
      else .ok price

/-! ## Accepted orders -/

/-- What an order that passes every check is known to satisfy.  `price` is the
price that the checks used. -/
structure Accepted (market : Market) (session : Session) (symbol side : String)
    (quantity price : ℚ) (tradeDate : String) (db : Db) : Prop where
  sided : side = "buy" ∨ side = "sell"
  positive : 0 < quantity
  covered : side = "buy" → ∃ fee floor, orderFee quantity price side session = .ok fee ∧
    minCash session = .ok floor ∧ floor ≤ session.cash - quantity * price - fee
  held : side = "sell" → quantity ≤ heldQuantity db session.id symbol + 1 / 10 ^ 12
  settled : side = "sell" → session.venue = "china" →
    (findPosition db session.id symbol).bind Position.lastBuyDate ≠ some tradeDate

/-- The price that the checks of an order use. -/
def checkedPrice (market : Market) (session : Session) (order : LeanOrder)
    (tradeDate : String) : Option ℚ :=
  if session.venue = "china" then
    (market.ashareBar (upper (firstText [order.symbol, some session.symbol])) tradeDate
      (session.parameters.textOrNone "source")).map Bar.openValue
  else some order.eventPrice

theorem cashRejection_none {session : Session} {quantity price : ℚ} {side : String}
    (h : cashRejection session quantity price side = .ok none) :
    ∃ fee floor, orderFee quantity price side session = .ok fee ∧ minCash session = .ok floor ∧
      floor ≤ session.cash - quantity * price - fee := by
  unfold cashRejection at h
  cases hfee : orderFee quantity price side session with
  | error e =>
    rw [hfee] at h
    cases h
  | ok fee =>
    rw [hfee] at h
    cases hfloor : minCash session with
    | error e =>
      rw [hfloor] at h
      cases h
    | ok floor =>
      rw [hfloor] at h
      have hcash := rejectIf_none_iff.mp (show rejectIf _ _ = .ok none from h)
      exact ⟨fee, floor, rfl, rfl, not_lt.mp hcash⟩

theorem accepted_of_portfolio_none {market : Market} {session : Session} {symbol side : String}
    {quantity price : ℚ} {bar : Option Bar} {tradeDate : String} {db : Db}
    (hside : side = "buy" ∨ side = "sell") (hquantity : 0 < quantity)
    (h : portfolioRejection market session symbol side quantity price bar tradeDate db = .ok none) :
    Accepted market session symbol side quantity price tradeDate db := by
  unfold portfolioRejection at h
  simp only [firstRejection_none_iff, List.forall_mem_cons] at h
  obtain ⟨-, -, -, hlast, -⟩ := h
  refine ⟨hside, hquantity, ?_, ?_, ?_⟩
  · intro hbuy
    rw [if_pos hbuy] at hlast
    simp only [firstRejection_none_iff, List.forall_mem_cons] at hlast
    exact cashRejection_none hlast.2.2.1
  · intro hsell
    rw [if_neg (by simp [hsell]), sellRejection, firstRejection_none_iff] at hlast
    have hheld := rejectIf_none_iff.mp (hlast _ (List.mem_cons_self ..))
    unfold heldQuantity
    linarith [not_lt.mp hheld]
  · intro hsell hchina
    rw [if_neg (by simp [hsell]), sellRejection, firstRejection_none_iff] at hlast
    have hsettled := rejectIf_none_iff.mp
      (hlast _ (List.mem_cons_of_mem _ (List.mem_cons_self ..)))
    exact fun hsame => hsettled ⟨hchina, hsame⟩

theorem accepted_of_rejection_none {market : Market} {session : Session} {order : LeanOrder}
    {tradeDate : String} {db : Db}
    (h : leanIntentRejection market session order tradeDate db = .ok none) :
    ∃ price, checkedPrice market session order tradeDate = some price ∧
      Accepted market session (upper (firstText [order.symbol, some session.symbol]))
        (lower (firstText [order.side])) |firstNumber [order.quantity]| price tradeDate db := by
  unfold leanIntentRejection at h
  simp only at h
  split_ifs at h with hside hquantity hchina
  · cases h
  · cases h
  · have hside' : lower (firstText [order.side]) = "buy" ∨
        lower (firstText [order.side]) = "sell" := by
      by_contra hneither
      exact hside (not_or.mp hneither)
    split at h
    · cases h
    · rename_i bar hbar
      rw [firstRejection_none_iff] at h
      refine ⟨bar.openValue, by rw [checkedPrice, if_pos hchina, hbar]; rfl, ?_⟩
      exact accepted_of_portfolio_none hside' (not_le.mp hquantity)
        (h _ (List.mem_cons_of_mem _ (List.mem_cons_self ..)))
  · have hside' : lower (firstText [order.side]) = "buy" ∨
        lower (firstText [order.side]) = "sell" := by
      by_contra hneither
      exact hside (not_or.mp hneither)
    rw [firstRejection_none_iff] at h
    refine ⟨order.eventPrice, by rw [checkedPrice, if_neg hchina], ?_⟩
    exact accepted_of_portfolio_none hside' (not_le.mp hquantity)
      (h _ (List.mem_cons_of_mem _ (List.mem_cons_self ..)))

end LocalPlatform.Paper
