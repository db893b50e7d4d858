import LocalPlatform.Backtest.Audit
import Mathlib.Tactic.Linarith

/-!
# What the gates of the audit say about a run

* `short_position_gates` reads the two gates against short positions as a statement about every
  prefix of the events: no symbol is short after it.  It is for events that the audit reads in
  full (`Faithful`); `partial_sale_passes` and `slipped_sale_passes` show what goes wrong else.
* `tPlusOneViolations_nil` shows that the T+1 gate reports nothing, whatever the orders are, and
  `t_plus_one_detects_iff` says for which runs that is right.
-/

namespace LocalPlatform.Backtest

open Tables

/-! ## Positions as sums of fills -/

/-- The sum of the fill quantities of a symbol. -/
def fillSum (events : List OrderEvent) (symbol : String) : ℚ :=
  ((events.filter (fun event => event.bookedSymbol == symbol)).map OrderEvent.quantity).sum

/-- After every prefix of the events, no symbol is short by more than the tolerance. -/
def NeverShort (events : List OrderEvent) : Prop :=
  ∀ before, before <+: events → ∀ symbol, -tolerance ≤ fillSum before symbol

theorem fillSum_snoc (events : List OrderEvent) (event : OrderEvent) (symbol : String) :
    fillSum (events ++ [event]) symbol =
      fillSum events symbol + if event.bookedSymbol = symbol then event.quantity else 0 := by
  unfold fillSum
  rw [List.filter_append, List.map_append, List.sum_append]
  by_cases h : event.bookedSymbol = symbol
  · simp [h]
  · simp [h]

theorem setPosition_key (old row : String × ℚ) : (setPosition old row).1 = old.1 := rfl

theorem position_record (ledger : Ledger) (event : OrderEvent) (symbol : String) :
    (ledger.record event).position symbol =
      ledger.position symbol + if event.bookedSymbol = symbol then event.quantity else 0 := by
  have hfind : ∀ row : String × ℚ, find Prod.fst (upsert Prod.fst setPosition ledger.positions row)
      symbol = if symbol = row.1 then some (merged Prod.fst setPosition ledger.positions row)
        else find Prod.fst ledger.positions symbol :=
    fun row => find_upsert setPosition_key row symbol
  have hsnd : ∀ row : String × ℚ,
      (merged Prod.fst setPosition ledger.positions row).2 = row.2 := by
    intro row
    unfold merged
    cases find Prod.fst ledger.positions row.1 <;> rfl
  by_cases h : event.bookedSymbol = symbol
  · subst h
    simp [Ledger.record, Ledger.position, hfind, hsnd]
  · simp [Ledger.record, Ledger.position, hfind, h, Ne.symm h]

theorem position_state (cash : ℚ) (events : List OrderEvent) (symbol : String) :
    (ledgerMonitor.state (Ledger.start cash) events).position symbol = fillSum events symbol := by
  induction events using List.reverseRecOn with
  | nil => rfl
  | append_singleton events event ih =>
    rw [Monitor.state_snoc, fillSum_snoc, ← ih]
    exact position_record _ event symbol

theorem positions_unique (cash : ℚ) (events : List OrderEvent) :
    Unique Prod.fst (ledgerMonitor.state (Ledger.start cash) events).positions := by
  induction events using List.reverseRecOn with
  | nil => exact List.nodup_nil
  | append_singleton events event ih =>
    rw [Monitor.state_snoc]
    exact ih.upsert setPosition _

/-! ## The gates of the ledger -/

theorem negativePositions_nil_iff (events : List OrderEvent) (cash : ℚ) :
    (positionAndCash events cash).negativePositions = [] ↔
      ∀ symbol, -tolerance ≤ fillSum events symbol := by
  have hunique := positions_unique cash events
  have hstate := ledgerMonitor.run_state (Ledger.start cash) events
  simp only [positionAndCash, hstate, List.filter_eq_nil_iff, decide_eq_true_eq, not_lt]
  constructor
  · intro h symbol
    rw [← position_state cash]
    unfold Ledger.position
    cases hfind : find Prod.fst (ledgerMonitor.state (Ledger.start cash) events).positions symbol with
    | none =>
      show -tolerance ≤ 0
      norm_num [tolerance]
    | some entry => exact h entry (mem_of_find hfind)
  · intro h entry hentry
    have hsum := h entry.1
    rw [← position_state cash] at hsum
    unfold Ledger.position at hsum
    rw [hunique.find_of_mem hentry] at hsum
    exact hsum

theorem oversell_eq_none_iff (ledger : Ledger) (event : OrderEvent) :
    ledger.oversell event = none ↔
      (0 ≤ ledger.position event.bookedSymbol →
        -tolerance ≤ (ledger.record event).position event.bookedSymbol) := by
  rw [position_record]
  unfold Ledger.oversell
  simp

theorem oversells_nil_iff (events : List OrderEvent) (cash : ℚ) :
    (positionAndCash events cash).oversells = [] ↔
      ∀ before event, before ++ [event] <+: events → 0 ≤ fillSum before event.bookedSymbol →
        -tolerance ≤ fillSum (before ++ [event]) event.bookedSymbol := by
  have hfinding : ∀ before event,
      ledgerMonitor.finding (ledgerMonitor.state (Ledger.start cash) before) event = none ↔
        (0 ≤ fillSum before event.bookedSymbol →
          -tolerance ≤ fillSum (before ++ [event]) event.bookedSymbol) := by
    intro before event
    rw [← position_state cash, ← position_state cash (before ++ [event]), Monitor.state_snoc]
    exact oversell_eq_none_iff _ event
  have hiff := ledgerMonitor.findings_eq_nil_iff (Ledger.start cash) events
  simp only [hfinding] at hiff
  exact hiff

/-! ## What the audit reads -/

/-- The audit reads the events in full, and no fill slips through the tolerance: an event that is
not `filled` has no quantity, and no fill takes a symbol that is already below zero, but within
the tolerance, further down. -/
structure Faithful (events : List OrderEvent) : Prop where
  filled : ∀ event ∈ events, event.isFilled = false → event.quantity = 0
  noSlip : ∀ before event, before ++ [event] <+: events → fillSum before event.bookedSymbol < 0 →
    -tolerance ≤ fillSum before event.bookedSymbol →
      -tolerance ≤ fillSum (before ++ [event]) event.bookedSymbol

theorem Faithful.of_prefix {events before : List OrderEvent} (h : Faithful events)
    (hbefore : before <+: events) : Faithful before where
  filled := fun event hevent => h.filled event (hbefore.subset hevent)
  noSlip := fun earlier event hpre => h.noSlip earlier event (List.IsPrefix.trans hpre hbefore)

theorem Faithful.fillSum_filter {events : List OrderEvent} (h : Faithful events) (symbol : String) :
    fillSum (events.filter OrderEvent.isFilled) symbol = fillSum events symbol := by
  induction events using List.reverseRecOn with
  | nil => rfl
  | append_singleton events event ih =>
    have hbefore := ih (h.of_prefix (List.prefix_append events [event]))
    rw [List.filter_append, fillSum_snoc]
    cases hfilled : event.isFilled with
    | true => rw [List.filter_singleton, hfilled, cond_true, fillSum_snoc, hbefore]
    | false =>
      have hzero := h.filled event (by simp) hfilled
      rw [List.filter_singleton, hfilled, cond_false, List.append_nil, hbefore, hzero]
      simp

theorem Faithful.gates_iff {events : List OrderEvent} (h : Faithful events) (cash : ℚ) :
    ((positionAndCash (events.filter OrderEvent.isFilled) cash).negativePositions = [] ∧
      (positionAndCash (events.filter OrderEvent.isFilled) cash).oversells = []) ↔
      NeverShort events := by
  rw [negativePositions_nil_iff, oversells_nil_iff]
  constructor
  · rintro ⟨-, hoversells⟩ before
    induction before using List.reverseRecOn with
    | nil =>
      intro _ symbol
      show -tolerance ≤ 0
      norm_num [tolerance]
    | append_singleton before event ih =>
      intro hpre symbol
      have hbefore := List.IsPrefix.trans (List.prefix_append before [event]) hpre
      have hlong := ih hbefore
      by_cases hsymbol : event.bookedSymbol = symbol
      · subst hsymbol
        by_cases hneg : fillSum before event.bookedSymbol < 0
        · exact h.noSlip before event hpre hneg (hlong event.bookedSymbol)
        · by_cases hfilled : event.isFilled = true
          · have hevent : (before ++ [event]).filter OrderEvent.isFilled =
                before.filter OrderEvent.isFilled ++ [event] := by
              simp [hfilled]
            have hstep := hoversells (before.filter OrderEvent.isFilled) event
            rw [← hevent, (h.of_prefix hpre).fillSum_filter,
              (h.of_prefix hbefore).fillSum_filter] at hstep
            exact hstep (hpre.filter _) (not_lt.mp hneg)
          · have hzero := h.filled event (hpre.subset (by simp)) (by simpa using hfilled)
            rw [fillSum_snoc, hzero]
            simpa using hlong event.bookedSymbol
      · rw [fillSum_snoc, if_neg hsymbol]
        simpa using hlong symbol
  · intro hnever
    constructor
    · intro symbol
      rw [h.fillSum_filter]
      exact hnever events List.prefix_rfl symbol
    · intro before event hpre _
      obtain ⟨whole, hwhole, heq⟩ := List.prefix_filter_iff.mp hpre
      rw [heq, (h.of_prefix hwhole).fillSum_filter]
      exact hnever whole hwhole event.bookedSymbol

/-! ## The gates of a China equity run -/

theorem gatePassed_short {input : AuditInput} {payload : ResultPayload}
    (hpayload : input.payload = some payload) (hchina : input.parameters.isChinaEquity = true) :
    (auditBacktestExecution input).gatePassed "ashare_no_short_positions" =
        (positionAndCash (filledEvents input.eventsFile payload.orders)
          input.parameters.startCash).negativePositions.isEmpty ∧
      (auditBacktestExecution input).gatePassed "ashare_no_oversell" =
        (positionAndCash (filledEvents input.eventsFile payload.orders)
          input.parameters.startCash).oversells.isEmpty := by
  unfold auditBacktestExecution
  rw [hpayload]
  simp only [hchina, if_true]
  split_ifs <;> simp [Audit.gatePassed, commonGates, chinaGates, trendGates]

/-- The gates of a China equity run against short positions pass exactly when no symbol is short
after any prefix of its order events, provided that the audit reads the events in full. -/
theorem short_position_gates {input : AuditInput} {payload : ResultPayload}
    {events : List OrderEvent} (hpayload : input.payload = some payload)
    (hfile : input.eventsFile = .events events)
    (hchina : input.parameters.isChinaEquity = true) (hfaithful : Faithful events) :
    ((auditBacktestExecution input).gatePassed "ashare_no_short_positions" = true ∧
      (auditBacktestExecution input).gatePassed "ashare_no_oversell" = true) ↔
      NeverShort events := by
  obtain ⟨hshort, hoversell⟩ := gatePassed_short hpayload hchina
  rw [hshort, hoversell, hfile, List.isEmpty_iff, List.isEmpty_iff]
  exact hfaithful.gates_iff input.parameters.startCash

/-- A fill event with a status. -/
def fillEvent (orderId symbol status : String) (quantity : ℚ) (time : String) : OrderEvent where
  orderId := orderId
  symbolValue := some symbol
  symbolPermtick := none
  symbol := none
  status := status
  fillQuantity := some quantity
  fillPrice := some 10
  orderFeeAmount := some 1
  utcTime := some time
  time := none
  fillTime := none

def chinaPayload : ResultPayload where
  endEquity := some 100000
  drawdown := some 0
  runtimeError := ""
  orders := []
  lastEquityDate := some "2024-01-04"

def chinaParameters : AuditParameters where
  assetClass := some "equity"
  market := some "china"
  venue := none
  strategyTemplateKey := none
  initialCash := some 100000
  cash := none
  endDate := some "2024-01-04"

/-- A China equity run with some events. -/
def chinaRun (events : List OrderEvent) : AuditInput where
  payload := some chinaPayload
  eventsFile := .events events
  parameters := chinaParameters
  logs :=
    { errorCount := 0, completedDate := none, cashAccountConfigured := true,
      trendNextOpenContract := false }
  actualLastDate := none

/-- A purchase and a sale of it, with an event for each submission. -/
def roundTrip : List OrderEvent :=
  [fillEvent "1" "600460" "submitted" 0 "2024-01-03", fillEvent "1" "600460" "filled" 100 "2024-01-03",
   fillEvent "2" "600460" "filled" (-100) "2024-01-04"]

theorem roundTrip_faithful : Faithful roundTrip where
  filled := by decide +kernel
  noSlip := by
    have hlong : ∀ before ∈ roundTrip.inits, ∀ event ∈ roundTrip,
        ¬ fillSum before event.bookedSymbol < 0 := by decide +kernel
    intro before event hpre hneg
    have hbefore := List.IsPrefix.trans (List.prefix_append before [event]) hpre
    exact absurd hneg (hlong before (List.mem_inits _ _ |>.mpr hbefore) event (hpre.subset (by simp)))

theorem short_position_gates_roundTrip :
    ((auditBacktestExecution (chinaRun roundTrip)).gatePassed "ashare_no_short_positions" = true ∧
      (auditBacktestExecution (chinaRun roundTrip)).gatePassed "ashare_no_oversell" = true) ↔
      NeverShort roundTrip :=
  short_position_gates rfl rfl (by decide +kernel) roundTrip_faithful

/-- A sale that was filled in part, with nothing held. -/
def partialSale : OrderEvent := fillEvent "1" "600460" "partiallyFilled" (-100) "2024-01-03"

/-- The audit passes a run that only sold short, since the sale was filled in part. -/
theorem partial_sale_passes :
    (auditBacktestExecution (chinaRun [partialSale])).passed = true ∧
      (auditBacktestExecution (chinaRun [partialSale])).gatePassed "ashare_no_short_positions" = true ∧
      (auditBacktestExecution (chinaRun [partialSale])).gatePassed "ashare_no_oversell" = true ∧
      fillSum [partialSale] "600460" = -100 ∧ ¬ NeverShort [partialSale] := by
  have hsum : fillSum [partialSale] "600460" = -100 := by decide +kernel
  refine ⟨by decide +kernel, by decide +kernel, by decide +kernel, hsum, ?_⟩
  intro hnever
  have hlong := hnever [partialSale] List.prefix_rfl "600460"
  rw [hsum] at hlong
  norm_num [tolerance] at hlong

/-! ## The T+1 gate -/

/-- An event is a fill of an order of the trend template. -/
def IsTrendFill (order : PayloadOrder) (event : OrderEvent) : Prop :=
  (∃ signalDate, order.tag = .trend signalDate) ∧ order.id ≠ "" ∧ event.orderId = order.id

/-- Some symbol is bought, and sold later on the same date. -/
def SameDaySale (orders : List PayloadOrder) (events : List OrderEvent) : Prop :=
  ∃ buyOrder ∈ orders, ∃ sellOrder ∈ orders, ∃ buy sell date, [buy, sell].Sublist events ∧
    IsTrendFill buyOrder buy ∧ IsTrendFill sellOrder sell ∧ 0 < buy.quantity ∧ sell.quantity < 0 ∧
    fillSymbol buyOrder buy = fillSymbol sellOrder sell ∧
    fillDate buyOrder buy = some date ∧ fillDate sellOrder sell = some date

theorem lastBuy_state (fills : List DatedFill) {symbol date : String}
    (h : lastBuyMonitor.state (fun _ => none) fills symbol = some date) :
    ∃ buy ∈ fills, buy.symbol = symbol ∧ buy.date = date ∧ 0 < buy.quantity := by
  induction fills using List.reverseRecOn with
  | nil => cases h
  | append_singleton fills fill ih =>
    rw [Monitor.state_snoc] at h
    have hold : lastBuyMonitor.state (fun _ => none) fills symbol = some date →
        ∃ buy ∈ fills ++ [fill], buy.symbol = symbol ∧ buy.date = date ∧ 0 < buy.quantity := by
      intro hstate
      obtain ⟨buy, hbuy, hrest⟩ := ih hstate
      exact ⟨buy, List.mem_append_left _ hbuy, hrest⟩
    by_cases hpos : 0 < fill.quantity
    · by_cases hsymbol : symbol = fill.symbol
      · refine ⟨fill, by simp, hsymbol.symm, ?_, hpos⟩
        simpa [lastBuyMonitor, hpos, hsymbol] using h
      · apply hold
        simpa [lastBuyMonitor, hpos, Function.update_of_ne hsymbol] using h
    · apply hold
      simpa [lastBuyMonitor, hpos] using h

theorem sorted_fills_clean {fills : List DatedFill}
    (hsorted : fills.Pairwise (fun a b => a.rank ≤ b.rank)) :
    (lastBuyMonitor.run (fun _ => none) fills).2 = [] := by
  rw [Monitor.findings_eq_nil_iff]
  intro before fill hpre
  have hbefore : ∀ buy ∈ before, buy.rank ≤ fill.rank := by
    have hpair := hsorted.sublist hpre.sublist
    rw [List.pairwise_append] at hpair
    intro buy hbuy
    exact hpair.2.2 buy hbuy fill (List.mem_singleton_self fill)
  by_cases hsale : fill.quantity < 0 ∧
      lastBuyMonitor.state (fun _ => none) before fill.symbol = some fill.date
  · exfalso
    obtain ⟨buy, hbuy, hsymbol, hdate, hpos⟩ := lastBuy_state before hsale.2
    have hrank := hbefore buy hbuy
    have hquantity : buy.quantity ≤ fill.quantity := by
      unfold DatedFill.rank at hrank
      rw [hdate, hsymbol] at hrank
      simp only [Prod.Lex.toLex_le_toLex, lt_self_iff_false, true_and, false_or] at hrank
      cases hrank with
      | inl hlt => exact le_of_lt hlt
      | inr heq => exact le_of_eq heq.1
    linarith [hsale.1]
  · exact if_neg hsale

theorem tPlusOneViolations_nil (orders : List PayloadOrder) (events : List OrderEvent) :
    (trendOrderContract orders events).tPlusOneViolations = [] :=
  sorted_fills_clean (orderBy_sorted DatedFill.rank _)

/-- The T+1 gate reports exactly the runs that sell on the day of a purchase, only when the run is
not one of these. -/
theorem t_plus_one_detects_iff (orders : List PayloadOrder) (events : List OrderEvent) :
    ((trendOrderContract orders events).tPlusOneViolations ≠ [] ↔ SameDaySale orders events) ↔
      ¬ SameDaySale orders events := by
  rw [tPlusOneViolations_nil]
  simp

/-- An order of the trend template. -/
def trendOrder (id : String) (quantity : ℚ) : PayloadOrder where
  id := id
  symbol := some "000001"
  tag := .trend "2024-01-03"
  status := .code 3
  quantity := some quantity
  price := some 10
  lastFillTime := none
  time := none

def dayTradeOrders : List PayloadOrder := [trendOrder "1" 100, trendOrder "2" (-100)]

def dayTradeEvents : List OrderEvent :=
  [fillEvent "1" "000001" "filled" 100 "2024-01-04T01:30:00Z",
   fillEvent "2" "000001" "filled" (-100) "2024-01-04T06:30:00Z"]

/-- A sale on the day of the purchase is not reported. -/
theorem day_trade_unreported :
    trendOrderContract dayTradeOrders dayTradeEvents = ⟨2, [], []⟩ ∧
      SameDaySale dayTradeOrders dayTradeEvents := by
  refine ⟨by decide +kernel, trendOrder "1" 100, by simp [dayTradeOrders], trendOrder "2" (-100),
    by simp [dayTradeOrders], fillEvent "1" "000001" "filled" 100 "2024-01-04T01:30:00Z",
    fillEvent "2" "000001" "filled" (-100) "2024-01-04T06:30:00Z", "2024-01-04",
    List.Sublist.refl _, ⟨⟨_, rfl⟩, by decide +kernel, rfl⟩, ⟨⟨_, rfl⟩, by decide +kernel, rfl⟩,
    by decide +kernel, by decide +kernel, by decide +kernel, by decide +kernel, by decide +kernel⟩

end LocalPlatform.Backtest
