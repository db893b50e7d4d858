import LocalPlatform.Lib.Fifo
import LocalPlatform.Lib.Rows

/-!
# Holdings from orders

`infer_holdings_from_orders` keeps a queue of lots for each symbol, and reports what is left in it.

* A buy closes short lots first, and a sell long ones.  A buy opens a long lot with the rest of it;
  a sell opens a short lot only where no lot is left.
* `applyOrder_eq`: so a sell that meets an open short position is dropped, and every other order is
  a trade of `Fifo`.
* Numbers are exact, and a time is the microseconds from the earliest one, which is also the time of
  an order without one.
-/

namespace LocalPlatform.Backtest.Holdings

open Fifo Tables

/-! ## Orders and lots -/

structure FilledOrder where
  symbol : String
  quantity : ℚ
  price : ℚ
  time : ℕ
  deriving DecidableEq

/-- The loop of a buy over the short lots: what is left of it, and the lots. -/
def coverShort : ℚ → List (Lot ℚ) → ℚ × List (Lot ℚ)
  | remaining, [] => (remaining, [])
  | remaining, lot :: lots =>
    if 0 < remaining ∧ lot.quantity < 0 then
      let used := min remaining (-lot.quantity)
      let quantity := lot.quantity + used
      if 0 ≤ quantity then coverShort (remaining - used) lots
      -- the lot has taken all of the order, and the loop ends
      else (remaining - used, { lot with quantity := quantity } :: lots)
    else (remaining, lot :: lots)

/-- The loop of a sell over the long lots. -/
def closeLong : ℚ → List (Lot ℚ) → ℚ × List (Lot ℚ)
  | remaining, [] => (remaining, [])
  | remaining, lot :: lots =>
    if 0 < remaining ∧ 0 < lot.quantity then
      let used := min remaining lot.quantity
      let quantity := lot.quantity - used
      if quantity ≤ 0 then closeLong (remaining - used) lots
      else (remaining - used, { lot with quantity := quantity } :: lots)
    else (remaining, lot :: lots)

/-- The lots of a symbol after an order of it. -/
def applyOrder (lots : List (Lot ℚ)) (order : FilledOrder) : List (Lot ℚ) :=
  if 0 < order.quantity then
    let rest := coverShort order.quantity lots
    if 0 < rest.1 then rest.2 ++ [{ quantity := rest.1, price := order.price }] else rest.2
  else
    let rest := closeLong (-order.quantity) lots
    if 0 < rest.1 ∧ rest.2 = [] then rest.2 ++ [{ quantity := -rest.1, price := order.price }]
    else rest.2

/-- What is kept of a symbol. -/
structure Position where
  symbol : String
  lots : List (Lot ℚ)
  lastTime : ℕ

def Position.add (order : FilledOrder) (position : Position) : Position :=
  { position with lots := applyOrder position.lots order, lastTime := order.time }

/-- A turn of the loop over the orders. -/
def recordOrder (positions : List Position) (order : FilledOrder) : List Position :=
  if order.symbol = "" ∨ order.quantity = 0 then positions
  else
    upsert Position.symbol (fun old _ => old.add order) positions
      { symbol := order.symbol, lots := applyOrder [] order, lastTime := order.time }

def positionsOf (orders : List FilledOrder) : List Position :=
  (orderBy FilledOrder.time orders).foldl recordOrder []

/-! ## Prices -/

structure PricePoint where
  time : Option ℕ
  value : ℚ
  deriving DecidableEq

/-- The distance of a point from a time; a point without a time is at it. -/
def PricePoint.distance (target : ℕ) (point : PricePoint) : ℕ :=
  (point.time.map (fun time => max time target - min time target)).getD 0

/-- `_nearest_value`: the first of the nearest points. -/
def nearestValue (points : List PricePoint) (target : ℕ) : Option ℚ :=
  match points with
  | [] => none
  | first :: rest =>
    some (rest.foldl (fun best point =>
      if point.distance target < best.distance target then point else best) first).value

/-- The series that the prices of a symbol are looked up in. -/
structure PriceSource where
  series : List PricePoint
  bySymbol : String → Option (List PricePoint)
  loader : Option (String → Option (List PricePoint))

def PriceSource.points (source : PriceSource) (symbol : String) : List PricePoint :=
  ((source.bySymbol symbol).or (source.loader.bind (fun load => load symbol))).getD source.series

/-! ## The report -/

structure Holding where
  time : ℕ
  symbol : String
  quantity : ℚ
  averagePrice : ℚ
  marketPrice : ℚ
  marketValue : ℚ
  netCost : ℚ
  deriving DecidableEq

def dust : ℚ := 1 / 10 ^ 12

def valueOf (lots : List (Lot ℚ)) : ℚ := (lots.map (fun lot => lot.quantity * lot.price)).sum

/-- The average price of the lots on the side of the position. -/
def averageOf (quantity : ℚ) (lots : List (Lot ℚ)) : ℚ :=
  let long := lots.filter (fun lot => 0 < lot.quantity)
  let short := lots.filter (fun lot => lot.quantity < 0)
  if 0 < quantity ∧ 0 < total long then valueOf long / total long
  else if quantity < 0 ∧ total short < 0 then valueOf short / total short
  else 0

/-- The holding of a position, if something is held. -/
def Position.holding? (source : PriceSource) (position : Position) : Option Holding :=
  let quantity := total position.lots
  if |quantity| ≤ dust then none
  else
    let marketPrice := (nearestValue (source.points position.symbol) position.lastTime).getD 0
    some
      { time := position.lastTime
        symbol := position.symbol
        quantity := quantity
        averagePrice := averageOf quantity position.lots
        marketPrice := marketPrice
        marketValue := if marketPrice = 0 then 0 else quantity * marketPrice
        netCost := valueOf (position.lots.filter (fun lot => 0 < lot.quantity)) +
          valueOf (position.lots.filter (fun lot => lot.quantity < 0)) }

/-- `infer_holdings_from_orders` -/
def inferHoldingsFromOrders (orders : List FilledOrder) (source : PriceSource) : List Holding :=
  (positionsOf orders).filterMap (Position.holding? source)

/-! ## What is claimed of it -/

/-- The sum of the signed quantities of a symbol. -/
def signedSum (orders : List FilledOrder) (symbol : String) : ℚ :=
  ((orders.filter (fun order => order.symbol = symbol)).map FilledOrder.quantity).sum

/-- The orders of a symbol in the order of their times. -/
def ordersOf (orders : List FilledOrder) (symbol : String) : List FilledOrder :=
  (orderBy FilledOrder.time orders).filter
    (fun order => order.symbol = symbol ∧ order.quantity ≠ 0)

/-- The open lots of a symbol under FIFO matching. -/
def fifoLots (orders : List FilledOrder) : List (Lot ℚ) :=
  orders.foldl (fun lots order => trade lots order.quantity order.price) []

/-- A symbol is reported with its signed sum and the price of its open lots, and left out where the
sum is zero. -/
def SymbolSound (orders : List FilledOrder) (holdings : List Holding) (symbol : String) : Prop :=
  match find Holding.symbol holdings symbol with
  | none => signedSum orders symbol = 0
  | some holding => signedSum orders symbol ≠ 0 ∧ holding.quantity = signedSum orders symbol ∧
      holding.averagePrice = averagePrice (fifoLots (ordersOf orders symbol))

structure HoldingsSound (orders : List FilledOrder) (holdings : List Holding) : Prop where
  once : Unique Holding.symbol holdings
  symbols : ∀ symbol, symbol ≠ "" → SymbolSound orders holdings symbol

/-- No sell comes while the orders before it leave the symbol short. -/
def SellsCovered : ℚ → List FilledOrder → Prop
  | _, [] => True
  | held, order :: orders =>
    (order.quantity < 0 → 0 ≤ held) ∧ SellsCovered (held + order.quantity) orders

instance decidableSellsCovered : ∀ (held : ℚ) (orders : List FilledOrder),
    Decidable (SellsCovered held orders)
  | _, [] => .isTrue trivial
  | held, order :: orders =>
    have := decidableSellsCovered (held + order.quantity) orders
    inferInstanceAs (Decidable ((order.quantity < 0 → 0 ≤ held) ∧
      SellsCovered (held + order.quantity) orders))

/-- The quantity of the sells that come while the symbol is short, which are not counted again. -/
def dropped : ℚ → List FilledOrder → ℚ
  | _, [] => 0
  | held, order :: orders =>
    if order.quantity < 0 ∧ held < 0 then order.quantity + dropped held orders
    else dropped (held + order.quantity) orders

/-- No sell of the symbol is dropped and its sum is not dust; if the sum is zero, what is dropped
may be dust. -/
def SymbolCovered (orders : List FilledOrder) (symbol : String) : Prop :=
  if signedSum orders symbol = 0 then |dropped 0 (ordersOf orders symbol)| ≤ dust
  else SellsCovered 0 (ordersOf orders symbol) ∧ dust < |signedSum orders symbol|

instance (orders : List FilledOrder) (symbol : String) : Decidable (SymbolCovered orders symbol) :=
  inferInstanceAs (Decidable (if signedSum orders symbol = 0 then _ else _ ∧ _))

/-! ## One order -/

variable {lots : List (Lot ℚ)}

theorem coverShort_eq :
    ∀ {remaining : ℚ}, 0 ≤ remaining → coverShort remaining lots = offset remaining lots := by
  induction lots with
  | nil => exact fun _ => rfl
  | cons lot lots ih =>
    intro remaining hremaining
    unfold coverShort offset
    by_cases hcloses : 0 < remaining ∧ lot.quantity < 0
    · have hopposed := mul_neg_of_pos_of_neg hcloses.1 hcloses.2
      rw [if_pos hcloses, if_pos hopposed, abs_of_pos hcloses.1, abs_of_neg hcloses.2]
      dsimp only
      by_cases hpart : remaining < -lot.quantity
      · have hquantity : ¬ 0 ≤ lot.quantity + remaining := by linarith
        rw [min_eq_left hpart.le, if_neg hquantity, if_pos hpart, sub_self]
      · have hquantity : lot.quantity + -lot.quantity = 0 := by ring
        rw [min_eq_right (not_lt.mp hpart), hquantity, if_pos le_rfl, if_neg hpart, sub_neg_eq_add]
        exact ih (by linarith)
    · have hopposed : ¬ remaining * lot.quantity < 0 := by
        intro hneg
        have hlot := neg_of_mul_neg_right hneg hremaining
        rcases hremaining.eq_or_lt with hzero | hpos
        · rw [← hzero, zero_mul] at hneg
          exact lt_irrefl _ hneg
        · exact hcloses ⟨hpos, hlot⟩
      rw [if_neg hcloses, if_neg hopposed]

theorem closeLong_eq :
    ∀ {remaining : ℚ}, 0 ≤ remaining → closeLong remaining lots =
      (-(offset (-remaining) lots).1, (offset (-remaining) lots).2) := by
  induction lots with
  | nil =>
    intro remaining _
    simp [closeLong, offset]
  | cons lot lots ih =>
    intro remaining hremaining
    unfold closeLong offset
    by_cases hcloses : 0 < remaining ∧ 0 < lot.quantity
    · have hneg : -remaining < 0 := neg_lt_zero.mpr hcloses.1
      have hopposed := mul_neg_of_neg_of_pos hneg hcloses.2
      rw [if_pos hcloses, if_pos hopposed, abs_of_neg hneg, abs_of_pos hcloses.2, neg_neg]
      dsimp only
      by_cases hpart : remaining < lot.quantity
      · have hquantity : ¬ lot.quantity - remaining ≤ 0 := by linarith
        rw [min_eq_left hpart.le, if_neg hquantity, if_pos hpart, sub_self, neg_zero,
          sub_eq_add_neg]
      · have hrest : -remaining + lot.quantity = -(remaining - lot.quantity) := by ring
        rw [min_eq_right (not_lt.mp hpart), sub_self, if_pos le_rfl, if_neg hpart, hrest]
        exact ih (by linarith)
    · have hopposed : ¬ -remaining * lot.quantity < 0 := by
        intro hneg
        rcases hremaining.eq_or_lt with hzero | hpos
        · rw [← hzero, neg_zero, zero_mul] at hneg
          exact lt_irrefl _ hneg
        · have hlot := pos_of_mul_neg_right hneg (neg_nonpos.mpr hremaining)
          exact hcloses ⟨hpos, hlot⟩
      rw [if_neg hcloses, if_neg hopposed, neg_neg]

variable {order : FilledOrder}

theorem applyOrder_buy (hbuy : 0 < order.quantity) :
    applyOrder lots order = trade lots order.quantity order.price := by
  have hrest := @offset_nonneg _ _ _ _ lots _ hbuy.le
  unfold applyOrder trade
  dsimp only
  rw [if_pos hbuy, coverShort_eq hbuy.le]
  by_cases hzero : (offset order.quantity lots).1 = 0
  · have hused : ¬ 0 < (offset order.quantity lots).1 := hzero.le.not_gt
    rw [if_neg hused, if_pos hzero]
  · have hleft : 0 < (offset order.quantity lots).1 := lt_of_le_of_ne hrest (Ne.symm hzero)
    rw [if_pos hleft, if_neg hzero]

theorem applyOrder_short (h : OneSign lots) (hsell : order.quantity < 0) (hshort : total lots < 0) :
    applyOrder lots order = lots := by
  have hlots := h.of_total_neg hshort
  have hside : OnSide (-1) lots := by
    intro lot hlot
    have hneg := hlots lot hlot
    linarith
  have hsame := hside.offset_same (by linarith : 0 ≤ (-1 : ℚ) * order.quantity)
  have hopen : ¬ (0 < -order.quantity ∧ lots = []) := by
    intro hempty
    rw [hempty.2] at hshort
    exact lt_irrefl _ hshort
  unfold applyOrder
  dsimp only
  rw [if_neg hsell.not_gt, closeLong_eq (by linarith), neg_neg, hsame]
  dsimp only
  rw [if_neg hopen]

theorem applyOrder_sell (h : OneSign lots) (hsell : order.quantity < 0) (hlong : 0 ≤ total lots) :
    applyOrder lots order = trade lots order.quantity order.price := by
  have hlots := h.of_total_nonneg hlong
  have hside : OnSide 1 lots := by
    intro lot hlot
    rw [one_mul]
    exact hlots lot hlot
  have hother := hside.offset_other (by linarith : (1 : ℚ) * order.quantity ≤ 0)
  unfold applyOrder trade
  dsimp only
  rw [if_neg hsell.not_gt, closeLong_eq (by linarith), neg_neg]
  dsimp only
  by_cases hzero : (offset order.quantity lots).1 = 0
  · have hused : ¬ (0 < -(offset order.quantity lots).1 ∧ (offset order.quantity lots).2 = []) := by
      rw [hzero]
      simp
    rw [if_neg hused, if_pos hzero]
  · have hnil := hother.2.2.resolve_left hzero
    have hleft : 0 < -(offset order.quantity lots).1 := by
      have hle := hother.2.1
      rw [one_mul] at hle
      have hneg := lt_of_le_of_ne hle hzero
      linarith
    rw [if_pos ⟨hleft, hnil⟩, if_neg hzero, neg_neg]

theorem applyOrder_eq (h : OneSign lots) (hne : order.quantity ≠ 0) :
    applyOrder lots order =
      if order.quantity < 0 ∧ total lots < 0 then lots
      else trade lots order.quantity order.price := by
  rcases lt_or_gt_of_ne hne with hsell | hbuy
  · by_cases hshort : total lots < 0
    · rw [if_pos ⟨hsell, hshort⟩, applyOrder_short h hsell hshort]
    · have hkept : ¬ (order.quantity < 0 ∧ total lots < 0) := fun hdrop => hshort hdrop.2
      rw [if_neg hkept, applyOrder_sell h hsell (not_lt.mp hshort)]
  · have hkept : ¬ (order.quantity < 0 ∧ total lots < 0) := fun hdrop => hdrop.1.not_gt hbuy
    rw [if_neg hkept, applyOrder_buy hbuy]

/-! ## The orders of a symbol -/

/-- The lots that the code has after the orders of a symbol. -/
def codeLots (lots : List (Lot ℚ)) (orders : List FilledOrder) : List (Lot ℚ) :=
  orders.foldl applyOrder lots

def quantitySum (orders : List FilledOrder) : ℚ := (orders.map FilledOrder.quantity).sum

@[simp] theorem quantitySum_cons (order : FilledOrder) (orders : List FilledOrder) :
    quantitySum (order :: orders) = order.quantity + quantitySum orders := by
  simp [quantitySum]

theorem oneSign_applyOrder (h : OneSign lots) (hne : order.quantity ≠ 0) :
    OneSign (applyOrder lots order) := by
  rw [applyOrder_eq h hne]
  split_ifs
  · exact h
  · exact h.trade hne order.price

variable {orders : List FilledOrder}

theorem oneSign_codeLots :
    ∀ {lots : List (Lot ℚ)}, OneSign lots → (∀ order ∈ orders, order.quantity ≠ 0) →
      OneSign (codeLots lots orders) := by
  induction orders with
  | nil =>
    intro lots h _
    exact h
  | cons order orders ih =>
    intro lots h hne
    have horder := hne order List.mem_cons_self
    exact ih (oneSign_applyOrder h horder)
      (fun other hother => hne other (List.mem_cons_of_mem _ hother))

theorem total_codeLots :
    ∀ {lots : List (Lot ℚ)}, OneSign lots → (∀ order ∈ orders, order.quantity ≠ 0) →
      total (codeLots lots orders) =
        total lots + quantitySum orders - dropped (total lots) orders := by
  induction orders with
  | nil =>
    intro lots _ _
    simp [codeLots, quantitySum, dropped]
  | cons order orders ih =>
    intro lots h hne
    have horder := hne order List.mem_cons_self
    have hrest := fun other hother => hne other (List.mem_cons_of_mem _ hother)
    show total (codeLots (applyOrder lots order) orders) = _
    rw [ih (oneSign_applyOrder h horder) hrest, applyOrder_eq h horder, quantitySum_cons, dropped]
    split_ifs
    · ring
    · rw [total_trade]
      ring

theorem dropped_nonpos (orders : List FilledOrder) : ∀ held, dropped held orders ≤ 0 := by
  induction orders with
  | nil => exact fun _ => le_rfl
  | cons order orders ih =>
    intro held
    unfold dropped
    split_ifs with hdrop
    · have hrest := ih held
      linarith [hdrop.1]
    · exact ih _

theorem dropped_eq_zero_iff (orders : List FilledOrder) :
    ∀ held, dropped held orders = 0 ↔ SellsCovered held orders := by
  induction orders with
  | nil => exact fun _ => iff_of_true rfl trivial
  | cons order orders ih =>
    intro held
    unfold dropped SellsCovered
    split_ifs with hdrop
    · refine iff_of_false ?_ (fun hcovered => (hcovered.1 hdrop.1).not_gt hdrop.2)
      have hrest := dropped_nonpos orders held
      intro hzero
      linarith [hdrop.1]
    · rw [ih]
      constructor
      · intro hcovered
        exact ⟨fun hsell => not_lt.mp (fun hshort => hdrop ⟨hsell, hshort⟩), hcovered⟩
      · exact fun hcovered => hcovered.2

theorem codeLots_eq :
    ∀ {lots : List (Lot ℚ)}, OneSign lots → (∀ order ∈ orders, order.quantity ≠ 0) →
      SellsCovered (total lots) orders →
      codeLots lots orders =
        orders.foldl (fun lots order => trade lots order.quantity order.price) lots := by
  induction orders with
  | nil => exact fun _ _ _ => rfl
  | cons order orders ih =>
    intro lots h hne hcovered
    have horder := hne order List.mem_cons_self
    have hrest := fun other hother => hne other (List.mem_cons_of_mem _ hother)
    have hkept : ¬ (order.quantity < 0 ∧ total lots < 0) :=
      fun hdrop => (hcovered.1 hdrop.1).not_gt hdrop.2
    show codeLots (applyOrder lots order) orders = _
    rw [applyOrder_eq h horder, if_neg hkept]
    apply ih (h.trade horder order.price) hrest
    rw [total_trade]
    exact hcovered.2

/-! ## The positions -/

def lotsOf (positions : List Position) (symbol : String) : List (Lot ℚ) :=
  ((find Position.symbol positions symbol).map Position.lots).getD []

variable {symbol : String}

theorem lotsOf_recordOrder (positions : List Position) (order : FilledOrder) (hsymbol : symbol ≠ "") :
    lotsOf (recordOrder positions order) symbol =
      if order.symbol = symbol ∧ order.quantity ≠ 0 then applyOrder (lotsOf positions symbol) order
      else lotsOf positions symbol := by
  unfold recordOrder
  by_cases hskip : order.symbol = "" ∨ order.quantity = 0
  · have hother : ¬ (order.symbol = symbol ∧ order.quantity ≠ 0) := by
      rintro ⟨heq, hne⟩
      cases hskip with
      | inl hempty => exact hsymbol (heq.symm.trans hempty)
      | inr hzero => exact hne hzero
    rw [if_pos hskip, if_neg hother]
  · rw [if_neg hskip]
    unfold lotsOf
    rw [find_upsert_absorb Position.symbol (fun old _ => old.add order) (fun _ _ => rfl)]
    by_cases hown : order.symbol = symbol
    · have hcounted : order.symbol = symbol ∧ order.quantity ≠ 0 :=
        ⟨hown, fun hzero => hskip (.inr hzero)⟩
      rw [if_pos hown.symm, if_pos hcounted]
      cases find Position.symbol positions symbol with
      | none => rfl
      | some old => rfl
    · have hother : ¬ (order.symbol = symbol ∧ order.quantity ≠ 0) := fun h => hown h.1
      rw [if_neg (Ne.symm hown), if_neg hother]

theorem lotsOf_foldl (hsymbol : symbol ≠ "") (orders : List FilledOrder) :
    ∀ positions, lotsOf (orders.foldl recordOrder positions) symbol =
      codeLots (lotsOf positions symbol)
        (orders.filter (fun order => order.symbol = symbol ∧ order.quantity ≠ 0)) := by
  induction orders with
  | nil => exact fun _ => rfl
  | cons order orders ih =>
    intro positions
    rw [List.foldl_cons, ih, lotsOf_recordOrder positions order hsymbol]
    by_cases hcounted : order.symbol = symbol ∧ order.quantity ≠ 0
    · have hkept : (order :: orders).filter (fun order => order.symbol = symbol ∧
          order.quantity ≠ 0) = order :: orders.filter (fun order => order.symbol = symbol ∧
          order.quantity ≠ 0) := by
        simp [hcounted.1, hcounted.2]
      rw [if_pos hcounted, hkept]
      rfl
    · rw [if_neg hcounted, List.filter_cons_of_neg (by simpa using hcounted)]

theorem unique_recordOrder {positions : List Position} (h : Unique Position.symbol positions)
    (order : FilledOrder) : Unique Position.symbol (recordOrder positions order) := by
  unfold recordOrder
  split_ifs
  · exact h
  · exact h.upsert _ _

theorem unique_foldl (orders : List FilledOrder) : ∀ {positions : List Position},
    Unique Position.symbol positions → Unique Position.symbol (orders.foldl recordOrder positions) := by
  induction orders with
  | nil => exact fun h => h
  | cons order orders ih => exact fun h => ih (unique_recordOrder h order)

theorem unique_positionsOf (orders : List FilledOrder) :
    Unique Position.symbol (positionsOf orders) := unique_foldl _ List.nodup_nil

theorem quantitySum_filter (orders : List FilledOrder) (symbol : String) :
    quantitySum (orders.filter (fun order => order.symbol = symbol ∧ order.quantity ≠ 0)) =
      signedSum orders symbol := by
  unfold signedSum
  induction orders with
  | nil => rfl
  | cons order orders ih =>
    by_cases hown : order.symbol = symbol
    · rw [List.filter_cons_of_pos (p := fun order : FilledOrder => decide (order.symbol = symbol))
        (decide_eq_true hown), List.map_cons, List.sum_cons, ← ih]
      by_cases hzero : order.quantity = 0
      · rw [List.filter_cons_of_neg (by simp [hzero]), hzero, zero_add]
      · rw [List.filter_cons_of_pos (by simp [hown, hzero]), quantitySum_cons]
    · rw [List.filter_cons_of_neg (by simp [hown]), List.filter_cons_of_neg (by simp [hown]), ih]

theorem quantitySum_ordersOf (orders : List FilledOrder) (symbol : String) :
    quantitySum (ordersOf orders symbol) = signedSum orders symbol := by
  rw [← quantitySum_filter]
  have hperm := (orderBy_perm FilledOrder.time orders).filter
    (fun order => decide (order.symbol = symbol ∧ order.quantity ≠ 0))
  exact (hperm.map FilledOrder.quantity).sum_eq

theorem quantity_ne_of_mem : ∀ order ∈ ordersOf orders symbol, order.quantity ≠ 0 := by
  intro order horder
  exact (of_decide_eq_true (List.mem_filter.mp horder).2).2

theorem lotsOf_positionsOf (orders : List FilledOrder) (hsymbol : symbol ≠ "") :
    lotsOf (positionsOf orders) symbol = codeLots [] (ordersOf orders symbol) :=
  lotsOf_foldl hsymbol _ []

/-! ## The holdings -/

theorem averageOf_eq (h : OneSign lots) (hne : total lots ≠ 0) :
    averageOf (total lots) lots = averagePrice lots := by
  unfold averageOf
  dsimp only
  rcases lt_or_gt_of_ne hne with hneg | hpos
  · have hlots := h.of_total_neg hneg
    have hshort : lots.filter (fun lot => lot.quantity < 0) = lots :=
      List.filter_eq_self.mpr (fun lot hlot => decide_eq_true (hlots lot hlot))
    rw [hshort, if_neg (fun hlong => hlong.1.not_gt hneg), if_pos ⟨hneg, hneg⟩]
    rfl
  · have hlots := h.of_total_nonneg hpos.le
    have hlong : lots.filter (fun lot => 0 < lot.quantity) = lots :=
      List.filter_eq_self.mpr (fun lot hlot => decide_eq_true (hlots lot hlot))
    rw [hlong, if_pos ⟨hpos, hpos⟩]
    rfl

theorem holding?_symbol {source : PriceSource} (position : Position) (holding : Holding)
    (h : position.holding? source = some holding) : holding.symbol = position.symbol := by
  unfold Position.holding? at h
  dsimp only at h
  by_cases hdust : |total position.lots| ≤ dust
  · rw [if_pos hdust] at h
    exact absurd h (by simp)
  · rw [if_neg hdust] at h
    rw [← Option.some.inj h]

theorem find_inferHoldings (orders : List FilledOrder) (source : PriceSource) (symbol : String) :
    match find Holding.symbol (inferHoldingsFromOrders orders source) symbol with
    | none => |total (lotsOf (positionsOf orders) symbol)| ≤ dust
    | some holding =>
      dust < |total (lotsOf (positionsOf orders) symbol)| ∧
        holding.quantity = total (lotsOf (positionsOf orders) symbol) ∧
        holding.averagePrice = averageOf (total (lotsOf (positionsOf orders) symbol))
          (lotsOf (positionsOf orders) symbol) := by
  unfold inferHoldingsFromOrders lotsOf
  rw [(unique_positionsOf orders).find_filterMap holding?_symbol]
  cases find Position.symbol (positionsOf orders) symbol with
  | none =>
    show |(0 : ℚ)| ≤ dust
    rw [abs_zero]
    unfold dust
    positivity
  | some position =>
    rw [Option.bind_some, Option.map_some, Option.getD_some]
    unfold Position.holding?
    dsimp only
    by_cases hdust : |total position.lots| ≤ dust
    · rw [if_pos hdust]
      exact hdust
    · rw [if_neg hdust]
      exact ⟨not_le.mp hdust, rfl, rfl⟩

theorem symbolSound_iff (orders : List FilledOrder) (source : PriceSource) (hsymbol : symbol ≠ "") :
    SymbolSound orders (inferHoldingsFromOrders orders source) symbol ↔
      SymbolCovered orders symbol := by
  have hreport := find_inferHoldings orders source symbol
  have htotal := @total_codeLots (ordersOf orders symbol) [] oneSign_nil quantity_ne_of_mem
  rw [quantitySum_ordersOf, total_nil, zero_add] at htotal
  rw [lotsOf_positionsOf orders hsymbol, htotal] at hreport
  have hdust : (0 : ℚ) < dust := by
    unfold dust
    positivity
  unfold SymbolSound SymbolCovered
  by_cases hzero : signedSum orders symbol = 0
  · rw [if_pos hzero]
    rw [hzero, zero_sub, abs_neg] at hreport
    cases hfind : find Holding.symbol (inferHoldingsFromOrders orders source) symbol with
    | none =>
      rw [hfind] at hreport
      exact iff_of_true hzero hreport
    | some holding =>
      rw [hfind] at hreport
      exact iff_of_false (fun hsound => hsound.1 hzero) hreport.1.not_ge
  · rw [if_neg hzero, ← dropped_eq_zero_iff]
    cases hfind : find Holding.symbol (inferHoldingsFromOrders orders source) symbol with
    | none =>
      rw [hfind] at hreport
      refine iff_of_false hzero ?_
      rintro ⟨hdropped, habove⟩
      rw [hdropped, sub_zero] at hreport
      exact habove.not_ge hreport
    | some holding =>
      rw [hfind] at hreport
      obtain ⟨habove, hquantity, haverage⟩ := hreport
      constructor
      · rintro ⟨_, hsum, _⟩
        have hdropped : dropped 0 (ordersOf orders symbol) = 0 := by
          rw [hquantity] at hsum
          linarith
        rw [hdropped, sub_zero] at habove
        exact ⟨hdropped, habove⟩
      · rintro ⟨hdropped, _⟩
        rw [hdropped, sub_zero] at hquantity haverage htotal
        have hcovered := (dropped_eq_zero_iff _ _).mp hdropped
        have hlots := codeLots_eq oneSign_nil quantity_ne_of_mem hcovered
        refine ⟨hzero, hquantity, ?_⟩
        rw [haverage, ← htotal,
          averageOf_eq (oneSign_codeLots oneSign_nil quantity_ne_of_mem) (by rw [htotal]; exact hzero),
          hlots]
        rfl

/-- The holdings agree with the signed sums and FIFO matching exactly when no symbol drops a sell
or has a sum that is dust. -/
theorem holdings_sound_iff (orders : List FilledOrder) (source : PriceSource) :
    HoldingsSound orders (inferHoldingsFromOrders orders source) ↔
      ∀ symbol, symbol ≠ "" → SymbolCovered orders symbol := by
  constructor
  · intro h symbol hsymbol
    exact (symbolSound_iff orders source hsymbol).mp (h.symbols symbol hsymbol)
  · intro h
    constructor
    · exact (unique_positionsOf orders).filterMap holding?_symbol
    · intro symbol hsymbol
      exact (symbolSound_iff orders source hsymbol).mpr (h symbol hsymbol)

def shortOrders : List FilledOrder :=
  [{ symbol := "SPY", quantity := -5, price := 10, time := 1 },
    { symbol := "SPY", quantity := -5, price := 12, time := 2 }]

def noPrices : PriceSource where
  series := []
  bySymbol := fun _ => none
  loader := none

/-- The second sell adds to a short position, and is lost. -/
theorem shortOrders_unsound :
    ¬ HoldingsSound shortOrders (inferHoldingsFromOrders shortOrders noPrices) := by
  rw [holdings_sound_iff]
  intro h
  have hcovered := h "SPY" (by decide)
  have hnot : ¬ SymbolCovered shortOrders "SPY" := by decide +kernel
  exact hnot hcovered

end LocalPlatform.Backtest.Holdings
