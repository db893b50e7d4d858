import LocalPlatform.Lib.Dates
import LocalPlatform.Lib.Hysteresis
import LocalPlatform.Lib.Neighbours
import LocalPlatform.Lib.Rows
import Mathlib.Data.Prod.Lex
import Mathlib.Algebra.Order.Field.Rat
import Mathlib.Data.String.Basic

/-!
# The main contract of a futures product

`main_contract` picks the contract with the largest open interest (or volume) among the latest bars
up to a date, and `refresh_main_mapping` follows it over the bar dates of a range.

* `mainContract` and `heldContracts` are the two computations, and `mapping` the entries that are
  written: what is held on a date without a bar of it is left out.
* `mapping_causal`: the entries up to a date depend on nothing that comes after it.
* `mapping_admissible`: a mapped contract has a bar and has not expired.
* `heldContracts_due`: what is held changes when it is near its expiry, has no bar, or another
  contract has been the main one for long enough.  `mapping_skips_hold`: a contract can be held, and
  given up, on dates that are left out between two entries.
* A date is the number of its day; the rows of a rule are those that `set_main_rule` writes.
-/

namespace LocalPlatform.Futures

open Dates Hysteresis Tables

/-! ## The tables -/

structure Contract (δ : Type) where
  code : String
  product : String
  exchange : String
  multiplier : Option ℚ
  marginRate : Option ℚ
  tickSize : Option ℚ
  listedDate : Option δ
  lastTradeDate : Option δ
  deriving DecidableEq

structure Bar (δ : Type) where
  contractCode : String
  tradeDate : δ
  openPrice : Option ℚ
  close : Option ℚ
  volume : Option ℚ
  openInterest : Option ℚ
  source : String
  createdAt : ℕ
  deriving DecidableEq

inductive RuleType where
  | openInterest
  | volume
  deriving DecidableEq

structure MainRule where
  product : String
  exchange : Option String
  ruleType : RuleType
  rollDaysBeforeExpiry : ℕ
  minOpenInterestDays : ℕ
  updatedAt : ℕ
  deriving DecidableEq

/-- `set_main_rule` -/
def setMainRule (product exchange : String) (ruleType : RuleType)
    (rollDaysBeforeExpiry minOpenInterestDays : ℤ) (now : ℕ) : MainRule :=
  { product := product
    exchange := some exchange
    ruleType := ruleType
    rollDaysBeforeExpiry := (max 0 rollDaysBeforeExpiry).toNat
    minOpenInterestDays := (max 1 minOpenInterestDays).toNat
    updatedAt := now }

/-- The tables; the code of a contract is its primary key. -/
structure Market where
  contracts : List (Contract ℤ)
  bars : List (Bar ℤ)
  rules : List MainRule
  codes : Unique Contract.code contracts

/-- `_rule_for`: the rule of the exchange, else the latest of the product, else the default. -/
def ruleFor (rules : List MainRule) (product : String) (exchange : Option String) : MainRule :=
  let own := exchange.bind (fun exchange =>
    rules.find? (fun rule => rule.product = product ∧ rule.exchange = some exchange))
  let latest := (orderBy (fun rule => OrderDual.toDual rule.updatedAt)
    (rules.filter (fun rule => rule.product = product))).head?
  (own.or latest).getD
    { product := product, exchange := exchange, ruleType := .openInterest,
      rollDaysBeforeExpiry := 0, minOpenInterestDays := 1, updatedAt := 0 }

/-! ## The main contract -/

/-- The contracts that a query of a product selects, on one exchange or on any. -/
def Contract.Of {δ : Type} (product : String) (exchange : Option String) (contract : Contract δ) :
    Prop :=
  contract.product = product ∧ ∀ name ∈ exchange, contract.exchange = name

instance {δ : Type} (product : String) (exchange : Option String) (contract : Contract δ) :
    Decidable (contract.Of product exchange) := inferInstanceAs (Decidable (_ ∧ _))

/-- Listed, and not within the roll days of its expiry. -/
def Contract.Tradable (rule : MainRule) (asOf : ℤ) (contract : Contract ℤ) : Prop :=
  (∀ listed ∈ contract.listedDate, listed ≤ asOf) ∧
    ∀ last ∈ contract.lastTradeDate, asOf + rule.rollDaysBeforeExpiry ≤ last

instance (rule : MainRule) (asOf : ℤ) (contract : Contract ℤ) :
    Decidable (contract.Tradable rule asOf) := inferInstanceAs (Decidable (_ ∧ _))

def barsUpTo (bars : List (Bar ℤ)) (code : String) (asOf : ℤ) : List (Bar ℤ) :=
  bars.filter (fun bar => bar.contractCode = code ∧ bar.tradeDate ≤ asOf)

/-- The bars of a contract on the latest of its dates. -/
def latestBars (bars : List (Bar ℤ)) (code : String) (asOf : ℤ) : List (Bar ℤ) :=
  (barsUpTo bars code asOf).filter
    (fun bar => ∀ other ∈ barsUpTo bars code asOf, other.tradeDate ≤ bar.tradeDate)

/-- A contract with one of its latest bars. -/
structure Candidate where
  contract : Contract ℤ
  bar : Bar ℤ
  deriving DecidableEq

def candidates (market : Market) (product : String) (exchange : Option String) (asOf : ℤ) :
    List Candidate :=
  (market.contracts.filter (fun contract => contract.Of product exchange ∧
    contract.Tradable (ruleFor market.rules product exchange) asOf)).flatMap
      (fun contract => (latestBars market.bars contract.code asOf).map (Candidate.mk contract))

/-- What the candidates are sorted by. -/
def Candidate.key (ruleType : RuleType) (candidate : Candidate) : ℚ ×ₗ ℚ ×ₗ String :=
  let volume := candidate.bar.volume.getD 0
  let first := match ruleType with
    | .volume => volume
    | .openInterest => candidate.bar.openInterest.getD 0
  toLex (first, toLex (volume, candidate.contract.code))

/-- `main_contract`: the first in descending order. -/
def mainContract (market : Market) (product : String) (exchange : Option String) (asOf : ℤ) :
    Option Candidate :=
  (orderBy (fun candidate => OrderDual.toDual
    (candidate.key (ruleFor market.rules product exchange).ruleType))
      (candidates market product exchange asOf)).head?

/-! ## The mapping -/

structure Request where
  product : String
  exchange : Option String
  startDate : ℤ
  endDate : ℤ
  deriving DecidableEq

section Mapping

variable (market : Market) (request : Request)

def Request.rule : MainRule := ruleFor market.rules request.product request.exchange

/-- A bar of a contract of the product in the range. -/
def HasBar (exchange : Option String) (date : ℤ) (code : String) : Prop :=
  request.startDate ≤ date ∧ date ≤ request.endDate ∧
    ∃ bar ∈ market.bars, bar.tradeDate = date ∧ bar.contractCode = code ∧
      ∃ contract ∈ market.contracts, contract.code = code ∧
        contract.Of request.product exchange

instance (exchange : Option String) (date : ℤ) (code : String) :
    Decidable (HasBar market request exchange date code) := inferInstanceAs (Decidable (_ ∧ _))

/-- The dates in the range with a bar of the product, in order. -/
def barDates : List ℤ :=
  ascending ((market.bars.filter (fun bar =>
    HasBar market request request.exchange bar.tradeDate bar.contractCode)).map Bar.tradeDate)

def mainCode (date : ℤ) : Option String :=
  (mainContract market request.product request.exchange date).map (fun main => main.contract.code)

/-- The dates with a main contract, and its code. -/
def mainDays : List (ℤ × String) :=
  (barDates market request).filterMap (fun date => (mainCode market request date).map (date, ·))

/-- The contract expires within the roll days. -/
def NearExpiry (date : ℤ) (code : String) : Prop :=
  ∃ contract ∈ market.contracts.find? (fun contract =>
      contract.product = request.product ∧ contract.code = code),
    ∃ last ∈ contract.lastTradeDate,
      last ≤ date + (request.rule market).rollDaysBeforeExpiry

instance (date : ℤ) (code : String) : Decidable (NearExpiry market request date code) :=
  inferInstanceAs (Decidable (∃ contract ∈ _, _))

/-- The held contract is given up for the main one at once. -/
def forced (date : ℤ) (code : String) : Bool :=
  NearExpiry market request date code ∨ ¬ HasBar market request none date code

def Request.minDays : ℕ := max 1 (request.rule market).minOpenInterestDays

/-- The contract that is held on each date with a main contract. -/
def heldContracts : List (ℤ × String) :=
  heldDays (request.minDays market) (forced market request) none (mainDays market request)

/-- The entries of the mapping: the held contracts with a bar that day. -/
def mapping : List (ℤ × String) :=
  (heldContracts market request).filter
    (fun entry => HasBar market request none entry.1 entry.2)

end Mapping

/-! ## Which contracts are candidates -/

section Candidates

variable {market other : Market} {product : String} {exchange : Option String} {asOf t : ℤ}

/-- The contract of a code can be the main one: it is tradable and has had a bar. -/
structure Eligible (market : Market) (product : String) (exchange : Option String) (asOf : ℤ)
    (contract : Contract ℤ) : Prop where
  mem : contract ∈ market.contracts
  own : contract.Of product exchange
  tradable : contract.Tradable (ruleFor market.rules product exchange) asOf
  bar : ∃ bar ∈ market.bars, bar.contractCode = contract.code ∧ bar.tradeDate ≤ asOf

variable {bars : List (Bar ℤ)} {code : String}

theorem mem_latestBars {bar : Bar ℤ} :
    bar ∈ latestBars bars code asOf ↔ bar ∈ barsUpTo bars code asOf ∧
      ∀ other ∈ barsUpTo bars code asOf, other.tradeDate ≤ bar.tradeDate := by
  simp [latestBars]

theorem mem_barsUpTo {bar : Bar ℤ} :
    bar ∈ barsUpTo bars code asOf ↔
      bar ∈ bars ∧ bar.contractCode = code ∧ bar.tradeDate ≤ asOf := by
  simp [barsUpTo]

theorem latestBars_ne_nil (h : ∃ bar ∈ bars, bar.contractCode = code ∧ bar.tradeDate ≤ asOf) :
    latestBars bars code asOf ≠ [] := by
  obtain ⟨bar, hbar, hcode⟩ := h
  have hne : (barsUpTo bars code asOf).map Bar.tradeDate ≠ [] := by
    intro hnil
    have hmem := List.mem_map_of_mem (f := Bar.tradeDate) (mem_barsUpTo.mpr ⟨hbar, hcode⟩)
    rw [hnil] at hmem
    cases hmem
  obtain ⟨latest, hlatest, hmax⟩ := Neighbours.exists_greatest hne
  obtain ⟨found, hfound, heq⟩ := List.mem_map.mp hlatest
  apply List.ne_nil_of_mem (a := found)
  refine mem_latestBars.mpr ⟨hfound, ?_⟩
  intro older holder
  rw [heq]
  exact hmax _ (List.mem_map_of_mem holder)

variable {candidate : Candidate}

theorem mem_candidates :
    candidate ∈ candidates market product exchange asOf ↔
      (candidate.contract ∈ market.contracts ∧ candidate.contract.Of product exchange ∧
        candidate.contract.Tradable (ruleFor market.rules product exchange) asOf) ∧
      candidate.bar ∈ latestBars market.bars candidate.contract.code asOf := by
  unfold candidates
  simp only [List.mem_flatMap, List.mem_filter, decide_eq_true_eq, List.mem_map]
  constructor
  · rintro ⟨contract, hcontract, bar, hbar, heq⟩
    rw [← heq]
    exact ⟨hcontract, hbar⟩
  · rintro ⟨hcontract, hbar⟩
    exact ⟨candidate.contract, hcontract, candidate.bar, hbar, rfl⟩

theorem eligible_of_mem (h : candidate ∈ candidates market product exchange asOf) :
    Eligible market product exchange asOf candidate.contract := by
  obtain ⟨hcontract, hbar⟩ := mem_candidates.mp h
  have hupTo := mem_barsUpTo.mp (mem_latestBars.mp hbar).1
  exact ⟨hcontract.1, hcontract.2.1, hcontract.2.2, candidate.bar, hupTo⟩

theorem mainContract_spec {main : Candidate} (h : mainContract market product exchange asOf = some main) :
    main ∈ candidates market product exchange asOf ∧
      ∀ candidate ∈ candidates market product exchange asOf,
        candidate.key (ruleFor market.rules product exchange).ruleType ≤
          main.key (ruleFor market.rules product exchange).ruleType :=
  le_of_head?_orderBy h

theorem mainContract_ne_none {contract : Contract ℤ}
    (h : Eligible market product exchange asOf contract) :
    mainContract market product exchange asOf ≠ none := by
  intro hnone
  have hnil : candidates market product exchange asOf = [] := by
    have hperm := orderBy_perm (fun candidate => OrderDual.toDual
      (candidate.key (ruleFor market.rules product exchange).ruleType))
      (candidates market product exchange asOf)
    rw [List.head?_eq_none_iff.mp hnone] at hperm
    exact hperm.nil_eq.symm
  obtain ⟨bar, hbar⟩ := List.exists_mem_of_ne_nil _ (latestBars_ne_nil h.bar)
  have hmem : Candidate.mk contract bar ∈ candidates market product exchange asOf :=
    mem_candidates.mpr ⟨⟨h.mem, h.own, h.tradable⟩, hbar⟩
  rw [hnil] at hmem
  cases hmem

theorem key_code {a b : Candidate} {ruleType : RuleType} (h : a.key ruleType = b.key ruleType) :
    a.contract.code = b.contract.code := by
  have hrest := congrArg (fun key => (ofLex key).2) h
  exact congrArg (fun key => (ofLex key).2) hrest

/-- The two markets have the same contracts, rules and bars up to a date. -/
structure SamePast (market other : Market) (t : ℤ) : Prop where
  contracts : market.contracts = other.contracts
  rules : market.rules = other.rules
  bars : ∀ bar : Bar ℤ, bar.tradeDate ≤ t → (bar ∈ market.bars ↔ bar ∈ other.bars)

theorem SamePast.symm (h : SamePast market other t) : SamePast other market t :=
  ⟨h.contracts.symm, h.rules.symm, fun bar hbar => (h.bars bar hbar).symm⟩

theorem SamePast.mem_candidates (h : SamePast market other t) (hasOf : asOf ≤ t) :
    candidate ∈ candidates market product exchange asOf ↔
      candidate ∈ candidates other product exchange asOf := by
  have hupTo : ∀ code bar, bar ∈ barsUpTo market.bars code asOf ↔
      bar ∈ barsUpTo other.bars code asOf := by
    intro code bar
    rw [mem_barsUpTo, mem_barsUpTo]
    constructor
    · rintro ⟨hbar, hcode, hdate⟩
      exact ⟨(h.bars bar (hdate.trans hasOf)).mp hbar, hcode, hdate⟩
    · rintro ⟨hbar, hcode, hdate⟩
      exact ⟨(h.bars bar (hdate.trans hasOf)).mpr hbar, hcode, hdate⟩
  rw [Futures.mem_candidates, Futures.mem_candidates, h.contracts, h.rules, mem_latestBars,
    mem_latestBars]
  simp only [hupTo]

theorem SamePast.mainCode_of (h : SamePast market other t) (hasOf : asOf ≤ t) {main : Candidate}
    (hmain : mainContract market product exchange asOf = some main) :
    ∃ same, mainContract other product exchange asOf = some same ∧
      same.contract.code = main.contract.code := by
  have hspec := mainContract_spec hmain
  have hmem := (h.mem_candidates hasOf).mp hspec.1
  cases hother : mainContract other product exchange asOf with
  | none => exact absurd hother (mainContract_ne_none (eligible_of_mem hmem))
  | some same =>
    have hsame := mainContract_spec hother
    have hle := hspec.2 same ((h.mem_candidates hasOf).mpr hsame.1)
    have hge := hsame.2 main hmem
    rw [← h.rules] at hge
    exact ⟨same, rfl, key_code (le_antisymm hle hge)⟩

theorem SamePast.mainContract_code (h : SamePast market other t) (hasOf : asOf ≤ t) :
    (mainContract market product exchange asOf).map (fun main => main.contract.code) =
      (mainContract other product exchange asOf).map (fun main => main.contract.code) := by
  cases hmain : mainContract market product exchange asOf with
  | none =>
    cases hother : mainContract other product exchange asOf with
    | none => rfl
    | some same =>
      obtain ⟨main, hfound, _⟩ := h.symm.mainCode_of hasOf hother
      rw [hfound] at hmain
      cases hmain
  | some main =>
    obtain ⟨same, hsame, hcode⟩ := h.mainCode_of hasOf hmain
    rw [hsame]
    exact congrArg some hcode.symm

end Candidates

/-! ## The days of the loop -/

section Days

variable {market other : Market} {request : Request} {t : ℤ} {date : ℤ}

theorem mem_barDates : date ∈ barDates market request ↔
    ∃ bar ∈ market.bars, bar.tradeDate = date ∧
      HasBar market request request.exchange date bar.contractCode := by
  unfold barDates
  rw [mem_ascending, List.mem_map]
  constructor
  · rintro ⟨bar, hbar, hdate⟩
    have hkept := List.mem_filter.mp hbar
    have hhas := of_decide_eq_true hkept.2
    rw [hdate] at hhas
    exact ⟨bar, hkept.1, hdate, hhas⟩
  · rintro ⟨bar, hbar, hdate, hhas⟩
    rw [← hdate] at hhas
    exact ⟨bar, List.mem_filter.mpr ⟨hbar, decide_eq_true hhas⟩, hdate⟩

theorem sorted_barDates (market : Market) (request : Request) :
    (barDates market request).Pairwise (· < ·) := sorted_ascending _

theorem mem_mainDays {code : String} : (date, code) ∈ mainDays market request ↔
    date ∈ barDates market request ∧ mainCode market request date = some code := by
  unfold mainDays
  rw [List.mem_filterMap]
  constructor
  · rintro ⟨day, hday, hmap⟩
    obtain ⟨found, hfound, heq⟩ := Option.map_eq_some_iff.mp hmap
    obtain ⟨hdate, hcode⟩ := Prod.mk.inj heq
    rw [← hdate, ← hcode]
    exact ⟨hday, hfound⟩
  · rintro ⟨hdate, hcode⟩
    exact ⟨date, hdate, by rw [hcode]; rfl⟩

def mainDaysOf (market : Market) (request : Request) (dates : List ℤ) : List (ℤ × String) :=
  dates.filterMap (fun date => (mainCode market request date).map (date, ·))

theorem fst_of_mem_mainDaysOf {dates : List ℤ} {day : ℤ × String}
    (h : day ∈ mainDaysOf market request dates) : day.1 ∈ dates := by
  obtain ⟨date, hdate, hmap⟩ := List.mem_filterMap.mp h
  obtain ⟨code, _, heq⟩ := Option.map_eq_some_iff.mp hmap
  rw [← heq]
  exact hdate

theorem mainDays_split (market : Market) (request : Request) (t : ℤ) :
    mainDays market request =
      mainDaysOf market request ((barDates market request).filter (fun date => date ≤ t)) ++
        mainDaysOf market request ((barDates market request).filter (fun date => t < date)) := by
  have hsplit := @split_sorted ℤ _ ℤ id _ (sorted_barDates market request) t
  unfold mainDays
  conv_lhs => rw [hsplit]
  rw [List.filterMap_append]
  rfl

/-! ## Causality -/

variable {endDate : ℤ}

theorem SamePast.hasBar (h : SamePast market other t) (hdate : date ≤ t)
    (hend : t ≤ request.endDate) (hother : t ≤ endDate) (exchange : Option String) (code : String) :
    HasBar market request exchange date code ↔
      HasBar other { request with endDate := endDate } exchange date code := by
  unfold HasBar
  rw [h.contracts]
  constructor
  · rintro ⟨hstart, _, bar, hbar, htrade, hrest⟩
    have hsame := (h.bars bar (htrade.le.trans hdate)).mp hbar
    exact ⟨hstart, hdate.trans hother, bar, hsame, htrade, hrest⟩
  · rintro ⟨hstart, _, bar, hbar, htrade, hrest⟩
    have hsame := (h.bars bar (htrade.le.trans hdate)).mpr hbar
    exact ⟨hstart, hdate.trans hend, bar, hsame, htrade, hrest⟩

theorem SamePast.barDates (h : SamePast market other t) (hend : t ≤ request.endDate)
    (hother : t ≤ endDate) :
    (Futures.barDates market request).filter (fun date => date ≤ t) =
      (Futures.barDates other { request with endDate := endDate }).filter
        (fun date => date ≤ t) := by
  apply eq_of_sorted ((sorted_barDates _ _).filter _) ((sorted_barDates _ _).filter _)
  intro date
  simp only [List.mem_filter, decide_eq_true_eq, mem_barDates]
  constructor
  · rintro ⟨⟨bar, hbar, htrade, hhas⟩, hdate⟩
    exact ⟨⟨bar, (h.bars bar (htrade.le.trans hdate)).mp hbar, htrade,
      (h.hasBar hdate hend hother _ _).mp hhas⟩, hdate⟩
  · rintro ⟨⟨bar, hbar, htrade, hhas⟩, hdate⟩
    exact ⟨⟨bar, (h.bars bar (htrade.le.trans hdate)).mpr hbar, htrade,
      (h.hasBar hdate hend hother _ _).mpr hhas⟩, hdate⟩

theorem SamePast.forced (h : SamePast market other t) (hdate : date ≤ t)
    (hend : t ≤ request.endDate) (hother : t ≤ endDate) :
    Futures.forced market request date =
      Futures.forced other { request with endDate := endDate } date := by
  funext code
  have hnear : NearExpiry market request date code ↔
      NearExpiry other { request with endDate := endDate } date code := by
    unfold NearExpiry Request.rule
    rw [h.contracts, h.rules]
  have hhas : HasBar market request none date code ↔
      HasBar other { request with endDate := endDate } none date code :=
    h.hasBar hdate hend hother none code
  unfold Futures.forced
  simp only [hnear, hhas]

theorem mapping_upTo (market : Market) (request : Request) (t : ℤ) :
    (mapping market request).filter (fun entry => entry.1 ≤ t) =
      (heldDays (request.minDays market) (forced market request) none
        (mainDaysOf market request ((barDates market request).filter (fun date => date ≤ t)))).filter
          (fun entry => HasBar market request none entry.1 entry.2) := by
  obtain ⟨hold, hheld⟩ := @heldDays_append _ _ _ (request.minDays market) (forced market request)
    (mainDaysOf market request ((barDates market request).filter (fun date => date ≤ t)))
    (mainDaysOf market request ((barDates market request).filter (fun date => t < date))) none
  unfold mapping heldContracts
  rw [mainDays_split market request t, hheld, List.filter_append, List.filter_append]
  have hdates : ∀ {hold : Option (Hold String)} {dates : List ℤ} {entry : ℤ × String},
      entry ∈ heldDays (request.minDays market) (forced market request) hold
        (mainDaysOf market request dates) → entry.1 ∈ dates := by
    intro hold dates entry hentry
    have hmem := List.mem_map_of_mem (f := Prod.fst) hentry
    rw [heldDays_dates] at hmem
    obtain ⟨day, hday, hfst⟩ := List.mem_map.mp hmem
    rw [← hfst]
    exact fst_of_mem_mainDaysOf hday
  have hearly : ∀ entry ∈ (heldDays (request.minDays market) (forced market request) none
      (mainDaysOf market request ((barDates market request).filter (fun date => date ≤ t)))).filter
        (fun entry => HasBar market request none entry.1 entry.2), decide (entry.1 ≤ t) = true := by
    intro entry hentry
    exact (List.mem_filter.mp (hdates (List.mem_of_mem_filter hentry))).2
  have hlate : ((heldDays (request.minDays market) (forced market request) hold
      (mainDaysOf market request ((barDates market request).filter (fun date => t < date)))).filter
        (fun entry => HasBar market request none entry.1 entry.2)).filter
          (fun entry => entry.1 ≤ t) = [] := by
    rw [List.filter_eq_nil_iff]
    intro entry hentry hle
    have hlt := of_decide_eq_true
      (List.mem_filter.mp (hdates (List.mem_of_mem_filter hentry))).2
    exact absurd (of_decide_eq_true hle) (not_le.mpr hlt)
  rw [List.filter_eq_self.mpr hearly, hlate, List.append_nil]

theorem SamePast.mapping (h : SamePast market other t) (hend : t ≤ request.endDate)
    (hother : t ≤ endDate) :
    (Futures.mapping market request).filter (fun entry => entry.1 ≤ t) =
      (Futures.mapping other { request with endDate := endDate }).filter
        (fun entry => entry.1 ≤ t) := by
  have hdays : mainDaysOf market request
        ((Futures.barDates market request).filter (fun date => date ≤ t)) =
      mainDaysOf other { request with endDate := endDate }
        ((Futures.barDates other { request with endDate := endDate }).filter
          (fun date => date ≤ t)) := by
    rw [← h.barDates hend hother]
    apply List.filterMap_congr
    intro date hdate
    have hle := of_decide_eq_true (List.mem_filter.mp hdate).2
    unfold mainCode
    rw [h.mainContract_code hle]
  have hearly : ∀ day ∈ mainDaysOf market request
      ((Futures.barDates market request).filter (fun date => date ≤ t)), day.1 ≤ t := by
    intro day hday
    exact of_decide_eq_true (List.mem_filter.mp (fst_of_mem_mainDaysOf hday)).2
  have hmin : request.minDays market =
      Request.minDays other { request with endDate := endDate } := by
    unfold Request.minDays Request.rule
    rw [h.rules]
  rw [mapping_upTo, mapping_upTo, ← hdays, ← hmin,
    heldDays_congr _ none (fun day hday => h.forced (hearly day hday) hend hother)]
  apply List.filter_congr
  intro entry hentry
  have hmem := List.mem_map_of_mem (f := Prod.fst) hentry
  rw [heldDays_dates] at hmem
  obtain ⟨day, hday, hfst⟩ := List.mem_map.mp hmem
  have hle : entry.1 ≤ t := by
    rw [← hfst]
    exact hearly day hday
  exact decide_eq_decide.mpr (h.hasBar hle hend hother none entry.2)

end Days

/-! ## What the mapping promises -/

section Sound

variable {market : Market} {request : Request}

/-- The contract has been the main one on the last `minDays` bar dates. -/
def MainFor (market : Market) (request : Request) (date : ℤ) (code : String) : Prop :=
  let recent := (((barDates market request).filter (fun day => day ≤ date)).reverse).take
    (request.minDays market)
  recent.length = request.minDays market ∧
    ∀ day ∈ recent, mainCode market request day = some code

instance (market : Market) (request : Request) (date : ℤ) (code : String) :
    Decidable (MainFor market request date code) := inferInstanceAs (Decidable (_ ∧ _))

/-- The contract changes only when the old one is near its expiry or has no bar, or when the new
one has been the main one for long enough. -/
def SwitchDue (market : Market) (request : Request) (old new : ℤ × String) : Prop :=
  old.2 ≠ new.2 → (NearExpiry market request new.1 old.2 ∨
    ¬ HasBar market request none new.1 old.2) ∨ MainFor market request new.1 new.2

instance (market : Market) (request : Request) (old new : ℤ × String) :
    Decidable (SwitchDue market request old new) := inferInstanceAs (Decidable (_ → _))

theorem find_contract {contract : Contract ℤ} (hmem : contract ∈ market.contracts)
    (hproduct : contract.product = request.product) :
    market.contracts.find? (fun other => other.product = request.product ∧
      other.code = contract.code) = some contract := by
  cases hfind : market.contracts.find? (fun other => other.product = request.product ∧
      other.code = contract.code) with
  | none =>
    have hnone := List.find?_eq_none.mp hfind contract hmem
    simp [hproduct] at hnone
  | some found =>
    have hfound : found.product = request.product ∧ found.code = contract.code := by
      simpa using List.find?_some hfind
    have hsame := Unique.eq market.codes (List.mem_of_find?_eq_some hfind) hmem hfound.2
    rw [hsame]

variable {code : String}

theorem eligible_of_mainCode {date : ℤ} (h : mainCode market request date = some code) :
    ∃ contract, contract.code = code ∧
      Eligible market request.product request.exchange date contract := by
  obtain ⟨main, hmain, hcode⟩ := Option.map_eq_some_iff.mp h
  exact ⟨main.contract, hcode, eligible_of_mem (mainContract_spec hmain).1⟩

theorem mainCode_between {early date late : ℤ} (hearly : early ≤ date) (hlate : date ≤ late)
    (hmain : mainCode market request early = some code)
    (hagain : mainCode market request late = some code) : mainCode market request date ≠ none := by
  obtain ⟨contract, hcode, heligible⟩ := eligible_of_mainCode hmain
  obtain ⟨other, hother, hlater⟩ := eligible_of_mainCode hagain
  have hsame := Unique.eq market.codes hlater.mem heligible.mem (hother.trans hcode.symm)
  rw [hsame] at hlater
  have hdate : Eligible market request.product request.exchange date contract := by
    refine ⟨heligible.mem, heligible.own, ⟨?_, ?_⟩, ?_⟩
    · intro listed hlisted
      exact (heligible.tradable.1 listed hlisted).trans hearly
    · intro last hlast
      have hlimit := hlater.tradable.2 last hlast
      omega
    · obtain ⟨bar, hbar, hown, hle⟩ := heligible.bar
      exact ⟨bar, hbar, hown, hle.trans hearly⟩
  intro hnone
  exact mainContract_ne_none hdate (Option.map_eq_none_iff.mp hnone)

theorem sorted_mainDays (market : Market) (request : Request) :
    (mainDays market request).Pairwise (fun a b => a.1 < b.1) := by
  unfold mainDays
  apply (sorted_barDates market request).filterMap
  intro a b hlt day hday later hlater
  obtain ⟨code, _, hfirst⟩ := Option.map_eq_some_iff.mp hday
  obtain ⟨next, _, hsecond⟩ := Option.map_eq_some_iff.mp hlater
  rw [← hfirst, ← hsecond]
  exact hlt

theorem mainDays_upTo {seen rest : List (ℤ × String)} {day : ℤ × String}
    (h : mainDays market request = seen.reverse ++ day :: rest) :
    mainDaysOf market request (((barDates market request).filter
      (fun date => date ≤ day.1)).reverse) = day :: seen := by
  have hsorted := sorted_mainDays market request
  rw [h, List.pairwise_append] at hsorted
  have hfilter : mainDaysOf market request ((barDates market request).filter
      (fun date => date ≤ day.1)) =
        (mainDays market request).filter (fun entry => entry.1 ≤ day.1) := by
    rw [mainDays_split market request day.1, List.filter_append]
    have hearly : ∀ entry ∈ mainDaysOf market request ((barDates market request).filter
        (fun date => date ≤ day.1)), decide (entry.1 ≤ day.1) = true :=
      fun entry hentry => (List.mem_filter.mp (fst_of_mem_mainDaysOf hentry)).2
    have hlate : (mainDaysOf market request ((barDates market request).filter
        (fun date => day.1 < date))).filter (fun entry => entry.1 ≤ day.1) = [] := by
      rw [List.filter_eq_nil_iff]
      intro entry hentry hle
      have hlt := of_decide_eq_true (List.mem_filter.mp (fst_of_mem_mainDaysOf hentry)).2
      exact absurd (of_decide_eq_true hle) (not_le.mpr hlt)
    rw [List.filter_eq_self.mpr hearly, hlate, List.append_nil]
  have hseen : ∀ entry ∈ seen.reverse, decide (entry.1 ≤ day.1) = true :=
    fun entry hentry => decide_eq_true (hsorted.2.2 entry hentry day List.mem_cons_self).le
  have hrest : rest.filter (fun entry => entry.1 ≤ day.1) = [] := by
    rw [List.filter_eq_nil_iff]
    intro entry hentry hle
    have hlt := (List.pairwise_cons.mp hsorted.2.1).1 entry hentry
    exact absurd (of_decide_eq_true hle) (not_le.mpr hlt)
  unfold mainDaysOf at hfilter ⊢
  rw [List.filterMap_reverse, hfilter, h, List.filter_append, List.filter_eq_self.mpr hseen,
    List.filter_cons_of_pos (by simp), hrest]
  simp

theorem mainFor_of_lasts (market : Market) (request : Request) :
    Reason (request.minDays market) (MainFor market request) (mainDays market request) := by
  intro seen day rest hsplit hlasts
  have hdays := mainDays_upTo hsplit
  rw [← hdays] at hlasts
  have hmem : (day.1, day.2) ∈ mainDays market request := by
    rw [hsplit]
    simp
  have hday := mem_mainDays.mp hmem
  have hsorted : (((barDates market request).filter (fun date => date ≤ day.1)).reverse).Pairwise
      (fun a b => b < a) :=
    List.pairwise_reverse.mpr ((sorted_barDates market request).filter _)
  have hlong := lasts_filterMap ?_ ?_ hlasts
  · exact ⟨List.length_take_of_le hlong.1, hlong.2⟩
  · intro late date early hsub hlate hearly
    have horder := hsorted.sublist hsub
    simp only [List.pairwise_cons, List.mem_cons, List.not_mem_nil, or_false, forall_eq_or_imp,
      forall_eq] at horder
    exact mainCode_between horder.2.1.le horder.1.1.le hearly hlate
  · intro latest hlatest
    -- the latest bar date up to the day is the day
    have hhead : ((barDates market request).filter (fun date => date ≤ day.1)).reverse.head? =
        some day.1 := by
      obtain ⟨older, holder⟩ := List.head?_eq_some_iff.mp hlatest
      have hin : day.1 ∈ ((barDates market request).filter (fun date => date ≤ day.1)).reverse := by
        simp [hday.1]
      have hle : latest ≤ day.1 := by
        have hself : latest ∈ ((barDates market request).filter
            (fun date => date ≤ day.1)).reverse := by simp [holder]
        simpa using (List.mem_filter.mp (List.mem_reverse.mp hself)).2
      rw [holder] at hin hsorted ⊢
      cases List.mem_cons.mp hin with
      | inl heq => rw [heq]; rfl
      | inr hmore =>
        have hlt := (List.pairwise_cons.mp hsorted).1 _ hmore
        exact absurd hle (not_le.mpr hlt)
    rw [hhead] at hlatest
    rw [← Option.some.inj hlatest]
    exact hday.2

theorem heldContracts_due (market : Market) (request : Request) :
    (heldContracts market request).IsChain (SwitchDue market request) := by
  have hchain := @heldDays_changes _ _ _ _ (forced market request) _ _
    (mainFor_of_lasts market request)
  apply hchain.imp
  intro old new hdue hchange
  cases hdue hchange with
  | inl hforced => exact .inl (of_decide_eq_true hforced)
  | inr hmain => exact .inr hmain

theorem mapping_admissible {date : ℤ} (h : (date, code) ∈ mapping market request) :
    (∃ bar ∈ market.bars, bar.tradeDate = date ∧ bar.contractCode = code) ∧
      ∀ contract ∈ market.contracts, contract.code = code →
        ∀ last ∈ contract.lastTradeDate, date ≤ last := by
  obtain ⟨hheld, hhas⟩ := List.mem_filter.mp h
  have hbar := of_decide_eq_true hhas
  obtain ⟨_, _, bar, hmem, hdate, hcode, own, hown, hcodes, hof⟩ := hbar
  have hsame : own.code = code := hcodes
  refine ⟨⟨bar, hmem, hdate, hcode⟩, ?_⟩
  intro contract hcontract hcontractCode last hlast
  have heq := Unique.eq market.codes hcontract hown (hcontractCode.trans hsame.symm)
  rw [heq] at hlast
  cases mem_heldDays _ _ hheld with
  | inl hmain =>
    obtain ⟨main, hmainCode, heligible⟩ := eligible_of_mainCode (mem_mainDays.mp hmain).2
    rw [← Unique.eq market.codes hown heligible.mem (hsame.trans hmainCode.symm)] at heligible
    have hlimit := heligible.tradable.2 last hlast
    omega
  | inr hkept =>
    have hnot : ¬ NearExpiry market request date code := by
      intro hnear
      have hforced : forced market request date code = true := decide_eq_true (.inl hnear)
      rw [hforced] at hkept
      cases hkept
    by_contra hpast
    apply hnot
    refine ⟨own, ?_, last, hlast, by omega⟩
    rw [← hsame]
    exact find_contract hown hof.1

end Sound

/-! ## The whole mapping -/

section Whole

/-- Every consecutive change of the mapping has a reason. -/
def MappedChangesDue (market : Market) (request : Request) : Prop :=
  (mapping market request).IsChain (SwitchDue market request)

instance (market : Market) (request : Request) : Decidable (MappedChangesDue market request) :=
  inferInstanceAs (Decidable (List.IsChain _ _))

theorem heldContracts_dates (market : Market) (request : Request) :
    (heldContracts market request).map Prod.fst = (mainDays market request).map Prod.fst :=
  heldDays_dates _ _

structure MappingSound (market : Market) (request : Request) : Prop where
  causal : ∀ other t endDate, SamePast market other t → t ≤ request.endDate → t ≤ endDate →
    (mapping market request).filter (fun entry => entry.1 ≤ t) =
      (mapping other { request with endDate := endDate }).filter (fun entry => entry.1 ≤ t)
  admissible : ∀ entry ∈ mapping market request,
    (∃ bar ∈ market.bars, bar.tradeDate = entry.1 ∧ bar.contractCode = entry.2) ∧
      ∀ contract ∈ market.contracts, contract.code = entry.2 →
        ∀ last ∈ contract.lastTradeDate, entry.1 ≤ last
  held : ∀ entry, entry ∈ mapping market request ↔
    entry ∈ heldContracts market request ∧ HasBar market request none entry.1 entry.2
  heldDates : (heldContracts market request).map Prod.fst = (mainDays market request).map Prod.fst
  heldDue : (heldContracts market request).IsChain (SwitchDue market request)
  adjacentDue : ∀ before old new after,
    mapping market request = before ++ old :: new :: after →
      (∀ day ∈ mainDays market request, ¬ (old.1 < day.1 ∧ day.1 < new.1)) →
        SwitchDue market request old new

theorem adjacent_due {market : Market} {request : Request} {before after : List (ℤ × String)}
    {old new : ℤ × String} (h : mapping market request = before ++ old :: new :: after)
    (hgap : ∀ day ∈ mainDays market request, ¬ (old.1 < day.1 ∧ day.1 < new.1)) :
    SwitchDue market request old new := by
  have hsorted : (heldContracts market request).Pairwise (fun a b => a.1 < b.1) := by
    have hmain := List.pairwise_map.mpr (sorted_mainDays market request)
    rw [← heldContracts_dates, List.pairwise_map] at hmain
    exact hmain
  obtain ⟨first, rest, hheld, hfirst, hrest⟩ := List.filter_eq_append_iff.mp h
  obtain ⟨gap, tail, hrestEq, hgapOut, hold, htail⟩ := List.filter_eq_cons_iff.mp hrest
  obtain ⟨skipped, last, htailEq, hskipped, hnew, hlast⟩ := List.filter_eq_cons_iff.mp htail
  rw [hrestEq, htailEq] at hheld
  have hnone : skipped = [] := by
    cases skipped with
    | nil => rfl
    | cons day skipped =>
      exfalso
      have hsub : [old, day, new].Sublist (heldContracts market request) := by
        rw [hheld]
        refine List.Sublist.trans ?_ (List.sublist_append_right first _)
        refine List.Sublist.trans ?_ (List.sublist_append_right gap _)
        apply List.Sublist.cons_cons
        apply List.Sublist.cons_cons
        exact List.singleton_sublist.mpr (List.mem_append_right _ List.mem_cons_self)
      have horder := hsorted.sublist hsub
      simp only [List.pairwise_cons, List.mem_cons, List.not_mem_nil, or_false,
        forall_eq_or_imp, forall_eq] at horder
      have hmem : day.1 ∈ (mainDays market request).map Prod.fst := by
        rw [← @heldDays_dates _ _ _ (request.minDays market) (forced market request)
          (mainDays market request) none]
        exact List.mem_map_of_mem (hsub.subset (by simp))
      obtain ⟨main, hmain, hdate⟩ := List.mem_map.mp hmem
      apply hgap main hmain
      rw [hdate]
      exact ⟨horder.1.1, horder.2.1⟩
  have hchain := heldContracts_due market request
  rw [hheld, hnone, List.nil_append] at hchain
  have hpair := (List.isChain_append.mp (List.isChain_append.mp hchain).2.1).2.1
  exact (List.isChain_cons_cons.mp hpair).1

theorem mapping_sound (market : Market) (request : Request) : MappingSound market request where
  causal := fun _ _ _ h hend hother => h.mapping hend hother
  admissible := fun _ hentry => mapping_admissible hentry
  held := by
    intro entry
    unfold mapping
    rw [List.mem_filter, decide_eq_true_eq]
  heldDates := heldContracts_dates market request
  heldDue := heldContracts_due market request
  adjacentDue := fun _ _ _ _ h hgap => adjacent_due h hgap

def soyContract (code : String) : Contract ℤ :=
  { code := code, product := "M", exchange := "DCE", multiplier := some 10, marginRate := none,
    tickSize := none, listedDate := none, lastTradeDate := none }

def soyBar (code : String) (tradeDate : ℤ) (openInterest : ℚ) : Bar ℤ :=
  { contractCode := code, tradeDate := tradeDate, openPrice := none, close := some 100,
    volume := some 100, openInterest := some openInterest, source := "unit", createdAt := 0 }

/-- The contract M2407 is the main one on days 2 and 3 through its bar of day 2; on day 4, when
M2409 overtakes it, it still has no bar. -/
def staleMarket : Market where
  contracts := [soyContract "M2405", soyContract "M2407", soyContract "M2409"]
  bars := [soyBar "M2405" 1 500, soyBar "M2405" 2 500, soyBar "M2405" 3 500, soyBar "M2405" 4 500,
    soyBar "M2407" 2 700, soyBar "M2409" 4 900]
  rules := [setMainRule "M" "DCE" .openInterest 0 2 0]
  codes := by decide

def fourDays : Request :=
  { product := "M", exchange := some "DCE", startDate := 1, endDate := 4 }

/-- M2405 is mapped on days 1 and 2 and M2409 on day 4, its first day as the main contract. -/
theorem mapping_skips_hold : mapping staleMarket fourDays =
    [(1, "M2405"), (2, "M2405"), (4, "M2409")] ∧ ¬ MappedChangesDue staleMarket fourDays := by
  decide +kernel

end Whole

end LocalPlatform.Futures
