import LocalPlatform.Lib.Rows
import Mathlib.Data.Prod.Lex
import Mathlib.Data.String.Basic
import Mathlib.Order.Nat

/-!
# The preview of the daily basics

* `preview` reads a page of the factor values, the latest first.  Of native partitions it reads only
  the newest ones, as many as hold the page if each has four thousand rows.
* `follow` turns the pages until the preview says that there is nothing more.
* `follow_iff`: this visits every value once and in order if at each page the partitions that are
  read hold more values than the pages so far, or all of them; and only then.
-/

namespace LocalPlatform.Market.BasicPreview

open Tables

/-! ## Content -/

/-- A row of the wide table. -/
structure BasicRow (V : Type) where
  symbol : String
  source : String
  value : String → Option V

/-- A row of the preview. -/
structure Cell (V : Type) where
  symbol : String
  tradeDate : String
  factorName : String
  value : V
  source : String
  deriving DecidableEq

/-- `trade_date=*/data.parquet`, whose rows have the date of the directory. -/
structure Partition (V : Type) where
  date : String
  rows : List (BasicRow V)

/-- The partitions as they are listed, or the rows of the files of a manifest. -/
inductive Content (V : Type) where
  | native (partitions : List (Partition V))
      (sorted : partitions.Pairwise (fun a b => a.date < b.date))
  | manifest (rows : List (String × BasicRow V))

/-- A predicate and what it says of the symbol and the date, with its parameter. -/
structure Predicate where
  text : String
  holds : String → String → Bool

variable {V : Type}

/-- `unpivot ... on fields`, without the values that are null. -/
def unpivot (fields : List String) (date : String) (row : BasicRow V) : List (Cell V) :=
  fields.filterMap (fun field => (row.value field).map (fun value =>
    { symbol := row.symbol, tradeDate := date, factorName := field, value := value,
      source := row.source }))

/-- The values of a row that the predicates select. -/
def rowCells (fields : List String) (predicates : List Predicate) (date : String)
    (row : BasicRow V) : List (Cell V) :=
  (unpivot fields date row).filter (fun cell =>
    predicates.all (fun predicate => predicate.holds cell.symbol cell.tradeDate))

def partitionCells (fields : List String) (predicates : List Predicate) (partition : Partition V) :
    List (Cell V) :=
  partition.rows.flatMap (rowCells fields predicates partition.date)

/-- `order by trade_date desc,symbol,factor_name` -/
def cellKey (cell : Cell V) : Stringᵒᵈ ×ₗ String ×ₗ String :=
  toLex (OrderDual.toDual cell.tradeDate, toLex (cell.symbol, cell.factorName))

/-! ## Pages -/

/-- `predicate.replace(" ", "").lower() == "symbol=?"` -/
def Predicate.exactSymbol (predicate : Predicate) : Bool :=
  (predicate.text.toList.filter (· ≠ ' ')).map Char.toLower = "symbol=?".toList

def partitionLimit (fields : List String) (limit offset : ℕ) : ℕ :=
  max 1 ((max 1 offset + max 1 limit + 1) / max 1 (fields.length * 4000) + 1)

section Pages

variable (content : Content V) (fields : List String) (predicates : List Predicate)

/-- The selected values of what is read for a page. -/
def readCells (limit offset : ℕ) : List (Cell V) :=
  match content with
  | .native partitions _ =>
    if predicates.any Predicate.exactSymbol then
      partitions.flatMap (partitionCells fields predicates)
    else (lastOf (partitionLimit fields limit offset) partitions).flatMap
      (partitionCells fields predicates)
  | .manifest rows => rows.flatMap (fun row => rowCells fields predicates row.1 row.2)

/-- `query_daily_basic_preview` of the fields among the factors, and `True` if there is more. -/
def preview (limit offset : ℕ) : List (Cell V) × Bool :=
  if fields = [] then ([], false)
  else
    let rows := ((orderBy cellKey (readCells content fields predicates limit offset)).drop
      offset).take (max 1 limit + 1)
    (rows.take (max 1 limit), max 1 limit < rows.length)

def allCells : List (Cell V) :=
  orderBy cellKey (match content with
    | .native partitions _ => partitions.flatMap (partitionCells fields predicates)
    | .manifest rows => rows.flatMap (fun row => rowCells fields predicates row.1 row.2))

/-- The pages from one on, while there is more. -/
def follow (limit : ℕ) : ℕ → ℕ → List (Cell V)
  | 0, _ => []
  | fuel + 1, page =>
    let result := preview content fields predicates limit (page * limit)
    if result.2 then result.1 ++ follow limit fuel (page + 1) else result.1

/-! ## What is read -/

theorem cellKey_lt {cell other : Cell V} (h : cell.tradeDate < other.tradeDate) :
    cellKey other < cellKey cell :=
  Prod.Lex.toLex_lt_toLex.mpr (.inl (OrderDual.toDual_lt_toDual.mpr h))

theorem tradeDate_of_mem {partition : Partition V} {cell : Cell V}
    (h : cell ∈ partitionCells fields predicates partition) : cell.tradeDate = partition.date := by
  obtain ⟨row, -, hcell⟩ := List.mem_flatMap.mp h
  obtain ⟨field, -, hfield⟩ := List.mem_filterMap.mp (List.mem_of_mem_filter hcell)
  obtain ⟨value, -, rfl⟩ := Option.map_eq_some_iff.mp hfield
  rfl

theorem orderBy_newest {partitions : List (Partition V)}
    (hsorted : partitions.Pairwise (fun a b => a.date < b.date)) (count : ℕ) :
    orderBy cellKey ((lastOf count partitions).flatMap (partitionCells fields predicates)) =
      (orderBy cellKey (partitions.flatMap (partitionCells fields predicates))).take
        ((lastOf count partitions).flatMap (partitionCells fields predicates)).length := by
  have hsplit := List.take_append_drop (partitions.length - count) partitions
  have hdates : ∀ older ∈ partitions.take (partitions.length - count),
      ∀ newer ∈ lastOf count partitions, older.date < newer.date := by
    rw [← hsplit] at hsorted
    exact (List.pairwise_append.mp hsorted).2.2
  have hsorts : orderBy cellKey
      ((partitions.take (partitions.length - count)).flatMap (partitionCells fields predicates) ++
        (lastOf count partitions).flatMap (partitionCells fields predicates)) =
      orderBy cellKey ((lastOf count partitions).flatMap (partitionCells fields predicates)) ++
        orderBy cellKey ((partitions.take (partitions.length - count)).flatMap
          (partitionCells fields predicates)) := by
    refine orderBy_append_of_lt (fun older holder newer hnewer => ?_)
    obtain ⟨before, hbefore, holder⟩ := List.mem_flatMap.mp holder
    obtain ⟨after, hafter, hnewer⟩ := List.mem_flatMap.mp hnewer
    apply cellKey_lt
    rw [tradeDate_of_mem fields predicates holder, tradeDate_of_mem fields predicates hnewer]
    exact hdates before hbefore after hafter
  rw [← List.flatMap_append] at hsorts
  unfold lastOf at hsorts ⊢
  rw [hsplit] at hsorts
  rw [hsorts]
  exact (List.take_left' (orderBy_perm _ _).length_eq).symm

theorem readCells_take (limit offset : ℕ) :
    orderBy cellKey (readCells content fields predicates limit offset) =
      (allCells content fields predicates).take
        (readCells content fields predicates limit offset).length := by
  unfold readCells allCells
  cases content with
  | native partitions sorted =>
    dsimp only
    split
    · exact (List.take_of_length_le (orderBy_perm _ _).length_eq.le).symm
    · exact orderBy_newest fields predicates sorted _
  | manifest rows => exact (List.take_of_length_le (orderBy_perm _ _).length_eq.le).symm

theorem length_flatMap_lastOf {α β : Type} (f : α → List β) (count : ℕ) (rows : List α) :
    ((lastOf count rows).flatMap f).length ≤ (rows.flatMap f).length := by
  unfold lastOf
  conv_rhs => rw [← List.take_append_drop (rows.length - count) rows, List.flatMap_append,
    List.length_append]
  omega

/-- How many values the pages up to one can come from. -/
def readCount (limit page : ℕ) : ℕ :=
  (readCells content fields predicates limit (page * limit)).length

theorem readCount_le (limit page : ℕ) :
    readCount content fields predicates limit page ≤
      (allCells content fields predicates).length := by
  have hlength := congrArg List.length
    (readCells_take content fields predicates limit (page * limit))
  rw [(orderBy_perm _ _).length_eq, List.length_take] at hlength
  unfold readCount
  omega

theorem readCount_mono (limit : ℕ) {page later : ℕ} (h : page ≤ later) :
    readCount content fields predicates limit page ≤
      readCount content fields predicates limit later := by
  unfold readCount readCells
  cases content with
  | manifest rows => exact le_rfl
  | native partitions sorted =>
    dsimp only
    split
    · exact le_rfl
    · have hoffset : page * limit ≤ later * limit := Nat.mul_le_mul_right limit h
      have hlimit : partitionLimit fields limit (page * limit) ≤
          partitionLimit fields limit (later * limit) := by
        unfold partitionLimit
        have hdiv := Nat.div_le_div_right (c := max 1 (fields.length * 4000))
          (show max 1 (page * limit) + max 1 limit + 1 ≤
            max 1 (later * limit) + max 1 limit + 1 by omega)
        omega
      rw [← lastOf_lastOf hlimit partitions]
      exact length_flatMap_lastOf _ _ _

theorem readCells_of_nil (limit offset : ℕ) (h : fields = []) :
    readCells content fields predicates limit offset = [] := by
  subst h
  have hnil : ∀ partitions : List (Partition V),
      partitions.flatMap (partitionCells [] predicates) = [] := fun _ =>
    List.flatMap_eq_nil_iff.mpr (fun _ _ => List.flatMap_eq_nil_iff.mpr (fun _ _ => rfl))
  cases content with
  | native partitions sorted => simp [readCells, hnil]
  | manifest rows => exact List.flatMap_eq_nil_iff.mpr (fun _ _ => rfl)

theorem preview_eq {limit : ℕ} (hlimit : 0 < limit) (page : ℕ) :
    preview content fields predicates limit (page * limit) =
      ((((allCells content fields predicates).take
          (readCount content fields predicates limit page)).drop (page * limit)).take limit,
        decide ((page + 1) * limit < readCount content fields predicates limit page)) := by
  have hcount := readCount_le content fields predicates limit page
  have hpage : (page + 1) * limit = page * limit + limit := Nat.succ_mul page limit
  unfold preview
  split
  · next h =>
    have hnone : readCount content fields predicates limit page = 0 :=
      List.length_eq_zero_iff.mpr (readCells_of_nil content fields predicates limit _ h)
    simp [hnone]
  · rw [readCells_take, max_eq_right hlimit]
    show (List.take limit (List.take (limit + 1) _), decide (limit < (List.take _ _).length)) = _
    rw [List.take_take, min_eq_left (Nat.le_succ limit), List.length_take, List.length_drop,
      List.length_take]
    refine Prod.ext rfl (decide_eq_decide.mpr ?_)
    show _ < min (limit + 1) (min (readCount content fields predicates limit page) _ - _) ↔ _
    omega

theorem follow_eq_iff {limit : ℕ} (hlimit : 0 < limit) (fuel : ℕ) : ∀ page : ℕ,
    (allCells content fields predicates).length < page + fuel →
    page * limit ≤ readCount content fields predicates limit page →
    (follow content fields predicates limit fuel page =
        (allCells content fields predicates).drop (page * limit) ↔
      ∀ later, page ≤ later → readCount content fields predicates limit later =
        (allCells content fields predicates).length ∨
          (later + 1) * limit < readCount content fields predicates limit later) := by
  have hle := readCount_le content fields predicates limit
  induction fuel with
  | zero =>
    intro page hfuel hread
    have hpage : page ≤ page * limit := Nat.le_mul_of_pos_right page hlimit
    have hcount := hle page
    omega
  | succ fuel ih =>
    intro page hfuel hread
    rw [follow, preview_eq content fields predicates hlimit]
    dsimp only
    have hpage : (page + 1) * limit = page * limit + limit := Nat.succ_mul page limit
    by_cases hmore : (page + 1) * limit < readCount content fields predicates limit page
    · have hpages : page + 1 ≤ (page + 1) * limit := Nat.le_mul_of_pos_right _ hlimit
      have hnext := readCount_mono content fields predicates limit (show page ≤ page + 1 by omega)
      have hcount := hle page
      have hfirst : (((allCells content fields predicates).take
          (readCount content fields predicates limit page)).drop (page * limit)).take limit =
          ((allCells content fields predicates).drop (page * limit)).take limit := by
        rw [List.drop_take, List.take_take]
        congr 1
        omega
      rw [if_pos (by simpa using hmore), hfirst]
      nth_rewrite 2 [← List.take_append_drop limit
        ((allCells content fields predicates).drop (page * limit))]
      rw [List.append_cancel_left_eq, List.drop_drop, ← hpage, ih (page + 1) (by omega) (by omega)]
      constructor
      · intro h later hlater
        rcases Nat.eq_or_lt_of_le hlater with rfl | hlt
        · exact .inr hmore
        · exact h later hlt
      · exact fun h later hlater => h later (by omega)
    · rw [if_neg (by simpa using hmore), List.take_of_length_le (by
        rw [List.length_drop, List.length_take]
        omega)]
      have hcount := hle page
      have hall : (((allCells content fields predicates).take
          (readCount content fields predicates limit page)).drop (page * limit) =
            (allCells content fields predicates).drop (page * limit)) ↔
          readCount content fields predicates limit page =
            (allCells content fields predicates).length := by
        constructor
        · intro h
          have hlength := congrArg List.length h
          rw [List.length_drop, List.length_drop, List.length_take] at hlength
          omega
        · intro h
          rw [h, List.take_length]
      rw [hall]
      constructor
      · intro h later hlater
        have hmono := readCount_mono content fields predicates limit hlater
        have hlater := hle later
        exact .inl (by omega)
      · intro h
        exact (h page le_rfl).resolve_right hmore

end Pages

/-! ## An end date -/

def endDate : Predicate where
  text := "trade_date<=?"
  holds := fun _ date => date ≤ "2024-01-02"

def twoDays : Content ℕ :=
  .native [⟨"2024-01-02", [⟨"600519", "tushare:daily_basic", fun _ => some 20⟩]⟩,
    ⟨"2024-01-03", [⟨"600519", "tushare:daily_basic", fun _ => some 21⟩]⟩] (by decide +kernel)

end LocalPlatform.Market.BasicPreview
