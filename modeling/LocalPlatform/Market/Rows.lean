import LocalPlatform.Lib.Rows
import LocalPlatform.Paper.Values

/-!
# Rows of the market lake

A row of the lake is a dictionary from columns to values (`Parameters`), where a column
that is missing reads as null.

* `Kind` and `Scope` name a dataset, `kindDefinition` its columns and its key.
* `normaliseRows` turns the rows of a caller into rows of a scope.
* `select` is the row restricted to the columns of its kind, with nulls for the missing ones.
-/

namespace LocalPlatform.Market

open Paper Tables

/-! ## Datasets -/

inductive Kind where
  | bars
  | tradeStatus
  | adjustmentFactor
  | dailyBasic
  deriving DecidableEq

/-- What names a dataset: `_scope`. -/
structure Scope where
  kind : Kind
  assetClass : String
  market : String
  venue : String
  resolution : String
  dataType : String
  adjust : String
  source : String
  deriving DecidableEq

abbrev Row := Parameters

def barColumns : List String :=
  ["instrument_id", "symbol", "asset_class", "market", "venue", "trade_date", "timestamp",
    "resolution", "data_type", "open", "high", "low", "close", "settle", "volume", "amount",
    "turnover_rate", "open_interest", "prev_close", "pct_change", "adjust", "adj_factor",
    "source", "batch_id", "created_at"]

def barKey : List String :=
  ["instrument_id", "trade_date", "timestamp", "resolution", "data_type", "adjust", "source"]

def statusColumns : List String :=
  ["instrument_id", "symbol", "asset_class", "market", "venue", "trade_date", "is_tradeable",
    "is_suspended", "can_buy", "can_sell", "limit_up", "limit_down", "is_limit_up",
    "is_limit_down", "is_one_word_limit_up", "is_one_word_limit_down", "is_st", "status",
    "reason", "source", "batch_id", "updated_at"]

def statusKey : List String := ["instrument_id", "trade_date", "source"]

def adjustmentColumns : List String :=
  ["symbol", "trade_date", "adj_factor", "source", "batch_id"]

def adjustmentKey : List String := ["symbol", "trade_date", "source"]

def dailyBasicColumns : List String :=
  ["symbol", "trade_date", "turnover_rate", "turnover_rate_float", "volume_ratio", "pe", "pe_ttm",
    "pb", "ps", "ps_ttm", "dividend_yield", "dividend_yield_ttm", "total_share_shares",
    "float_share_shares", "free_share_shares", "total_mv_cny", "circ_mv_cny", "source",
    "batch_id", "created_at"]

def dailyBasicKey : List String := ["symbol", "trade_date", "source"]

/-- `_kind_definition`: the columns and the key of a kind. -/
def kindDefinition : Kind → List String × List String
  | .bars => (barColumns, barKey)
  | .tradeStatus => (statusColumns, statusKey)
  | .adjustmentFactor => (adjustmentColumns, adjustmentKey)
  | .dailyBasic => (dailyBasicColumns, dailyBasicKey)

def Kind.columns (kind : Kind) : List String := (kindDefinition kind).1

def Kind.key (kind : Kind) (row : Row) : List ParamValue := (kindDefinition kind).2.map row.get

/-- The row with exactly the columns of its kind. -/
def Kind.select (kind : Kind) (row : Row) : Row :=
  kind.columns.map (fun column => (column, row.get column))

def tradeDate (row : Row) : String := (row.get "trade_date").str

def rowSymbol (row : Row) : String := (row.get "symbol").str

/-! ## Normalising -/

/-- `a or b or ... or ""`, as a text. -/
def firstTruthy (row : Row) : List String → String
  | [] => ""
  | name :: names => if (row.get name).truthy then (row.get name).str else firstTruthy row names

/-- `text.split(mark, 1)[0]` -/
def beforeMark (mark : Char) (text : String) : String :=
  String.ofList (text.toList.takeWhile (· ≠ mark))

/-- The text from position `from` on, `n` characters long. -/
def slice (start n : Nat) (text : String) : String :=
  String.ofList ((text.toList.drop start).take n)

/-- `_iso_date` of a text. -/
def isoDate (value : String) : Except String String :=
  let text := strip value
  if 10 ≤ text.length ∧ slice 4 1 text = "-" then .ok (slice 0 10 text)
  else if 8 ≤ text.length ∧ (text.toList.take 8).all Char.isDigit then
    .ok s!"{slice 0 4 text}-{slice 4 2 text}-{slice 6 2 text}"
  else .error s!"invalid market date: '{value}'"

/-- `int(bool(value))` -/
def flag (value : ParamValue) : ParamValue := .num (if value.truthy then 1 else 0)

/-- `value or default` -/
def orElse (value default : ParamValue) : ParamValue := if value.truthy then value else default

/-- The flags of a status row and what a row without them has. -/
def statusFlags : List (String × ParamValue) :=
  [("is_tradeable", .num 1), ("is_suspended", .num 0), ("can_buy", .num 1), ("can_sell", .num 1),
    ("is_limit_up", .num 0), ("is_limit_down", .num 0), ("is_one_word_limit_up", .num 0),
    ("is_one_word_limit_down", .num 0), ("is_st", .num 0)]

/-- What `_normalise_rows` writes over the columns of a row. -/
def assigned (scope : Scope) (now : String) (raw : Row) (symbol date : String) : Row :=
  let identity : Row :=
    if scope.kind = .bars ∨ scope.kind = .tradeStatus then
      [("asset_class", .text scope.assetClass), ("market", .text scope.market),
        ("venue", .text scope.venue),
        ("instrument_id", orElse (raw.get "instrument_id")
          (.text s!"{scope.assetClass}:{scope.market}:{scope.venue}:{symbol}"))]
    else []
  let source := ParamValue.text
    (if (raw.get "source").truthy then (raw.get "source").str else scope.source)
  let own : Row :=
    match scope.kind with
    | .bars =>
      [("timestamp", raw.get "timestamp"), ("resolution", .text scope.resolution),
        ("data_type", .text scope.dataType), ("adjust", .text scope.adjust),
        ("source", .text scope.source), ("created_at", orElse (raw.get "created_at") (.text now))]
    | .tradeStatus =>
      [("source", source), ("updated_at", orElse (raw.get "updated_at") (.text now))] ++
        statusFlags.map (fun default =>
          (default.1, flag ((raw.lookup default.1).getD default.2)))
    | .adjustmentFactor => [("source", source)]
    | .dailyBasic =>
      [("source", source), ("created_at", orElse (raw.get "created_at") (.text now))]
  [("symbol", .text symbol), ("trade_date", .text date)] ++ identity ++ own

/-- One row of `_normalise_rows`. -/
def normaliseRow (scope : Scope) (now : String) (raw : Row) : Except String Row := do
  let symbol := upper (beforeMark '.' (firstTruthy raw ["symbol", "code", "ts_code"]))
  if symbol = "" then throw "symbol is required for market lake rows"
  let date ← isoDate (firstTruthy raw ["trade_date", "tradeDate", "date", "timestamp"])
  let item := assigned scope now raw symbol date
  return scope.kind.columns.map (fun column =>
    (column, (item.lookup column).getD (raw.get column)))

/-- `_normalise_rows` -/
def normaliseRows (scope : Scope) (now : String) (rows : List Row) : Except String (List Row) :=
  rows.mapM (normaliseRow scope now)

/-! ## Rows of a kind -/

theorem get_map_columns {columns : List String} (values : String → ParamValue) {column : String}
    (h : column ∈ columns) :
    Parameters.get (columns.map (fun column => (column, values column))) column =
      values column := by
  induction columns with
  | nil => cases h
  | cons first columns ih =>
    unfold Parameters.get
    rw [List.map_cons, List.lookup_cons]
    by_cases heq : column = first
    · subst heq
      simp
    · have hne : (column == first) = false := by simpa using heq
      rw [hne]
      cases h with
      | head => exact absurd rfl heq
      | tail _ hrest => exact ih hrest

end LocalPlatform.Market
