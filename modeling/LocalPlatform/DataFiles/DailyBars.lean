import LocalPlatform.Lib.DateTexts
import LocalPlatform.Lib.Results
import LocalPlatform.Lib.Rows
import Mathlib.Data.Prod.Lex

/-!
# Bars in data files

The writers of daily bars, and the reader of the bars of any resolution.

* `normalizeRows` checks the rows, and `writeDaily` writes a line for each of them.  The writers
  differ in the text of a price (`leanPrice`, or six significant digits).
* `parseLeanZipOhlcvSeries` reads the lines of the members of the archives.  A line that it cannot
  read is passed over, and of two lines with one time the later one counts.
* The time zones are those of the library: a `Zone` converts the times of a place and of UTC.
* A time is a date and the microseconds of the day.  `Timestamp.key` orders timestamps as their
  texts are ordered.
* Where the archives are, and what is returned beside the file, is left out.
-/

namespace LocalPlatform.DataFiles

open Dates DateTexts Decimals Tables

/-! ## Rows -/

/-- A row of a provider; a field is missing, or no number or date. -/
structure RawRow where
  date : Option Date
  openPrice : Option ℚ
  high : Option ℚ
  low : Option ℚ
  close : Option ℚ
  volume : Option ℚ

structure Bar where
  date : Date
  openPrice : ℚ
  high : ℚ
  low : ℚ
  close : ℚ
  volume : ℤ

inductive RowError where
  | invalidRow (row : RawRow)
  | duplicateRow (date : Date)
  | nonPositivePrice (row : RawRow)
  | negativeVolume (row : RawRow)
  | violatesBounds (row : RawRow)
  | noValidRows

/-- `int(value)` -/
def truncated (value : ℚ) : ℤ := if value < 0 then ⌈value⌉ else ⌊value⌋

/-- `_clamp_ohlc_float_noise` -/
def clampOhlcFloatNoise (openPrice high low close : ℚ) : ℚ × ℚ :=
  let scale := max |openPrice| (max |high| (max |low| (max |close| 1)))
  let tolerance := scale / 1000000
  let requiredHigh := max openPrice close
  let requiredLow := min openPrice close
  (if high < requiredHigh ∧ requiredHigh - high ≤ tolerance then requiredHigh else high,
    if requiredLow < low ∧ low - requiredLow ≤ tolerance then requiredLow else low)

/-- The fields of a row as numbers. -/
def readRow (row : RawRow) : Option Bar := do
  let date ← row.date
  let openPrice ← row.openPrice
  let high ← row.high
  let low ← row.low
  let close ← row.close
  let volume ← row.volume
  pure { date := date, openPrice := openPrice, high := high, low := low, close := close,
         volume := truncated volume }

/-- The checks of a row that was read. -/
def checkBar (row : RawRow) (bar : Bar) : Except RowError Bar :=
  if min bar.openPrice (min bar.high (min bar.low bar.close)) ≤ 0 then
    .error (.nonPositivePrice row)
  else if bar.volume < 0 then .error (.negativeVolume row)
  else
    let clamped := clampOhlcFloatNoise bar.openPrice bar.high bar.low bar.close
    if clamped.1 < clamped.2 ∨ clamped.1 < bar.openPrice ∨ bar.openPrice < clamped.2 ∨
        clamped.1 < bar.close ∨ bar.close < clamped.2 then
      .error (.violatesBounds row)
    else .ok { bar with high := clamped.1, low := clamped.2 }

/-- The loop of `normalize_rows`, with the dates that it has seen. -/
def normalizeFrom (seen : List Date) : List RawRow → Except RowError (List Bar)
  | [] => .ok []
  | row :: rows =>
    match readRow row with
    | none => .error (.invalidRow row)
    | some bar =>
      if bar.date ∈ seen then .error (.duplicateRow bar.date)
      else do
        let checked ← checkBar row bar
        let rest ← normalizeFrom (bar.date :: seen) rows
        pure (checked :: rest)

/-- `normalize_rows` -/
def normalizeRows (rows : List RawRow) : Except RowError (List Bar) := do
  let normalized ← normalizeFrom [] rows
  if normalized.isEmpty then .error .noValidRows
  else pure (orderBy Bar.date normalized)

/-! ## The writers -/

/-- `lean_price`: ten-thousandths -/
def leanPrice (value : ℚ) : Numeral := natural (roundEven (value * 10000)).toNat

def barLine (price : ℚ → Numeral) (bar : Bar) : List Char :=
  [','].intercalate
    [dateText bar.date ++ midnight, (price bar.openPrice).text, (price bar.high).text,
      (price bar.low).text, (price bar.close).text, (natural bar.volume.toNat).text]

/-- The text of a file that is written with the lines of its bars. -/
def writeDaily (price : ℚ → Numeral) (rows : List RawRow) : Except RowError (List Char) := do
  let normalized ← normalizeRows rows
  pure (['\n'].intercalate (normalized.map (barLine price)) ++ ['\n'])

/-- `write_lean_daily_zip` -/
def writeLeanDailyZip : List RawRow → Except RowError (List Char) := writeDaily leanPrice

/-- `write_lean_crypto_daily_zip` -/
def writeLeanCryptoDailyZip : List RawRow → Except RowError (List Char) := writeDaily general

/-- `write_lean_future_daily_zip` -/
def writeLeanFutureDailyZip : List RawRow → Except RowError (List Char) := writeDaily general

/-! ## Times -/

abbrev Moment := Date ×ₗ ℕ

/-- A time zone: its times and those of UTC, and its offset at a time of its own. -/
structure Zone where
  toUtc : Moment → Moment
  fromUtc : Moment → Moment
  offset : Moment → ℤ

def Zone.utc : Zone where
  toUtc := id
  fromUtc := id
  offset := fun _ => 0

/-- A time that was converted to UTC, or one with the offset of its place. -/
inductive Timestamp where
  | utc (moment : Moment)
  | withOffset (moment : Moment) (offset : ℤ)

/-- The order of the texts: `+` comes before `-`. -/
def Timestamp.key : Timestamp → Moment ×ₗ Bool ×ₗ ℕ
  | .utc moment => toLex (moment, toLex (false, 0))
  | .withOffset moment offset => toLex (moment, toLex (decide (offset < 0), offset.natAbs))

/-- `timestamp.astimezone(zone).date()` -/
def Timestamp.date (zone : Zone) : Timestamp → Date
  | .utc moment => (ofLex (zone.fromUtc moment)).1
  | .withOffset moment _ => (ofLex moment).1

/-! ## The reader -/

inductive AssetClass where
  | equity
  | crypto
  | cryptoFuture
  | future
  deriving DecidableEq

inductive Resolution where
  | daily
  | hour
  | minute
  | second
  | tick
  deriving DecidableEq

structure Request where
  assetClass : AssetClass
  venue : String
  resolution : Resolution
  dataType : String
  deriving DecidableEq

/-- `_request_timezone` -/
def requestTimezone (zoneInfo : String → Zone) (request : Request) : Zone :=
  match request.assetClass with
  | .crypto | .cryptoFuture => .utc
  | .equity =>
    match [("china", "Asia/Shanghai"), ("hongkong", "Asia/Hong_Kong"),
        ("usa", "America/New_York")].lookup request.venue with
    | some name => zoneInfo name
    | none => .utc
  | .future => .utc

/-- A member of an archive, with the date in its name or in that of the archive. -/
structure Member where
  tradeDate : Option Date
  text : List Char

def Resolution.intraday (resolution : Resolution) : Bool :=
  resolution = .minute ∨ resolution = .second

/-- `_parse_bar_timestamp` -/
def parseBarTimestamp (zone : Zone) (resolution : Resolution) (tradeDate : Option Date)
    (raw : List Char) : Option Timestamp :=
  let value := strip raw
  match [fractionFormat, secondFormat, minuteFormat].findSome? (parseDateTime · value) with
  | some moment => some (.utc (zone.toUtc (toLex moment)))
  | none =>
    match parseDateTime dateFormat value with
    | some (date, _) => some (.withOffset (toLex (date, 0)) (zone.offset (toLex (date, 0))))
    | none =>
      if value ≠ [] ∧ value.all Char.isDigit ∧ resolution.intraday then do
        -- milliseconds since midnight
        let date ← tradeDate
        let day ← date.addDays (readNat value / 86400000)
        pure (.utc (zone.toUtc (toLex (day, readNat value % 86400000 * 1000))))
      else none

structure Point where
  time : Timestamp
  openPrice : ℚ
  high : ℚ
  low : ℚ
  close : ℚ
  volume : ℚ

def scaleOf : AssetClass → ℚ
  | .equity => 10000
  | .crypto | .cryptoFuture | .future => 1

/-- The point of a line, if the line can be read. -/
def parseLine (zone : Zone) (request : Request) (tradeDate : Option Date) (raw : List Char) :
    Option Point :=
  match (strip raw).splitOn ',' with
  | timeText :: openText :: highText :: lowText :: closeText :: more => do
    let time ← parseBarTimestamp zone request.resolution tradeDate timeText
    let openPrice ← readFloat openText
    let high ← readFloat highText
    let low ← readFloat lowText
    let close ← readFloat closeText
    let volume ← match more with
      | volumeText :: _ => readFloat volumeText
      | [] => some 0
    pure { time := time, openPrice := openPrice / scaleOf request.assetClass,
           high := high / scaleOf request.assetClass, low := low / scaleOf request.assetClass,
           close := close / scaleOf request.assetClass, volume := volume }
  | _ => none

inductive ReadError where
  | unsupportedDataType (dataType : String)
  | tickRows
  deriving DecidableEq

/-- `parse_lean_zip_ohlcv_series`, of the members of the archives of a request -/
def parseLeanZipOhlcvSeries (zoneInfo : String → Zone) (request : Request)
    (startDate endDate : Option Date) (members : List Member) : Except ReadError (List Point) :=
  if request.dataType ≠ "trade" then .error (.unsupportedDataType request.dataType)
  else if request.resolution = .tick then .error .tickRows
  else
    let zone := requestTimezone zoneInfo request
    let points := members.flatMap (fun archived =>
      (archived.text.splitOn '\n').filterMap (parseLine zone request archived.tradeDate))
    let inside := points.filter (fun point =>
      startDate.all (fun start => start ≤ point.time.date zone) ∧
        endDate.all (fun finish => point.time.date zone ≤ finish))
    .ok (orderBy (fun point => point.time.key) (uniqueLast (fun point => point.time.key) inside))

end LocalPlatform.DataFiles
