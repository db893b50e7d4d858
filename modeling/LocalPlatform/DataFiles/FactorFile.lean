import LocalPlatform.Lib.DateTexts
import LocalPlatform.Lib.Results
import LocalPlatform.Lib.Rows

/-!
# Equity factor files

* `writeEquityFactorFile` smooths the factors that change for one row only, writes a line for each
  change that is left, and a last line for the time after the data.
* `fileRows` are the rows that `validateEquityFactorFile` reads, with the errors beside them.
* `appliedFactor` is no function of the platform: it is the price factor that is applied to a date,
  that of the first row of the file dated on or after it.
* Numbers are exact.  What is returned beside the file is left out.
-/

namespace LocalPlatform.DataFiles

open Dates DateTexts Decimals Tables

/-! ## The rows of a provider -/

/-- A row of factors; a field is missing, or empty. -/
structure FactorRow where
  tradeDate : Option Date
  date : Option Date
  adjFactor : Option ℚ
  factor : Option ℚ

structure PriceRow where
  tradeDate : Option Date
  date : Option Date
  close : Option ℚ

inductive FactorError where
  | invalidFactor (factor : ℚ)
  | noFactors
  | invalidLatestFactor
  | missingPreviousClose (date : Date)
  deriving DecidableEq

/-- `row.get("adj_factor") or row.get("factor")`: a zero counts as missing. -/
def FactorRow.rawFactor (row : FactorRow) : Option ℚ :=
  (row.adjFactor.filter (fun factor => factor ≠ 0)).or row.factor

/-- The loop over the factor rows. -/
def readFactors : List FactorRow → Except FactorError (List (Date × ℚ))
  | [] => .ok []
  | row :: rows =>
    match row.tradeDate.or row.date, row.rawFactor with
    | some date, some factor =>
      if factor ≤ 0 then .error (.invalidFactor factor)
      else (readFactors rows).map (fun rest => (date, factor) :: rest)
    | _, _ => readFactors rows

/-- The factor of each date, in the order of the dates. -/
def cleanRows (factors : List (Date × ℚ)) : List (Date × ℚ) :=
  orderBy Prod.fst (uniqueLast Prod.fst factors)

/-- The closes that count, in the order of their dates. -/
def readPrices (rows : List PriceRow) : List (Date × ℚ) :=
  orderBy Prod.fst (rows.filterMap (fun row =>
    match row.tradeDate.or row.date, row.close with
    | some date, some close => if 0 < close then some (date, close) else none
    | _, _ => none))

/-! ## Changes -/

def tolerance : ℚ := 1 / 10000000000

/-- The factor changes, and the next one is the previous one again. -/
def transient (previous current next : ℚ) : Bool :=
  let scale := max |previous| (max |current| (max |next| 1))
  scale * tolerance < |current - previous| ∧ |next - previous| ≤ scale * tolerance

/-- The rows after one with a given factor. -/
def smoothFrom (previous : ℚ) : List (Date × ℚ) → List (Date × ℚ)
  | current :: next :: rest =>
    let kept := if transient previous current.2 next.2 then previous else current.2
    (current.1, kept) :: smoothFrom kept (next :: rest)
  | rows => rows

/-- `normalized_rows` -/
def smooth : List (Date × ℚ) → List (Date × ℚ)
  | [] => []
  | first :: rest => first :: smoothFrom first.2 rest

def sameFactor (factor previous : ℚ) : Bool :=
  |factor - previous| ≤ max |factor| (max |previous| 1) * tolerance

/-- `previous_close` -/
def previousClose (prices : List (Date × ℚ)) (eventDate : Date) : Option ℚ :=
  ((prices.takeWhile (fun price => price.1 < eventDate)).getLast?).map Prod.snd

/-! ## The file -/

structure FactorLine where
  date : Date
  priceFactor : ℚ
  referencePrice : ℚ

/-- The loop over the cleaned rows, after the factor of the last line. -/
def linesFrom (prices : List (Date × ℚ)) (requireReferencePrices : Bool) (latest : ℚ) :
    Option ℚ → List (Date × ℚ) → Except FactorError (List FactorLine)
  | _, [] => .ok []
  | none, (date, factor) :: rest =>
    (linesFrom prices requireReferencePrices latest (some factor) rest).map (fun lines =>
      { date := date, priceFactor := factor / latest, referencePrice := 1 } :: lines)
  | some previous, (date, factor) :: rest =>
    if sameFactor factor previous then
      linesFrom prices requireReferencePrices latest (some previous) rest
    else if previousClose prices date = none ∧ requireReferencePrices then
      .error (.missingPreviousClose date)
    else
      (linesFrom prices requireReferencePrices latest (some factor) rest).map (fun lines =>
        { date := date, priceFactor := factor / latest
          referencePrice := (previousClose prices date).getD 1 } :: lines)

def FactorLine.text (line : FactorLine) : List Char :=
  [','].intercalate [dateText line.date, (fixed 10 line.priceFactor).text, ['1'],
    (fixed 10 line.referencePrice).text]

def terminalDate : Date := ⟨2050, 12, 31, by decide⟩

def terminalText : List Char := "20501231,1.0000000000,1,0".toList

/-- The text of a file, with a last line if the rows do not come to its date. -/
def factorText (rows : List (Date × ℚ)) (lines : List FactorLine) : List Char :=
  ['\n'].intercalate (lines.map FactorLine.text ++
    if rows.getLast?.any (fun last => last.1 ≠ terminalDate) then [terminalText] else []) ++ ['\n']

/-- The file of the rows that are left after the transient changes. -/
def writeRows (rows : List (Date × ℚ)) (prices : List (Date × ℚ)) (requireReferencePrices : Bool) :
    Except FactorError (List Char) :=
  match rows.getLast? with
  | none => .error .noFactors
  | some (_, latest) =>
    if latest ≤ 0 then .error .invalidLatestFactor
    else do
      let lines ← linesFrom prices requireReferencePrices latest none rows
      pure (factorText rows lines)

/-- `write_equity_factor_file` -/
def writeEquityFactorFile (factorRows : List FactorRow) (priceRows : List PriceRow)
    (requireReferencePrices : Bool) : Except FactorError (List Char) := do
  let factors ← readFactors factorRows
  writeRows (smooth (cleanRows factors)) (readPrices priceRows) requireReferencePrices

/-! ## Reading the file -/

/-- A row of a factor file. -/
structure FileRow where
  date : List Char
  priceFactor : ℚ
  splitFactor : ℚ
  referencePrice : ℚ
  deriving DecidableEq

inductive FileError where
  | unreadable
  | expectedFields (line : ℕ)
  | invalidNumericValue (line : ℕ)
  | invalidFactorValue (line : ℕ)
  | zeroReferencePrice (date : List Char)
  deriving DecidableEq

/-- A line as a row or an error; a blank one is neither. -/
def readFactorLine (number : ℕ) (line : List Char) : Option (Except FileError FileRow) :=
  if strip line = [] then none
  else
    match (line.splitOn ',').map strip with
    | date :: priceFactor :: splitFactor :: referencePrice :: _ =>
      match readFloat priceFactor, readFloat splitFactor, readFloat referencePrice with
      | some priceFactor, some splitFactor, some referencePrice =>
        some (.ok { date := date, priceFactor := priceFactor, splitFactor := splitFactor,
                    referencePrice := referencePrice })
      | _, _, _ => some (.error (.invalidNumericValue number))
    | _ => some (.error (.expectedFields number))

def readLines (text : List Char) : List (ℕ × Except FileError FileRow) :=
  ((text.splitOn '\n').zipIdx 1).filterMap (fun (line, number) =>
    (readFactorLine number line).map (fun result => (number, result)))

def fileRows (text : List Char) : List FileRow :=
  (readLines text).filterMap (fun line => line.2.toOption)

def lineErrors : ℕ × Except FileError FileRow → List FileError
  | (_, .error error) => [error]
  | (number, .ok row) =>
    if row.priceFactor ≤ 0 ∨ row.splitFactor ≤ 0 then [.invalidFactorValue number] else []

/-- The errors of a row after another one. -/
def changeErrors (previous row : FileRow) : List FileError :=
  if (¬ sameFactor row.priceFactor previous.priceFactor ∨
      ¬ sameFactor row.splitFactor previous.splitFactor) ∧
    row.date ≠ dateText terminalDate ∧ row.referencePrice ≤ 0
  then [.zeroReferencePrice row.date] else []

/-- `validate_equity_factor_file`: a file passes without errors. -/
def validateEquityFactorFile : Option (List Char) → List FileError
  | none => [.unreadable]
  | some text =>
    (readLines text).flatMap lineErrors ++
      ((fileRows text).zip (fileRows text).tail).flatMap (fun pair => changeErrors pair.1 pair.2)

/-- The price factor that is applied to a date. -/
def appliedFactor (text : List Char) (date : Date) : Option ℚ :=
  ((fileRows text).find? (fun row =>
    (parseDateTime dateFormat row.date).any (fun found => date ≤ found.1))).map FileRow.priceFactor

end LocalPlatform.DataFiles
