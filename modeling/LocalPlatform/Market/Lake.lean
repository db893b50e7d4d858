import LocalPlatform.Lib.Transaction
import LocalPlatform.Market.Rows
import Mathlib.Data.Finset.Basic
import Mathlib.Data.Prod.Lex

/-!
# The market lake

A dataset of the lake is a set of files, one or more for each year, and a manifest that
names the files that are current.

* `upsertRows` merges the incoming rows of each year with the year's current files into a new
  file, and then publishes a manifest that names it in their place.
* `deleteSnapshotAbsences` does the same with the rows that an authoritative snapshot keeps.
* A new file lies in a directory that is named by a hash of the request (`Seed`), which
  is taken to be free of collisions: the path holds what is hashed.

Each replacement of a file and each publication is a transaction, so the committed states are
the states that a crash can leave.  Both functions take the lock of the dataset, so calls follow
one another.  The size of a file and the casts of the frame library are left out.
-/

namespace LocalPlatform.Market

open Paper Tables
open Transaction Transaction.TxM

/-! ## Files and manifests -/

/-- A window in which a snapshot is authoritative for a symbol. -/
structure SnapshotScope where
  symbol : String
  start : String
  stop : String
  deriving DecidableEq

/-- What the name of a release directory is a hash of. -/
inductive Seed where
  | rows (incoming : List Row)
  | delete (scopes : List SnapshotScope) (authoritative : Finset (String × String))
  deriving DecidableEq

/-- The path of a data file: `year=2024/<name>.parquet` or `r=2024_<seed>/p.parquet`. -/
inductive DataPath where
  | legacy (year : Nat) (name : String)
  | release (year : Nat) (seed : Seed)
  deriving DecidableEq

/-- An entry of a manifest.  The entries of files that no manifest names yet have no checksum. -/
structure FileEntry where
  path : DataPath
  year : Nat
  rowCount : Option Nat
  firstTimestamp : Option String
  lastTimestamp : Option String
  sha256 : Option (Digest (List Row))
  deriving DecidableEq

structure Manifest where
  scope : Scope
  files : List FileEntry
  deriving DecidableEq

/-- The files on disk, the legacy ones among them, and the current manifest. -/
structure Lake where
  content : DataPath → Option (List Row)
  legacy : List (Nat × String)
  manifest : Option Manifest

/-- The files of `load_manifest`. -/
def Lake.currentFiles (lake : Lake) : List FileEntry :=
  match lake.manifest with
  | some manifest => manifest.files
  | none => lake.legacy.map (fun file =>
      { path := .legacy file.1 file.2, year := file.1, rowCount := none, firstTimestamp := none,
        lastTimestamp := none, sha256 := none })

/-- `os.replace` of a data file. -/
def Lake.write (lake : Lake) (path : DataPath) (rows : List Row) : Lake :=
  { lake with content := Function.update lake.content path (some rows) }

/-- `_write_manifest` -/
def publish (scope : Scope) (files : List FileEntry) : TxM Lake String Unit :=
  TxM.tx (fun lake => .ok ((), { lake with manifest := some { scope := scope, files := files } }))

/-! ## Frames -/

/-- `int(trade_date[:4])` -/
def yearOf (date : String) : Option Nat :=
  let head := date.toList.take 4
  if head = [] then none else digitsValue head

/-- `read_parquet` of the files of some entries. -/
def readFiles (content : DataPath → Option (List Row)) (entries : List FileEntry) :
    Except String (List Row) := do
  let frames ← entries.mapM (fun entry =>
    match content entry.path with
    | some rows => Except.ok rows
    | none => .error "No such file or directory")
  return frames.flatten

def rowsOfYear (rows : List Row) (year : Nat) : List Row :=
  rows.filter (fun row => yearOf (tradeDate row) = some year)

def entriesOf (files : List FileEntry) (year : Nat) : List FileEntry :=
  files.filter (fun entry => entry.year = year)

/-- The order of a column's values: nulls first. -/
def cellOrder : ParamValue → Nat ×ₗ ℚ ×ₗ String
  | .null => toLex (0, toLex (0, ""))
  | .bool b => toLex (1, toLex (if b then 1 else 0, ""))
  | .num x => toLex (2, toLex (x, ""))
  | .text s => toLex (3, toLex (0, s))
  | .list items => toLex (4, toLex (0, toString items))

def sortKey (kind : Kind) (row : Row) : List (Nat ×ₗ ℚ ×ₗ String) :=
  ((["trade_date", "timestamp", "symbol", "source"] : List String).filter (· ∈ kind.columns)).map
    (fun column => cellOrder (row.get column))

/-- The current rows of a year with the incoming ones, of which the last of each key stays. -/
def mergeRows (kind : Kind) (current incoming : List Row) : List Row :=
  orderBy (sortKey kind) (uniqueLast kind.key ((current ++ incoming).map kind.select))

/-- The entry of a file that has been written. -/
def releaseEntry (path : DataPath) (year : Nat) (rows : List Row) : FileEntry where
  path := path
  year := year
  rowCount := some rows.length
  firstTimestamp := (rows.map tradeDate).min?
  lastTimestamp := (rows.map tradeDate).max?
  sha256 := some { payload := rows }

/-! ## Upserts -/

structure UpsertResult where
  rows : Nat
  changedRows : Nat
  fileCount : Nat
  deriving DecidableEq

/-- The years of the prepared rows, in order. -/
def yearsOf (prepared : List Row) : Except String (List Nat) := do
  let years ← prepared.mapM (fun row =>
    match yearOf (tradeDate row) with
    | some year => Except.ok year
    | none => .error s!"invalid literal for int() with base 10: '{slice 0 4 (tradeDate row)}'")
  return orderBy id years.dedup

def upsertPath (prepared : List Row) (year : Nat) : DataPath :=
  .release year (.rows (rowsOfYear prepared year))

/-- One turn of the loop of `upsert_rows`. -/
def writeYear (kind : Kind) (previous : List FileEntry) (prepared : List Row) (year : Nat) :
    TxM Lake String FileEntry :=
  TxM.tx (fun lake => do
    let current ← readFiles lake.content (entriesOf previous year)
    let rows := mergeRows kind current (rowsOfYear prepared year)
    let path := upsertPath prepared year
    return (releaseEntry path year rows, lake.write path rows))

/-- `upsert_rows` of a scope without a native layout. -/
def upsertRows (scope : Scope) (now : String) (rows : List Row) : TxM Lake String UpsertResult := do
  let prepared ← TxM.read (fun _ => normaliseRows scope now rows)
  if prepared = [] then return { rows := 0, changedRows := 0, fileCount := 0 }
  else
    let years ← TxM.read (fun _ => yearsOf prepared)
    let previous ← TxM.read (fun lake => .ok lake.currentFiles)
    let written ← TxM.forEach (writeYear scope.kind previous prepared) years
    let retained := previous.filter (fun entry => entry.year ∉ years)
    let files := orderBy FileEntry.year (retained ++ written)
    publish scope files
    return { rows := prepared.length
             changedRows := (years.map (fun year => (rowsOfYear prepared year).length)).sum
             fileCount := files.length }

/-! ## Snapshot deletes -/

/-- The window of a symbol: its last one among the scopes. -/
def lastScope (scopes : List SnapshotScope) (symbol : String) : Option SnapshotScope :=
  scopes.reverse.find? (fun scope => scope.symbol = symbol)

/-- A row in the window of its symbol that the snapshot does not hold. -/
def absent (scopes : List SnapshotScope) (authoritative : Finset (String × String)) (row : Row) :
    Bool :=
  match lastScope scopes (rowSymbol row) with
  | some scope =>
    decide (scope.start ≤ tradeDate row ∧ tradeDate row ≤ scope.stop ∧
      (rowSymbol row, tradeDate row) ∉ authoritative)
  | none => false

/-- Whether the delete opens the files of a year: `start[:4] <= str(year) <= end[:4]`. -/
def opensYear (scopes : List SnapshotScope) (year : Nat) : Bool :=
  scopes.any (fun scope =>
    decide (slice 0 4 scope.start ≤ toString year ∧ toString year ≤ slice 0 4 scope.stop))

/-- What the delete makes of one year. -/
structure DeletedYear where
  retained : List FileEntry
  replacement : Option FileEntry
  deleted : Nat
  deriving DecidableEq

/-- One turn of the loop of `delete_snapshot_absences`. -/
def deleteYear (kind : Kind) (scopes : List SnapshotScope)
    (authoritative : Finset (String × String)) (previous : List FileEntry) (year : Nat) :
    TxM Lake String DeletedYear := do
  let files := entriesOf previous year
  if opensYear scopes year = false then
    return { retained := files, replacement := none, deleted := 0 }
  else
    let frame ← TxM.read (fun lake => readFiles lake.content files)
    let kept := frame.filter (fun row => !absent scopes authoritative row)
    if frame.length - kept.length = 0 then
      return { retained := files, replacement := none, deleted := 0 }
    else
      let rows := kept.map kind.select
      let path := DataPath.release year (.delete scopes authoritative)
      TxM.tx (fun lake => .ok ((), lake.write path rows))
      return { retained := [], replacement := some (releaseEntry path year rows),
               deleted := frame.length - kept.length }

/-- `delete_snapshot_absences` of a scope without a native layout. -/
def deleteSnapshotAbsences (scope : Scope) (scopes : List SnapshotScope)
    (authoritative : Finset (String × String)) : TxM Lake String Nat := do
  if scopes = [] then return 0
  else
    let previous ← TxM.read (fun lake => .ok lake.currentFiles)
    let outcomes ← TxM.forEach (deleteYear scope.kind scopes authoritative previous)
      (orderBy id (previous.map FileEntry.year).dedup)
    let deleted := (outcomes.map DeletedYear.deleted).sum
    if deleted = 0 then return 0
    else
      publish scope (orderBy FileEntry.year
        (outcomes.flatMap DeletedYear.retained ++ outcomes.filterMap DeletedYear.replacement))
      return deleted

/-! ## Calls -/

/-- The arguments of one call, and the time at which an upsert normalises its rows. -/
inductive Call where
  | upsert (now : String) (rows : List Row)
  | delete (scopes : List SnapshotScope) (authoritative : Finset (String × String))

def Call.run (scope : Scope) : Call → TxM Lake String Unit
  | .upsert now rows => do
    let _ ← upsertRows scope now rows
  | .delete scopes authoritative => do
    let _ ← deleteSnapshotAbsences scope scopes authoritative

/-- The lake after a call that ended, with a result or with an error. -/
def Lake.after (scope : Scope) (lake : Lake) (call : Call) : Lake := (call.run scope lake).state

/-- The rows that the current manifest makes visible. -/
def Lake.visibleRows (lake : Lake) : List Row :=
  lake.currentFiles.flatMap (fun entry => (lake.content entry.path).getD [])

end LocalPlatform.Market
