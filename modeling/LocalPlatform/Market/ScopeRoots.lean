import LocalPlatform.Lib.FileTree
import LocalPlatform.Lib.Joined
import LocalPlatform.Market.Lake

/-!
# The directories of the datasets

* `datasetRoot` is the path of a scope's dataset: its fields joined as they are, and its source as
  a safe segment.  `directory` is where the path leads.
* A `Disk` holds the lake of each directory, and a call on a scope changes the lake of its directory
  alone.
* `isolated_iff`: no call on a scope is seen through another one if the segments of their sources
  differ or the paths of their other fields lead to different places, and only then.
-/

namespace LocalPlatform.Market.ScopeRoots

open Paper Tables
open Transaction Transaction.TxM

/-! ## Scopes -/

/-- `_clean` -/
def clean (value : Option String) (default : String) : String :=
  let text := match value with
    | none => default
    | some text => if text = "" then default else text
  if lower (strip text) = "" then default else lower (strip text)

/-- The arguments of `_scope`. -/
structure RawScope where
  kind : Kind
  assetClass : String
  market : String
  venue : Option String
  resolution : String
  dataType : String
  adjust : String
  source : String

/-- `_scope` -/
def scopeOf (raw : RawScope) : Scope where
  kind := raw.kind
  assetClass := clean raw.assetClass "equity"
  market := clean raw.market "china"
  venue := clean raw.venue (clean raw.market "china")
  resolution := clean raw.resolution "daily"
  dataType := clean raw.dataType "trade"
  adjust := clean raw.adjust "raw"
  source := clean raw.source "tushare"

/-! ## Paths -/

abbrev Md5 := List Char → Fin 32 → Fin 16

/-- `hexdigest()[:6]` -/
def sixDigits (md5 : Md5) (text : List Char) : List Char :=
  (List.finRange 6).map (fun i => Nat.digitChar (md5 text (i.castLE (by decide))).val)

/-- The text of a source with nothing in it that a file system refuses. -/
def underscored (value : String) : List Char :=
  let text := lower (strip value)
  (if text = "" then "unknown".toList else text.toList).map (fun c =>
    if c ∈ [':', '/', '\\', '*', '?', '"', '<', '>', '|'] then '_' else c)

/-- `_filesystem_segment` -/
def filesystemSegment (md5 : Md5) (value : String) : List Char :=
  let text := underscored value
  if 10 < text.length then text.take 1 ++ ['_'] ++ sixDigits md5 text else text

def kindText : Kind → List Char
  | .bars => "bars".toList
  | .tradeStatus => "trade_status".toList
  | .adjustmentFactor => "adjustment_factor".toList
  | .dailyBasic => "daily_basic".toList

/-- The fields of `dataset_key` before the source. -/
def namedFields (scope : Scope) : List (List Char) :=
  (if scope.kind = .bars then [] else ["kind=".toList ++ kindText scope.kind]) ++
    ["asset_class=".toList ++ scope.assetClass.toList, "market=".toList ++ scope.market.toList,
      "venue=".toList ++ scope.venue.toList, "resolution=".toList ++ scope.resolution.toList,
      "data_type=".toList ++ scope.dataType.toList, "adjust=".toList ++ scope.adjust.toList]

def sourceField (segment : List Char) : List Char :=
  ['s', 'o', 'u', 'r', 'c', 'e', '='] ++ segment

/-- `dataset_key` of the scope with a safe source. -/
def safeKey (md5 : Md5) (scope : Scope) : List Char :=
  Joined.join '/' (namedFields scope ++ [sourceField (filesystemSegment md5 scope.source)])

/-- The parts of `Path(text)`. -/
def meaningful (parts : List (List Char)) : List (List Char) :=
  parts.filter (fun part => part ≠ [] ∧ part ≠ ['.'])

def pathParts (text : List Char) : List (List Char) := meaningful (text.splitOn '/')

/-- `dataset_root` below the directory of the lake. -/
def datasetRoot (md5 : Md5) (scope : Scope) : List (List Char) := pathParts (safeKey md5 scope)

/-- A part that goes up, or the name of a directory. -/
def turn (part : List Char) : Option (List Char) := if part = ['.', '.'] then none else some part

/-- Where the parts of a path lead to from a directory. -/
def lead (base : List (List Char)) (parts : List (List Char)) : List (List Char) :=
  FileTrees.resolve base (parts.map turn)

def directory (md5 : Md5) (base : List (List Char)) (scope : Scope) : List (List Char) :=
  lead base (datasetRoot md5 scope)

/-- The directory that the fields before the source spell. -/
def parentDirectory (base : List (List Char)) (scope : Scope) : List (List Char) :=
  lead base (meaningful (Joined.pieces '/' (namedFields scope)))

theorem slash_not_mem_sixDigits (md5 : Md5) (text : List Char) : '/' ∉ sixDigits md5 text := by
  intro h
  obtain ⟨i, -, hi⟩ := List.mem_map.mp h
  have hdigit : ∀ n : Fin 16, Nat.digitChar n.val ≠ '/' := by decide
  exact hdigit _ hi

theorem slash_not_mem_underscored (value : String) : '/' ∉ underscored value := by
  intro h
  obtain ⟨c, -, hc⟩ := List.mem_map.mp h
  split at hc
  · cases hc
  · next hsafe =>
    rw [hc] at hsafe
    exact hsafe (by decide)

theorem slash_not_mem_filesystemSegment (md5 : Md5) (value : String) :
    '/' ∉ filesystemSegment md5 value := by
  have htext := slash_not_mem_underscored value
  unfold filesystemSegment
  dsimp only
  split
  · intro h
    rcases List.mem_append.mp h with hhead | hdigits
    · rcases List.mem_append.mp hhead with hfirst | hmark
      · exact htext (List.mem_of_mem_take hfirst)
      · cases List.mem_singleton.mp hmark
    · exact slash_not_mem_sixDigits md5 _ hdigits
  · exact htext

theorem datasetRoot_eq (md5 : Md5) (scope : Scope) :
    datasetRoot md5 scope = meaningful (Joined.pieces '/' (namedFields scope)) ++
      [sourceField (filesystemSegment md5 scope.source)] := by
  have hfree : '/' ∉ sourceField (filesystemSegment md5 scope.source) := by
    intro h
    rcases List.mem_append.mp h with hname | hsegment
    · exact absurd hname (by decide)
    · exact slash_not_mem_filesystemSegment md5 _ hsegment
  have hpieces : Joined.pieces '/' [sourceField (filesystemSegment md5 scope.source)] =
      [sourceField (filesystemSegment md5 scope.source)] := by
    simp [Joined.pieces, List.splitOn_eq_singleton hfree]
  unfold datasetRoot pathParts safeKey
  rw [Joined.splitOn_join (by simp), Joined.pieces_append, hpieces]
  unfold meaningful
  rw [List.filter_append]
  simp [sourceField]

theorem directory_eq (md5 : Md5) (base : List (List Char)) (scope : Scope) :
    directory md5 base scope =
      parentDirectory base scope ++ [sourceField (filesystemSegment md5 scope.source)] := by
  have hturn : turn (sourceField (filesystemSegment md5 scope.source)) =
      some (sourceField (filesystemSegment md5 scope.source)) := by
    simp [turn, sourceField]
  unfold directory parentDirectory lead FileTrees.resolve
  rw [datasetRoot_eq, List.map_append, List.foldl_append, List.map_singleton, hturn]
  rfl

theorem directory_inj {md5 : Md5} {base : List (List Char)} {a b : Scope} :
    directory md5 base a = directory md5 base b ↔
      parentDirectory base a = parentDirectory base b ∧
        filesystemSegment md5 a.source = filesystemSegment md5 b.source := by
  rw [directory_eq, directory_eq]
  constructor
  · intro h
    obtain ⟨hparent, hsource⟩ := List.append_inj' h (by rw [List.length_singleton,
      List.length_singleton])
    have hfields := List.singleton_inj.mp hsource
    unfold sourceField at hfields
    exact ⟨hparent, List.append_cancel_left hfields⟩
  · rintro ⟨hparent, hsegment⟩
    rw [hparent, hsegment]

/-! ## The lakes of a disk -/

abbrev Disk := List (List Char) → Lake

section Disks

variable (md5 : Md5) (base : List (List Char))

def afterCalls (scope : Scope) (disk : Disk) (calls : List Call) : Disk :=
  calls.foldl (fun disk call => Function.update disk (directory md5 base scope)
    (Lake.after scope (disk (directory md5 base scope)) call)) disk

/-- `query_rows` of every column of a scope. -/
def queryRows (scope : Scope) (disk : Disk) : List Row :=
  (disk (directory md5 base scope)).visibleRows

/-- The scopes have different roots, and no calls on the first one change what is read of the
second one. -/
def Isolated (a b : Scope) : Prop :=
  datasetRoot md5 a ≠ datasetRoot md5 b ∧ ∀ (disk : Disk) (calls : List Call),
    queryRows md5 base b (afterCalls md5 base a disk calls) = queryRows md5 base b disk

theorem afterCalls_other {a : Scope} {place : List (List Char)}
    (hplace : place ≠ directory md5 base a) (calls : List Call) :
    ∀ disk : Disk, afterCalls md5 base a disk calls place = disk place := by
  induction calls with
  | nil => exact fun disk => rfl
  | cons call calls ih =>
    intro disk
    unfold afterCalls
    rw [List.foldl_cons]
    exact (ih _).trans (Function.update_of_ne hplace _ _)

end Disks

/-! ## A row that is seen -/

def emptyLake : Lake where
  content := fun _ => none
  legacy := []
  manifest := none

def plainRow : Row := [("symbol", .text "600000"), ("trade_date", .text "2024-01-02")]

theorem normaliseRow_plainRow (scope : Scope) (now : String) :
    ∃ row, normaliseRow scope now plainRow = .ok row ∧ tradeDate row = "2024-01-02" := by
  have hsymbol : upper (beforeMark '.' (firstTruthy plainRow ["symbol", "code", "ts_code"])) =
      "600000" := by decide +kernel
  have hdate : isoDate (firstTruthy plainRow ["trade_date", "tradeDate", "date", "timestamp"]) =
      .ok "2024-01-02" := by rfl
  refine ⟨scope.kind.columns.map (fun column => (column,
    ((assigned scope now plainRow "600000" "2024-01-02").lookup column).getD
      (plainRow.get column))), ?_, ?_⟩
  · unfold normaliseRow
    rw [hsymbol, hdate]
    rfl
  · unfold tradeDate
    rw [get_map_columns _ (by cases scope.kind <;> decide)]
    rfl

theorem after_upsert (scope : Scope) (lake : Lake) (now : String) (rows : List Row) :
    Lake.after scope lake (.upsert now rows) = (upsertRows scope now rows lake).state := by
  show ((upsertRows scope now rows >>= fun _ => pure ()) lake).state = _
  cases h : (upsertRows scope now rows lake).value with
  | ok result =>
    rw [bind_ok h]
    rfl
  | error message => rw [bind_error h]

theorem tx_of_ok {f : Lake → Except String (FileEntry × Lake)} {s t : Lake} {a : FileEntry}
    (h : f s = .ok (a, t)) : TxM.tx f s = ⟨[t], t, .ok a⟩ := by
  unfold TxM.tx
  rw [h]

theorem writeYear_emptyLake (kind : Kind) {row : Row} {year : Nat}
    (hyear : yearOf (tradeDate row) = some year) :
    writeYear kind [] [row] year emptyLake =
      { commits := [emptyLake.write (upsertPath [row] year) [kind.select row]]
        state := emptyLake.write (upsertPath [row] year) [kind.select row]
        value := .ok (releaseEntry (upsertPath [row] year) year [kind.select row]) } := by
  have hrows : rowsOfYear [row] year = [row] := by simp [rowsOfYear, hyear]
  have hmerged : mergeRows kind [] [row] = [kind.select row] := by
    simp [mergeRows, uniqueLast, orderBy]
  unfold writeYear
  refine tx_of_ok ?_
  show (pure (_, emptyLake.write _ (mergeRows kind [] (rowsOfYear [row] year))) :
    Except String (FileEntry × Lake)) = _
  rw [hrows, hmerged]
  rfl

theorem visible_after_upsert (scope : Scope) (now : String) :
    (Lake.after scope emptyLake (.upsert now [plainRow])).visibleRows ≠ [] := by
  obtain ⟨row, hrow, hdate⟩ := normaliseRow_plainRow scope now
  have hprepared : normaliseRows scope now [plainRow] = .ok [row] := by
    unfold normaliseRows
    rw [List.mapM_cons, hrow]
    rfl
  have hyear : yearOf (tradeDate row) = some 2024 := by
    rw [hdate]
    decide +kernel
  have hyears : yearsOf [row] = .ok [2024] := by
    unfold yearsOf
    rw [List.mapM_cons, hyear]
    rfl
  have hwrite := writeYear_emptyLake scope.kind hyear
  have hloop : (TxM.forEach (writeYear scope.kind emptyLake.currentFiles [row]) [2024]
      emptyLake).value = .ok [releaseEntry (upsertPath [row] 2024) 2024 [scope.kind.select row]] :=
    forEach_cons_ok_iff.mpr ⟨_, [], by
      show (writeYear scope.kind [] [row] 2024 emptyLake).value = _
      rw [hwrite], rfl, rfl⟩
  have hstate : (TxM.forEach (writeYear scope.kind emptyLake.currentFiles [row]) [2024]
      emptyLake).state = emptyLake.write (upsertPath [row] 2024) [scope.kind.select row] := by
    rw [forEach_cons_state (by show (writeYear scope.kind [] [row] 2024 emptyLake).value = _
                               rw [hwrite])]
    show (writeYear scope.kind [] [row] 2024 emptyLake).state = _
    rw [hwrite]
  rw [after_upsert]
  unfold upsertRows
  rw [bind_ok hprepared, if_neg (List.cons_ne_nil row [])]
  dsimp only [TxM.read]
  rw [bind_ok hyears, bind_ok (m := TxM.read (fun lake : Lake => .ok lake.currentFiles)) rfl]
  dsimp only [TxM.read]
  rw [bind_ok hloop, hstate]
  have hfiles : orderBy FileEntry.year (emptyLake.currentFiles.filter (fun entry =>
      entry.year ∉ [2024]) ++
        [releaseEntry (upsertPath [row] 2024) 2024 [scope.kind.select row]]) =
      [releaseEntry (upsertPath [row] 2024) 2024 [scope.kind.select row]] := rfl
  rw [hfiles, bind_ok (m := publish _ _) rfl]
  unfold Lake.visibleRows
  show [releaseEntry (upsertPath [row] 2024) 2024 [scope.kind.select row]].flatMap
    (fun entry => ((emptyLake.write (upsertPath [row] 2024) [scope.kind.select row]).content
      entry.path).getD []) ≠ []
  simp [Lake.write, releaseEntry]

/-! ## Isolation -/

/-- Calls on a scope are never seen through another one exactly if the paths of their fields lead to
different places or the segments of their sources differ. -/
theorem isolated_iff (md5 : Md5) (base : List (List Char)) (a b : Scope) :
    Isolated md5 base a b ↔ parentDirectory base a ≠ parentDirectory base b ∨
      filesystemSegment md5 a.source ≠ filesystemSegment md5 b.source := by
  rw [← not_and_or, ← directory_inj]
  constructor
  · rintro ⟨-, hcalls⟩ hsame
    have hseen := hcalls (fun _ => emptyLake) [.upsert "" [plainRow]]
    unfold queryRows at hseen
    rw [← hsame] at hseen
    refine visible_after_upsert a "" ?_
    have hafter : afterCalls md5 base a (fun _ => emptyLake) [.upsert "" [plainRow]]
        (directory md5 base a) = Lake.after a emptyLake (.upsert "" [plainRow]) := by
      unfold afterCalls
      rw [List.foldl_cons, List.foldl_nil, Function.update_self]
    rw [← hafter, hseen]
    rfl
  · intro hne
    constructor
    · intro hroot
      exact hne (by unfold directory; rw [hroot])
    · intro disk calls
      unfold queryRows
      rw [afterCalls_other md5 base (Ne.symm hne)]

def barsOf (source : String) : Scope :=
  scopeOf ⟨.bars, "equity", "china", none, "daily", "trade", "raw", source⟩

/-- One provider is written with a colon and the other with a slash. -/
theorem sources_share_root : barsOf "csv:bars" ≠ barsOf "csv/bars" ∧
    ¬ ∃ md5 base, Isolated md5 base (barsOf "csv:bars") (barsOf "csv/bars") := by
  constructor
  · decide +kernel
  · rintro ⟨md5, base, hroot, -⟩
    apply hroot
    have hsegment : filesystemSegment md5 (barsOf "csv:bars").source =
        filesystemSegment md5 (barsOf "csv/bars").source := by
      have htext : underscored (barsOf "csv:bars").source =
          underscored (barsOf "csv/bars").source := by decide +kernel
      unfold filesystemSegment
      rw [htext]
    have hfields : namedFields (barsOf "csv:bars") = namedFields (barsOf "csv/bars") := by
      decide +kernel
    rw [datasetRoot_eq, datasetRoot_eq, hsegment, hfields]

end LocalPlatform.Market.ScopeRoots
