import LocalPlatform.DataFiles.FactorFile
import LocalPlatform.Lib.StepTables

/-!
# What a factor file says

* `linesFrom_changes`: the rows whose factor changes get a line each.
* `fileRows_text` reads a file back: the rows of its lines, and the last one.
* The line of a change has the date of the change and not that of the day before, so a row that is
  no change is given the factor of the row after it.
* `factorFile_sound_iff`: the file means what the rows say where this makes no difference, and
  passes the validation where no number of it is rounded to zero.
-/

namespace LocalPlatform.DataFiles

open Dates DateTexts Decimals Results
open StepTables Tables

/-! ## The lines of the changes -/

def lineOf (prices : List (Date × ℚ)) (latest : ℚ) (row : Date × ℚ) : FactorLine where
  date := row.1
  priceFactor := row.2 / latest
  referencePrice := (previousClose prices row.1).getD 1

def firstLine (latest : ℚ) (row : Date × ℚ) : FactorLine where
  date := row.1
  priceFactor := row.2 / latest
  referencePrice := 1

section Lines

variable {prices : List (Date × ℚ)} {require : Bool} {latest : ℚ}

theorem linesFrom_changes (rows : List (Date × ℚ)) : ∀ {previous : ℚ} {lines : List FactorLine},
    linesFrom prices require latest (some previous) rows = .ok lines →
      lines = (changes sameFactor (some previous) rows).map (lineOf prices latest) := by
  induction rows with
  | nil =>
    intro previous lines h
    exact (Except.ok.inj h).symm
  | cons row rest ih =>
    intro previous lines h
    rw [linesFrom] at h
    rw [changes]
    by_cases hsame : sameFactor row.2 previous
    · rw [if_pos hsame] at h ⊢
      exact ih h
    · rw [if_neg hsame] at h ⊢
      obtain ⟨_, h⟩ := guard_ok h
      obtain ⟨later, hlater, rfl⟩ := map_ok h
      rw [ih hlater]
      rfl

theorem linesFrom_first {first : Date × ℚ} {rest : List (Date × ℚ)} {lines : List FactorLine}
    (h : linesFrom prices require latest none (first :: rest) = .ok lines) :
    lines = firstLine latest first ::
      (changes sameFactor (some first.2) rest).map (lineOf prices latest) := by
  obtain ⟨later, hlater, rfl⟩ := map_ok h
  rw [linesFrom_changes rest hlater]
  rfl

end Lines

/-! ## Reading the file back -/

/-- The row that is read from a line. -/
def FactorLine.row (line : FactorLine) : FileRow where
  date := dateText line.date
  priceFactor := roundTo 10 line.priceFactor
  splitFactor := 1
  referencePrice := roundTo 10 line.referencePrice

def terminalLine : FactorLine where
  date := terminalDate
  priceFactor := 1
  referencePrice := 0

theorem terminalLine_row : terminalLine.row =
    { date := dateText terminalDate, priceFactor := 1, splitFactor := 1, referencePrice := 0 } := by
  have hzero : roundTo 10 0 = 0 := by simp [roundTo, roundEven]
  simp [FactorLine.row, terminalLine, hzero]

theorem strip_dateText (date : Date) : strip (dateText date) = dateText date :=
  strip_eq_self (fun _ hc => isSpace_of_isDigit (isDigit_dateText (List.mem_of_mem_head? hc)))
    (fun _ hc => isSpace_of_isDigit (isDigit_dateText (List.mem_of_mem_getLast? hc)))

section Text

variable {line : FactorLine}

theorem notMem_factorFields {mark : Char} (hdigit : mark.isDigit = false)
    (hnumeral : ∀ numeral : Numeral, mark ∉ numeral.text) :
    ∀ field ∈ [dateText line.date, (fixed 10 line.priceFactor).text, ['1'],
      (fixed 10 line.referencePrice).text], mark ∉ field := by
  intro field hfield
  simp only [List.mem_cons, List.not_mem_nil, or_false] at hfield
  rcases hfield with rfl | rfl | rfl | rfl
  · intro hdate
    rw [isDigit_dateText hdate] at hdigit
    cases hdigit
  · exact hnumeral _
  · intro hone
    rw [List.mem_singleton.mp hone] at hdigit
    exact absurd hdigit (by decide)
  · exact hnumeral _

theorem factorLine_eq : line.text = dateText line.date ++ ',' ::
    ((fixed 10 line.priceFactor).text ++ ',' :: '1' :: ',' ::
      (fixed 10 line.referencePrice).text) := by
  simp [FactorLine.text, List.intercalate, List.intersperse]

theorem newline_notMem_factorLine : '\n' ∉ line.text := by
  have hfields : ∀ field ∈ [dateText line.date, (fixed 10 line.priceFactor).text, ['1'],
      (fixed 10 line.referencePrice).text], '\n' ∉ field :=
    notMem_factorFields (by decide) newline_notMem_text
  simp only [List.forall_mem_cons] at hfields
  simp only [factorLine_eq, List.mem_append, List.mem_cons, not_or]
  exact ⟨hfields.1, by decide, hfields.2.1, by decide, by decide, by decide, hfields.2.2.2.1⟩

theorem readFactorLine_text (number : ℕ) (hfactor : 0 ≤ line.priceFactor)
    (hreference : 0 ≤ line.referencePrice) :
    readFactorLine number line.text = some (.ok line.row) := by
  have hblank : strip line.text ≠ [] := by
    have hdigit : ∀ c ∈ line.text.head?, isSpace c = false := by
      intro c hc
      rw [factorLine_eq, List.head?_append_of_ne_nil _ (dateText_ne_nil line.date)] at hc
      exact isSpace_of_isDigit (isDigit_dateText (List.mem_of_mem_head? hc))
    have hlast : ∀ c ∈ line.text.getLast?, isSpace c = false := by
      intro c hc
      have hsplit : line.text = (dateText line.date ++ ',' ::
          (fixed 10 line.priceFactor).text ++ [',', '1', ',']) ++
            (fixed 10 line.referencePrice).text := by
        simp [factorLine_eq]
      rw [hsplit, List.getLast?_append_of_ne_nil _ (text_ne_nil _)] at hc
      exact not_isSpace_text _ c (List.mem_of_mem_getLast? hc)
    rw [strip_eq_self hdigit hlast, factorLine_eq]
    simp
  have hfields : line.text.splitOn ',' = [dateText line.date, (fixed 10 line.priceFactor).text,
      ['1'], (fixed 10 line.referencePrice).text] :=
    List.splitOn_intercalate ',' (notMem_factorFields (by decide) comma_notMem_text)
      (List.cons_ne_nil _ _)
  have hone : readFloat ['1'] = some 1 := by decide +kernel
  have hstrip : strip ['1'] = ['1'] := by decide
  unfold readFactorLine
  rw [if_neg hblank, hfields]
  simp only [List.map_cons, List.map_nil, strip_dateText, strip_text, hstrip, readFloat_text, hone,
    fixed_value 10 hfactor, fixed_value 10 hreference]
  rfl

end Text

theorem readFactorLine_terminal (number : ℕ) :
    readFactorLine number terminalText = some (.ok terminalLine.row) := by
  have hblank : strip terminalText ≠ [] := by decide +kernel
  have hfields : (terminalText.splitOn ',').map strip = ["20501231".toList, "1.0000000000".toList,
      "1".toList, "0".toList] := by decide +kernel
  have hfactor : readFloat "1.0000000000".toList = some 1 := by decide +kernel
  have hone : readFloat "1".toList = some 1 := by decide +kernel
  have hzero : readFloat "0".toList = some 0 := by decide +kernel
  have hdate : "20501231".toList = dateText terminalDate := by decide +kernel
  unfold readFactorLine
  rw [if_neg hblank, hfields, terminalLine_row]
  simp only [hfactor, hone, hzero, hdate]

theorem readLines_items {items : List (List Char × FileRow)} (hne : items ≠ [])
    (h : ∀ item ∈ items, '\n' ∉ item.1 ∧
      ∀ number, readFactorLine number item.1 = some (.ok item.2)) :
    readLines (['\n'].intercalate (items.map Prod.fst) ++ ['\n']) =
      (items.zipIdx 1).map (fun item => (item.2, .ok item.1.2)) := by
  have hlines := @splitOn_lines (items.map Prod.fst) (by simpa using hne) (by
    intro line hline
    obtain ⟨item, hitem, rfl⟩ := List.mem_map.mp hline
    exact (h item hitem).1)
  have hblank : ∀ number, readFactorLine number [] = none := fun number => if_pos rfl
  unfold readLines
  rw [hlines, List.zipIdx_append, List.filterMap_append]
  simp only [List.zipIdx_singleton, List.filterMap_cons, hblank, Option.map_none,
    List.filterMap_nil, List.append_nil, List.zipIdx_map, List.filterMap_map]
  rw [← List.filterMap_eq_map]
  refine List.filterMap_congr (fun item hitem => ?_)
  have hin : item.1 ∈ items := List.fst_mem_of_mem_zipIdx hitem
  simp [(h item.1 hin).2]

theorem fileRows_items {items : List (List Char × FileRow)} (hne : items ≠ [])
    (h : ∀ item ∈ items, '\n' ∉ item.1 ∧
      ∀ number, readFactorLine number item.1 = some (.ok item.2)) :
    fileRows (['\n'].intercalate (items.map Prod.fst) ++ ['\n']) = items.map Prod.snd ∧
      ((readLines (['\n'].intercalate (items.map Prod.fst) ++ ['\n'])).flatMap lineErrors = [] ↔
        ∀ row ∈ items.map Prod.snd, 0 < row.priceFactor ∧ 0 < row.splitFactor) := by
  have hlines := readLines_items hne h
  have hitems : (items.zipIdx 1).map Prod.fst = items := List.zipIdx_map_fst 1 items
  constructor
  · unfold fileRows
    rw [hlines, List.filterMap_map]
    conv_rhs => rw [← hitems, List.map_map]
    rw [← List.filterMap_eq_map]
    rfl
  · rw [hlines, List.flatMap_eq_nil_iff]
    conv_rhs => rw [← hitems, List.map_map]
    simp only [List.forall_mem_map, Function.comp_apply, lineErrors, ite_eq_right_iff,
      List.cons_ne_nil, imp_false, not_or, not_le]

/-- The lines of a file, and the last one if it is written. -/
def allLines (last : Date) (lines : List FactorLine) : List FactorLine :=
  lines ++ if last ≠ terminalDate then [terminalLine] else []

def fileItems (last : Date) (lines : List FactorLine) : List (List Char × FileRow) :=
  lines.map (fun line => (line.text, line.row)) ++
    if last ≠ terminalDate then [(terminalText, terminalLine.row)] else []

section File

variable {rows : List (Date × ℚ)} {last : Date × ℚ} {lines : List FactorLine}

theorem fileRows_text (hlast : rows.getLast? = some last) (hne : lines ≠ [])
    (hnonneg : ∀ line ∈ lines, 0 ≤ line.priceFactor ∧ 0 ≤ line.referencePrice) :
    fileRows (factorText rows lines) = (allLines last.1 lines).map FactorLine.row ∧
      ((readLines (factorText rows lines)).flatMap lineErrors = [] ↔
        ∀ line ∈ allLines last.1 lines, 0 < roundTo 10 line.priceFactor) := by
  have htext : factorText rows lines =
      ['\n'].intercalate ((fileItems last.1 lines).map Prod.fst) ++ ['\n'] := by
    simp only [factorText, hlast, Option.any_some, decide_eq_true_eq, fileItems]
    split <;> simp [Function.comp_def]
  have hrows : (fileItems last.1 lines).map Prod.snd =
      (allLines last.1 lines).map FactorLine.row := by
    simp only [allLines, fileItems]
    split <;> simp [Function.comp_def]
  have hitems : ∀ item ∈ fileItems last.1 lines, '\n' ∉ item.1 ∧
      ∀ number, readFactorLine number item.1 = some (.ok item.2) := by
    intro item hitem
    rcases List.mem_append.mp hitem with hline | hterminal
    · obtain ⟨line, hin, rfl⟩ := List.mem_map.mp hline
      exact ⟨newline_notMem_factorLine, fun number =>
        readFactorLine_text number (hnonneg line hin).1 (hnonneg line hin).2⟩
    · split at hterminal
      · rw [List.mem_singleton.mp hterminal]
        exact ⟨by decide, readFactorLine_terminal⟩
      · exact absurd hterminal List.not_mem_nil
  have hread := fileRows_items (by simp [fileItems, hne]) hitems
  rw [← htext, hrows] at hread
  refine ⟨hread.1, hread.2.trans ?_⟩
  rw [List.forall_mem_map]
  exact forall₂_congr (fun line _ => and_iff_left (by norm_num [FactorLine.row]))

theorem appliedFactor_text (hlast : rows.getLast? = some last) (hne : lines ≠ [])
    (hnonneg : ∀ line ∈ lines, 0 ≤ line.priceFactor ∧ 0 ≤ line.referencePrice) (date : Date) :
    appliedFactor (factorText rows lines) date =
      applied ((allLines last.1 lines).map (fun line => (line.date, roundTo 10 line.priceFactor)))
        date := by
  unfold appliedFactor applied
  rw [(fileRows_text hlast hne hnonneg).1, List.find?_map, List.find?_map, Option.map_map,
    Option.map_map]
  have htest : ((fun row : FileRow =>
      (parseDateTime dateFormat row.date).any (fun found => date ≤ found.1)) ∘ FactorLine.row) =
        ((fun row : Date × ℚ => decide (date ≤ row.1)) ∘
          fun line : FactorLine => (line.date, roundTo 10 line.priceFactor)) := by
    funext line
    simp [FactorLine.row, parseDateTime_date]
  rw [htest]
  rfl

/-! ## Validation -/

theorem forall_zip_tail {α : Type} {R : α → α → Prop} : ∀ rows : List α,
    (∀ pair ∈ rows.zip rows.tail, R pair.1 pair.2) ↔ rows.IsChain R
  | [] => by simp
  | [row] => by simp
  | row :: next :: rest => by
    have htail := @forall_zip_tail α R (next :: rest)
    rw [List.tail_cons] at htail
    rw [List.tail_cons, List.zip_cons_cons, List.forall_mem_cons, htail, List.isChain_cons_cons]

theorem dateText_injective : Function.Injective dateText := by
  intro a b h
  have hdate := parseDateTime_date a
  rw [h, parseDateTime_date b] at hdate
  exact (congrArg Prod.fst (Option.some.inj hdate)).symm

/-- A line passes after another one: the factor is the same, it is the last line, or its reference
price is not rounded to zero. -/
def Passes (previous line : FactorLine) : Prop :=
  sameFactor (roundTo 10 line.priceFactor) (roundTo 10 previous.priceFactor) ∨
    line.date = terminalDate ∨ 0 < roundTo 10 line.referencePrice

theorem changeErrors_eq_nil {previous line : FactorLine} :
    changeErrors previous.row line.row = [] ↔ Passes previous line := by
  have hsplit : sameFactor 1 1 = true := by simp [sameFactor, tolerance]
  have hdate : line.row.date = dateText terminalDate ↔ line.date = terminalDate :=
    dateText_injective.eq_iff
  simp only [changeErrors, Passes, ite_eq_right_iff, List.cons_ne_nil, imp_false, ne_eq, hdate]
  simp only [FactorLine.row, hsplit, not_true_eq_false, or_false, not_and_or, not_not, not_le]

theorem validate_text (hlast : rows.getLast? = some last) (hne : lines ≠ [])
    (hnonneg : ∀ line ∈ lines, 0 ≤ line.priceFactor ∧ 0 ≤ line.referencePrice) :
    validateEquityFactorFile (some (factorText rows lines)) = [] ↔
      (∀ line ∈ allLines last.1 lines, 0 < roundTo 10 line.priceFactor) ∧
        (allLines last.1 lines).IsChain Passes := by
  obtain ⟨hrows, herrors⟩ := fileRows_text hlast hne hnonneg
  unfold validateEquityFactorFile
  rw [List.append_eq_nil_iff, herrors, List.flatMap_eq_nil_iff, hrows]
  refine and_congr_right (fun _ => ?_)
  rw [@forall_zip_tail _ (fun a b => changeErrors a b = []), List.isChain_map]
  exact List.IsChain.iff (fun _ _ => changeErrors_eq_nil)

end File

/-! ## The input -/

structure AdjustmentRow where
  date : Date
  factor : ℚ
  factor_pos : 0 < factor

def AdjustmentRow.raw (row : AdjustmentRow) : FactorRow where
  tradeDate := some row.date
  date := none
  adjFactor := some row.factor
  factor := none

def inputRows (rows : List AdjustmentRow) : List (Date × ℚ) :=
  orderBy Prod.fst (rows.map (fun row => (row.date, row.factor)))

def lastFactor (rows : List (Date × ℚ)) : ℚ := (rows.getLast?.map Prod.snd).getD 1

theorem readFactors_raw (rows : List AdjustmentRow) :
    readFactors (rows.map AdjustmentRow.raw) = .ok (rows.map (fun row => (row.date, row.factor))) := by
  induction rows with
  | nil => rfl
  | cons row rest ih =>
    have hpos := row.factor_pos
    have hfactor : row.raw.rawFactor = some row.factor := by
      simp [FactorRow.rawFactor, AdjustmentRow.raw, hpos.ne']
    have hdate : row.raw.tradeDate.or row.raw.date = some row.date := rfl
    rw [List.map_cons, readFactors, hdate, hfactor]
    dsimp only
    rw [if_neg (not_le.mpr hpos), ih]
    rfl

variable {rows : List AdjustmentRow}

theorem inputRows_order (h : Unique AdjustmentRow.date rows) :
    (inputRows rows).Pairwise (fun a b => a.1 < b.1) := by
  apply orderBy_strict
  show ((rows.map (fun row => (row.date, row.factor))).map Prod.fst).Nodup
  rw [List.map_map]
  exact h

theorem inputRows_pos : ∀ row ∈ inputRows rows, 0 < row.2 := by
  intro row hrow
  obtain ⟨source, _, rfl⟩ := List.mem_map.mp (mem_orderBy.mp hrow)
  exact source.factor_pos

section Smooth

theorem smoothFrom_dates (rows : List (Date × ℚ)) : ∀ previous : ℚ,
    (smoothFrom previous rows).map Prod.fst = rows.map Prod.fst := by
  induction rows with
  | nil =>
    intro previous
    rfl
  | cons row rest ih =>
    intro previous
    cases rest with
    | nil => rfl
    | cons next more =>
      rw [smoothFrom, List.map_cons, ih]
      rfl

theorem smoothFrom_last (rows : List (Date × ℚ)) : ∀ previous : ℚ,
    (smoothFrom previous rows).getLast? = rows.getLast? := by
  induction rows with
  | nil =>
    intro previous
    rfl
  | cons row rest ih =>
    intro previous
    cases rest with
    | nil => rfl
    | cons next more =>
      rw [smoothFrom, List.getLast?_cons, ih, List.getLast?_cons_cons, List.getLast?_cons]
      rfl

theorem smoothFrom_pos (rows : List (Date × ℚ)) : ∀ previous : ℚ, 0 < previous →
    (∀ row ∈ rows, 0 < row.2) → ∀ row ∈ smoothFrom previous rows, 0 < row.2 := by
  induction rows with
  | nil =>
    intro previous _ hpos
    exact hpos
  | cons row rest ih =>
    intro previous hprevious hpos
    obtain ⟨hrow, hrest⟩ := List.forall_mem_cons.mp hpos
    cases rest with
    | nil => exact hpos
    | cons next more =>
      have hkept : 0 < if transient previous row.2 next.2 then previous else row.2 := by
        split
        · exact hprevious
        · exact hrow
      rw [smoothFrom]
      exact List.forall_mem_cons.mpr ⟨hkept, ih _ hkept hrest⟩

variable {rows : List (Date × ℚ)}

theorem smooth_dates : (smooth rows).map Prod.fst = rows.map Prod.fst := by
  cases rows with
  | nil => rfl
  | cons row rest => exact congrArg (row.1 :: ·) (smoothFrom_dates rest row.2)

theorem smooth_last : (smooth rows).getLast? = rows.getLast? := by
  cases rows with
  | nil => rfl
  | cons row rest => rw [smooth, List.getLast?_cons, smoothFrom_last, ← List.getLast?_cons]

theorem smooth_pos (h : ∀ row ∈ rows, 0 < row.2) : ∀ row ∈ smooth rows, 0 < row.2 := by
  cases rows with
  | nil => exact h
  | cons row rest =>
    obtain ⟨hrow, hrest⟩ := List.forall_mem_cons.mp h
    exact List.forall_mem_cons.mpr ⟨hrow, smoothFrom_pos rest row.2 hrow hrest⟩

theorem smooth_order (h : rows.Pairwise (fun a b => a.1 < b.1)) :
    (smooth rows).Pairwise (fun a b => a.1 < b.1) := by
  have hdates : (rows.map Prod.fst).Pairwise (· < ·) := List.pairwise_map.mpr h
  rw [← smooth_dates, List.pairwise_map] at hdates
  exact hdates

end Smooth

theorem previousClose_nonneg (prices : List PriceRow) (date : Date) :
    0 ≤ (previousClose (readPrices prices) date).getD 1 := by
  unfold previousClose
  cases hlast : ((readPrices prices).takeWhile (fun price => price.1 < date)).getLast? with
  | none => exact zero_le_one
  | some price =>
    have hmem : price ∈ readPrices prices :=
      (List.takeWhile_sublist _).subset (List.mem_of_getLast? hlast)
    obtain ⟨row, _, hrow⟩ := List.mem_filterMap.mp (mem_orderBy.mp hmem)
    split at hrow
    · split at hrow
      · next hpos =>
        rw [← Option.some.inj hrow]
        exact hpos.le
      · cases hrow
    · cases hrow

/-! ## The meaning of the file -/

/-- The file gives each row its factor over the last one, to ten places; and it passes the
validation if reference prices are required. -/
structure FactorFileSound (rows : List (Date × ℚ)) (latest : ℚ) (require : Bool)
    (text : List Char) : Prop where
  applied : ∀ row ∈ rows, appliedFactor text row.1 = some (roundTo 10 (row.2 / latest))
  accepted : require → validateEquityFactorFile (some text) = []

/-- A row that is no change has the factor of the row after it, to ten places, and nothing that
counts is rounded to zero. -/
structure FactorsKept (rows : List (Date × ℚ)) (latest : ℚ) (prices : List (Date × ℚ))
    (require : Bool) : Prop where
  segments : rows.IsChain (fun a b =>
    a ∈ changes sameFactor none rows ∨ roundTo 10 (a.2 / latest) = roundTo 10 (b.2 / latest))
  last : ∀ last ∈ rows.getLast?, last ∈ changes sameFactor none rows ∨ last.1 < terminalDate
  factors : require → ∀ row ∈ changes sameFactor none rows, 1 / 2 < row.2 / latest * 10 ^ 10
  references : require → (changes sameFactor none rows).IsChain (fun a b =>
    sameFactor (roundTo 10 (b.2 / latest)) (roundTo 10 (a.2 / latest)) ∨ b.1 = terminalDate ∨
      1 / 2 < (previousClose prices b.1).getD 1 * 10 ^ 10)

section Meaning

variable {rows : List (Date × ℚ)} {last : Date × ℚ} {prices : List (Date × ℚ)} {first : Date × ℚ}
  {rest : List (Date × ℚ)}

theorem allLines_written {latest : ℚ} (stop : Date) :
    (allLines stop (firstLine latest first ::
        (changes sameFactor (some first.2) rest).map (lineOf prices latest))).map
          (fun line => (line.date, roundTo 10 line.priceFactor)) =
      writtenRows sameFactor (fun factor => roundTo 10 (factor / latest)) (terminalDate, 1) none
        (first :: rest) stop := by
  unfold allLines writtenRows
  rw [List.map_append, changes, List.map_cons, List.map_cons, List.map_map]
  congr 1
  split
  · simp [terminalLine]
  · rfl

theorem allLines_pos {latest : ℚ} (stop : Date) :
    (∀ line ∈ allLines stop (firstLine latest first ::
        (changes sameFactor (some first.2) rest).map (lineOf prices latest)),
          0 < roundTo 10 line.priceFactor) ↔
      ∀ row ∈ changes sameFactor none (first :: rest), 1 / 2 < row.2 / latest * 10 ^ 10 := by
  have hmap (lines : List FactorLine) : (∀ line ∈ lines, 0 < roundTo 10 line.priceFactor) ↔
      ∀ row ∈ lines.map (fun line => (line.date, roundTo 10 line.priceFactor)), 0 < row.2 := by
    rw [List.forall_mem_map]
  rw [hmap, allLines_written]
  unfold writtenRows
  rw [List.forall_mem_append, List.forall_mem_map]
  simp only [roundTo_pos_iff]
  refine and_iff_left ?_
  split
  · simp
  · simp

theorem allLines_pass {latest : ℚ} {later : List (Date × ℚ)} (stop : Date) :
    (allLines stop (firstLine latest first :: later.map (lineOf prices latest))).IsChain Passes ↔
      (first :: later).IsChain (fun a b => Passes (lineOf prices latest a) (lineOf prices latest b)) := by
  have hterminal : ∀ line, Passes line terminalLine := fun line => .inr (.inl rfl)
  have hlines : (firstLine latest first :: later.map (lineOf prices latest)).IsChain Passes ↔
      (first :: later).IsChain
        (fun a b => Passes (lineOf prices latest a) (lineOf prices latest b)) := by
    rw [← List.isChain_map (lineOf prices latest), List.map_cons]
    cases later with
    | nil => simp
    | cons next more =>
      rw [List.map_cons, List.isChain_cons_cons, List.isChain_cons_cons]
      exact Iff.rfl
  rw [← hlines]
  unfold allLines
  split
  · rw [List.isChain_append]
    simp [hterminal]
  · rw [List.append_nil]

theorem factorText_sound_iff {require : Bool}
    (horder : (first :: rest).Pairwise (fun a b => a.1 < b.1))
    (hpos : ∀ row ∈ first :: rest, 0 < row.2) (hlast : (first :: rest).getLast? = some last)
    (hprices : ∀ date, 0 ≤ (previousClose prices date).getD 1) :
    FactorFileSound (first :: rest) last.2 require (factorText (first :: rest)
        (firstLine last.2 first ::
          (changes sameFactor (some first.2) rest).map (lineOf prices last.2))) ↔
      FactorsKept (first :: rest) last.2 prices require := by
  have hlatest : 0 < last.2 := hpos last (List.mem_of_getLast? hlast)
  have hquotient : ∀ row ∈ first :: rest, 0 ≤ row.2 / last.2 :=
    fun row hrow => div_nonneg (hpos row hrow).le hlatest.le
  have hnonneg : ∀ line ∈ firstLine last.2 first ::
      (changes sameFactor (some first.2) rest).map (lineOf prices last.2),
        0 ≤ line.priceFactor ∧ 0 ≤ line.referencePrice := by
    refine List.forall_mem_cons.mpr ⟨⟨hquotient first List.mem_cons_self, zero_le_one⟩, ?_⟩
    rw [List.forall_mem_map]
    intro row hrow
    have hin := List.mem_cons_of_mem first ((changes_sublist rest (some first.2)).subset hrow)
    exact ⟨hquotient row hin, hprices row.1⟩
  have hone : roundTo 10 (last.2 / last.2) = (1 : ℚ) := by
    rw [div_self hlatest.ne', roundTo_one]
  -- the factors that are applied
  have happlied : (∀ row ∈ first :: rest, appliedFactor (factorText (first :: rest)
      (firstLine last.2 first ::
        (changes sameFactor (some first.2) rest).map (lineOf prices last.2))) row.1 =
          some (roundTo 10 (row.2 / last.2))) ↔
      (first :: rest).IsChain (fun a b => a ∈ changes sameFactor none (first :: rest) ∨
        roundTo 10 (a.2 / last.2) = roundTo 10 (b.2 / last.2)) ∧
          (last ∈ changes sameFactor none (first :: rest) ∨ last.1 < terminalDate) := by
    simp only [appliedFactor_text hlast (List.cons_ne_nil _ _) hnonneg, allLines_written]
    exact applied_iff (first :: rest) none horder hlast hone
  -- the validation
  have haccepted : validateEquityFactorFile (some (factorText (first :: rest)
      (firstLine last.2 first ::
        (changes sameFactor (some first.2) rest).map (lineOf prices last.2)))) = [] ↔
      (∀ row ∈ changes sameFactor none (first :: rest), 1 / 2 < row.2 / last.2 * 10 ^ 10) ∧
        (changes sameFactor none (first :: rest)).IsChain (fun a b =>
          sameFactor (roundTo 10 (b.2 / last.2)) (roundTo 10 (a.2 / last.2)) ∨
            b.1 = terminalDate ∨ 1 / 2 < (previousClose prices b.1).getD 1 * 10 ^ 10) := by
    rw [validate_text hlast (List.cons_ne_nil _ _) hnonneg, allLines_pass, allLines_pos]
    exact and_congr_right (fun _ => List.IsChain.iff (fun a b => by
      simp only [Passes, lineOf, roundTo_pos_iff]))
  constructor
  · intro h
    obtain ⟨hsegments, hend⟩ := happlied.mp h.applied
    refine ⟨hsegments, ?_, fun hrequire => (haccepted.mp (h.accepted hrequire)).1,
      fun hrequire => (haccepted.mp (h.accepted hrequire)).2⟩
    intro found hfound
    rw [hlast, Option.mem_some] at hfound
    exact hfound ▸ hend
  · intro h
    exact ⟨happlied.mpr ⟨h.segments, h.last last hlast⟩,
      fun hrequire => haccepted.mpr ⟨h.factors hrequire, h.references hrequire⟩⟩

end Meaning

theorem writeEquityFactorFile_raw {prices : List PriceRow} {require : Bool} {text : List Char}
    (hunique : Unique AdjustmentRow.date rows)
    (h : writeEquityFactorFile (rows.map AdjustmentRow.raw) prices require = .ok text) :
    ∃ first rest last, smooth (inputRows rows) = first :: rest ∧
      (first :: rest).getLast? = some last ∧
      text = factorText (first :: rest) (firstLine last.2 first ::
        (changes sameFactor (some first.2) rest).map (lineOf (readPrices prices) last.2)) := by
  have hclean : cleanRows (rows.map (fun row => (row.date, row.factor))) = inputRows rows := by
    unfold cleanRows
    rw [uniqueLast_of_unique]
    · rfl
    · show ((rows.map (fun row => (row.date, row.factor))).map Prod.fst).Nodup
      rw [List.map_map]
      exact hunique
  unfold writeEquityFactorFile at h
  rw [readFactors_raw] at h
  have h : writeRows (smooth (cleanRows (rows.map (fun row => (row.date, row.factor)))))
      (readPrices prices) require = .ok text := h
  rw [hclean] at h
  unfold writeRows at h
  cases hrows : smooth (inputRows rows) with
  | nil =>
    rw [hrows] at h
    cases h
  | cons first rest =>
    rw [hrows] at h
    cases hlast : (first :: rest).getLast? with
    | none =>
      rw [hlast] at h
      cases h
    | some last =>
      rw [hlast] at h
      obtain ⟨_, h⟩ := guard_ok h
      obtain ⟨lines, hlines, htext⟩ := bind_ok h
      refine ⟨first, rest, last, rfl, hlast, ?_⟩
      rw [← linesFrom_first hlines]
      exact (Except.ok.inj htext).symm

def sampleRow (day : ℕ) (factor : ℚ) (hfactor : 0 < factor) (hday : IsDate 2024 1 day) :
    AdjustmentRow where
  date := ⟨2024, 1, day, hday⟩
  factor := factor
  factor_pos := hfactor

def sampleClose (day : ℕ) (close : ℚ) (hday : IsDate 2024 1 day) : PriceRow where
  tradeDate := some ⟨2024, 1, day, hday⟩
  date := none
  close := some close

def samplePrices : List PriceRow :=
  [sampleClose 2 10 (by decide), sampleClose 3 (21 / 2) (by decide), sampleClose 4 5 (by decide)]

def dailyChanges : List AdjustmentRow :=
  [sampleRow 3 2 (by norm_num) (by decide), sampleRow 2 1 (by norm_num) (by decide),
    sampleRow 4 4 (by norm_num) (by decide)]

/-- The second row has the factor of the first one. -/
def laterChange : List AdjustmentRow :=
  [sampleRow 2 1 (by norm_num) (by decide), sampleRow 3 1 (by norm_num) (by decide),
    sampleRow 4 2 (by norm_num) (by decide)]

end LocalPlatform.DataFiles
