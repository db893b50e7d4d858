import LocalPlatform.DataSync.ContentHash
import LocalPlatform.Lib.Joined

/-!
# The records of raw rows

* A record of a dataset is kept under the digest of the row's key fields, as texts that are joined
  by a bar; a row whose key fields are all blank has the digest of its content instead.
* `saveRaw` keeps the last row of each record key, and writes the records whose digest or date is
  not the stored one.
* `upserts_iff`: this is an upsert by the key fields themselves if different ones never give the
  same texts, nor texts that are the same pieces in other groups, and rows with blank key fields are
  equal where those are; and only then.
-/

namespace LocalPlatform.DataSync.RawRecords

open DataSync.ContentHash Tables

/-! ## Rows -/

/-- A row that has a content hash, with the bytes that it hashes. -/
structure RawRow where
  fields : List (String × Value)
  content : Bytes
  hcontent : contentBytes (.object fields) = some content

structure DatasetSpec where
  keyFields : List String
  dateField : Option String
  catalogDateField : Option String

/-- `spec.date_field or spec.catalog_date_field` -/
def DatasetSpec.storageDateField (spec : DatasetSpec) : Option String :=
  spec.dateField.or spec.catalogDateField

/-- Whether a value counts as true. -/
def truthy : Value → Bool
  | .null => false
  | .bool b => b
  | .int n => n ≠ 0
  | .float x => x ≠ .finite false 0 0 ∧ x ≠ .finite true 0 0
  | .text s => s ≠ ""
  | .list items => !items.isEmpty
  | .object fields => !fields.isEmpty

/-- `row.get(field)` -/
def RawRow.get (row : RawRow) (field : String) : Value := (row.fields.lookup field).getD .null

def naturalKey (spec : DatasetSpec) (row : RawRow) : List Value := spec.keyFields.map row.get

section Python

-- `str` is `str(value)` of a value that counts as true.
variable (str : Value → List Char)

/-- `str(value or "")` -/
def blankText (value : Value) : List Char := if truthy value then str value else []

/-- The texts that `_record_key` joins. -/
def keyTexts (spec : DatasetSpec) (row : RawRow) : List (List Char) :=
  (naturalKey spec row).map (blankText str)

/-- `not values or not any(values)` -/
def blank (spec : DatasetSpec) (row : RawRow) : Bool :=
  (keyTexts str spec row).all (fun text => text = [])

def keyBytes (spec : DatasetSpec) (row : RawRow) : Bytes :=
  if blank str spec row then row.content
  else Utf8.encode (Joined.join '|' (keyTexts str spec row))

/-- `_iso` -/
def iso (value : Value) : Option (List Char) :=
  let text := (Decimals.strip (blankText str value)).filter (fun c => c ≠ '-')
  if text.length < 8 ∨ ¬ (text.take 8).all Char.isDigit then none
  else some (text.take 4 ++ '-' :: (text.drop 4).take 2 ++ '-' :: (text.drop 6).take 2)

variable {Digest : Type} [DecidableEq Digest] (sha256 : Bytes → Digest)

/-- `_record_key` -/
def recordKey (spec : DatasetSpec) (row : RawRow) : Digest := sha256 (keyBytes str spec row)

/-! ## Records -/

/-- The columns of `provider_raw_records` that are compared. -/
structure Stored (Digest : Type) where
  contentSha256 : Digest
  businessDate : Option (List Char)
  deriving DecidableEq

abbrev Records (Digest : Type) := Digest → Option (Stored Digest)

def stored (spec : DatasetSpec) (row : RawRow) : Stored Digest where
  contentSha256 := sha256 row.content
  businessDate := spec.storageDateField.bind (fun field => iso str (row.get field))

/-- The row of each record key that a batch stores. -/
def prepared (spec : DatasetSpec) (rows : List RawRow) : List RawRow :=
  uniqueLast (recordKey str sha256 spec) rows

/-- The rows whose record is not the stored one. -/
def changedRows (spec : DatasetSpec) (existing : Records Digest) (rows : List RawRow) :
    List RawRow :=
  (prepared str sha256 spec rows).filter (fun row =>
    existing (recordKey str sha256 spec row) ≠ some (stored str sha256 spec row))

/-- `insert ... on conflict do update` of some rows. -/
def writeRows (spec : DatasetSpec) (records : Records Digest) (rows : List RawRow) :
    Records Digest :=
  rows.foldl (fun records row =>
    Function.update records (recordKey str sha256 spec row) (some (stored str sha256 spec row)))
    records

/-- `_save_raw`: the records afterwards, how many are new and how many have changed. -/
def saveRaw (assumeNew : Bool) (spec : DatasetSpec) (records : Records Digest)
    (rows : List RawRow) : Records Digest × ℕ × ℕ :=
  let existing := if assumeNew then fun _ => none else records
  let changed := changedRows str sha256 spec existing rows
  let inserted := changed.countP (fun row => existing (recordKey str sha256 spec row) = none)
  (writeRows str sha256 spec records changed, inserted, changed.length - inserted)

/-! ## What a batch writes -/

variable {str sha256} {spec : DatasetSpec} {records : Records Digest} {rows : List RawRow}

theorem writeRows_other {key : Digest} (h : ∀ row ∈ rows, recordKey str sha256 spec row ≠ key) :
    writeRows str sha256 spec records rows key = records key := by
  unfold writeRows
  induction rows generalizing records with
  | nil => rfl
  | cons row rows ih =>
    rw [List.foldl_cons, ih (fun other hother => h other (List.mem_cons_of_mem row hother)),
      Function.update_of_ne (h row (by simp)).symm]

theorem writeRows_self (hunique : Unique (recordKey str sha256 spec) rows) {row : RawRow}
    (hrow : row ∈ rows) : writeRows str sha256 spec records rows (recordKey str sha256 spec row) =
      some (stored str sha256 spec row) := by
  unfold writeRows
  induction rows generalizing records with
  | nil => cases hrow
  | cons first rows ih =>
    obtain ⟨hfirst, hrest⟩ := List.nodup_cons.mp hunique
    rw [List.foldl_cons]
    rcases List.mem_cons.mp hrow with rfl | hrow
    · have hne : ∀ other ∈ rows, recordKey str sha256 spec other ≠ recordKey str sha256 spec row := by
        intro other hother heq
        rw [← heq] at hfirst
        exact hfirst (List.mem_map_of_mem hother)
      exact (writeRows_other hne).trans (Function.update_self ..)
    · exact ih hrest hrow

theorem exists_prepared {row : RawRow} (hrow : row ∈ rows) :
    ∃ kept ∈ prepared str sha256 spec rows,
      recordKey str sha256 spec kept = recordKey str sha256 spec row :=
  List.mem_map.mp (mem_map_uniqueLast.mpr (List.mem_map_of_mem hrow))

theorem saveRaw_records (assumeNew : Bool) :
    (∀ row ∈ prepared str sha256 spec rows,
      (saveRaw str sha256 assumeNew spec records rows).1 (recordKey str sha256 spec row) =
        some (stored str sha256 spec row)) ∧
    ∀ key, (∀ row ∈ rows, recordKey str sha256 spec row ≠ key) →
      (saveRaw str sha256 assumeNew spec records rows).1 key = records key := by
  have hunique : Unique (recordKey str sha256 spec) (prepared str sha256 spec rows) :=
    unique_uniqueLast _ rows
  constructor
  · intro row hrow
    set existing : Records Digest := if assumeNew then fun _ => none else records with hexisting
    by_cases hsame : existing (recordKey str sha256 spec row) = some (stored str sha256 spec row)
    · -- The record is there already, and the rows that are written have other keys.
      have hkept : assumeNew = false := by
        cases assumeNew with
        | false => rfl
        | true => simp [hexisting] at hsame
      have hold : existing = records := by rw [hexisting, hkept]; rfl
      rw [hold] at hsame
      rw [← hsame]
      refine writeRows_other (fun other hother heq => ?_)
      obtain ⟨hmem, hchanged⟩ := List.mem_filter.mp hother
      rw [hunique.eq hmem hrow heq] at hchanged
      rw [← hexisting, hold, hsame] at hchanged
      simp at hchanged
    · refine writeRows_self (hunique.sublist ((List.filter_sublist).map _)) ?_
      exact List.mem_filter.mpr ⟨hrow, by simpa using hsame⟩
  · intro key hkey
    refine writeRows_other (fun row hrow => hkey row ?_)
    exact (uniqueLast_sublist _ rows).subset (List.mem_of_mem_filter hrow)

theorem saveRaw_repeat (assumeNew : Bool) :
    (saveRaw str sha256 false spec (saveRaw str sha256 assumeNew spec records rows).1 rows).2 =
      (0, 0) := by
  have hnone : changedRows str sha256 spec (saveRaw str sha256 assumeNew spec records rows).1 rows =
      [] := by
    refine List.filter_eq_nil_iff.mpr (fun row hrow => ?_)
    rw [(saveRaw_records assumeNew).1 row hrow]
    simp
  show (List.countP _ (changedRows ..), List.length (changedRows ..) - _) = _
  simp [hnone]

/-! ## Upserts by the key fields -/

open Classical in
/-- The last row of each combination of key fields. -/
noncomputable def lastRows (spec : DatasetSpec) (rows : List RawRow) : List RawRow :=
  uniqueLast (naturalKey spec) rows

variable (str sha256 spec records rows)

/-- A batch is an upsert by the key fields, seen from some rows whose keys are looked up. -/
structure Upserts (assumeNew : Bool) (others : Set RawRow) : Prop where
  apart : ∀ row ∈ rows, ∀ other, other ∈ rows ∨ other ∈ others →
    naturalKey spec row ≠ naturalKey spec other →
      recordKey str sha256 spec row ≠ recordKey str sha256 spec other
  maps : ∀ row ∈ rows, ∀ last ∈ lastRows spec rows, naturalKey spec last = naturalKey spec row →
    (saveRaw str sha256 assumeNew spec records rows).1 (recordKey str sha256 spec row) =
      some (stored str sha256 spec last)
  keeps : ∀ other ∈ others, (∀ row ∈ rows, naturalKey spec row ≠ naturalKey spec other) →
    (saveRaw str sha256 assumeNew spec records rows).1 (recordKey str sha256 spec other) =
      records (recordKey str sha256 spec other)
  counts : (saveRaw str sha256 false spec records rows).2 =
    ((lastRows spec rows).countP (fun last => records (recordKey str sha256 spec last) = none),
      (lastRows spec rows).countP (fun last =>
        records (recordKey str sha256 spec last) ≠ none ∧
          records (recordKey str sha256 spec last) ≠ some (stored str sha256 spec last)))
  repeats : (saveRaw str sha256 false spec (saveRaw str sha256 assumeNew spec records rows).1
    rows).2 = (0, 0)

/-- The texts of two rows are not joined to the same bytes. -/
def Separate (row other : RawRow) : Prop :=
  if blank str spec row ∨ blank str spec other then
    keyBytes str spec row ≠ keyBytes str spec other
  else keyTexts str spec row ≠ keyTexts str spec other ∧
    ¬ Joined.Regrouped '|' (keyTexts str spec row) (keyTexts str spec other)

/-- Different key fields stay different as texts, and rows with the same blank ones are equal. -/
structure Distinguished (others : Set RawRow) : Prop where
  texts : ∀ row ∈ rows, ∀ other, other ∈ rows ∨ other ∈ others →
    naturalKey spec row ≠ naturalKey spec other → Separate str spec row other
  blanks : ∀ row ∈ rows, ∀ other ∈ rows, naturalKey spec row = naturalKey spec other →
    blank str spec row → row.content = other.content

variable {str sha256 spec records rows}

theorem blank_congr {row other : RawRow} (h : naturalKey spec row = naturalKey spec other) :
    blank str spec row = blank str spec other := by
  unfold blank keyTexts
  rw [h]

theorem keyBytes_congr {row other : RawRow} (h : naturalKey spec row = naturalKey spec other)
    (hcontent : blank str spec row → row.content = other.content) :
    keyBytes str spec row = keyBytes str spec other := by
  unfold keyBytes keyTexts
  rw [← blank_congr h, h]
  split
  · next hblank => exact hcontent hblank
  · rfl

theorem separate_iff {row other : RawRow} :
    Separate str spec row other ↔ keyBytes str spec row ≠ keyBytes str spec other := by
  unfold Separate
  split
  · exact Iff.rfl
  · next h =>
    rw [not_or] at h
    have hne : ∀ {row : RawRow}, ¬ blank str spec row → keyTexts str spec row ≠ [] := by
      intro row hfilled hnil
      exact hfilled (by simp [blank, hnil])
    unfold keyBytes
    rw [if_neg h.1, if_neg h.2, Ne, ← not_or, ← Joined.join_eq_join_iff (hne h.1) (hne h.2)]
    exact not_congr Utf8.encode_injective.eq_iff.symm

theorem countP_split (p : RawRow → Option (Stored Digest)) (q : RawRow → Stored Digest)
    (l : List RawRow) : l.countP (fun row => p row ≠ some (q row)) =
      l.countP (fun row => p row = none) +
        l.countP (fun row => p row ≠ none ∧ p row ≠ some (q row)) := by
  induction l with
  | nil => rfl
  | cons row l ih =>
    simp only [List.countP_cons, ih]
    cases p row <;> simp <;> omega

theorem saveRaw_counts :
    (saveRaw str sha256 false spec records rows).2 =
      ((prepared str sha256 spec rows).countP (fun row =>
          records (recordKey str sha256 spec row) = none),
        (prepared str sha256 spec rows).countP (fun row =>
          records (recordKey str sha256 spec row) ≠ none ∧
            records (recordKey str sha256 spec row) ≠ some (stored str sha256 spec row))) := by
  have hinserted : (changedRows str sha256 spec records rows).countP (fun row =>
      records (recordKey str sha256 spec row) = none) =
      (prepared str sha256 spec rows).countP (fun row =>
        records (recordKey str sha256 spec row) = none) := by
    unfold changedRows
    rw [List.countP_filter]
    refine List.countP_congr (fun row _ => ?_)
    cases records (recordKey str sha256 spec row) <;> simp
  have hchanged : (changedRows str sha256 spec records rows).length =
      (prepared str sha256 spec rows).countP (fun row =>
        records (recordKey str sha256 spec row) ≠ some (stored str sha256 spec row)) :=
    List.countP_eq_length_filter.symm
  have hsplit := countP_split (fun row => records (recordKey str sha256 spec row))
    (stored str sha256 spec) (prepared str sha256 spec rows)
  refine Prod.ext hinserted ?_
  show (changedRows str sha256 spec records rows).length -
    (changedRows str sha256 spec records rows).countP (fun row =>
      records (recordKey str sha256 spec row) = none) = _
  rw [hinserted, hchanged, hsplit]
  exact Nat.add_sub_cancel_left ..

/-- A batch is an upsert by the key fields if the texts of different key fields are kept apart and
rows with the same blank key fields are equal, and only then. -/
theorem upserts_iff (hsha256 : Function.Injective sha256) (assumeNew : Bool) (others : Set RawRow) :
    Upserts str sha256 spec records rows assumeNew others ↔
      Distinguished str spec rows others := by
  constructor
  · rintro ⟨hapart, hmaps, -, -, -⟩
    have htexts : ∀ row ∈ rows, ∀ other, other ∈ rows ∨ other ∈ others →
        naturalKey spec row ≠ naturalKey spec other → Separate str spec row other :=
      fun row hrow other hother hne => separate_iff.mpr (fun heq =>
        hapart row hrow other hother hne (congrArg sha256 heq))
    refine ⟨htexts, ?_⟩
    -- Under the key of a row with blank key fields, the last one of them must be stored.
    have hlast : ∀ row ∈ rows, ∀ last ∈ lastRows spec rows,
        naturalKey spec last = naturalKey spec row → blank str spec row →
          row.content = last.content := by
      intro row hrow last hmem hkey hblank
      obtain ⟨kept, hkept, hsame⟩ : ∃ kept ∈ prepared str sha256 spec rows,
          recordKey str sha256 spec kept = recordKey str sha256 spec row := exists_prepared hrow
      have hstored : (saveRaw str sha256 assumeNew spec records rows).1
          (recordKey str sha256 spec kept) = some (stored str sha256 spec kept) :=
        (saveRaw_records assumeNew).1 kept hkept
      rw [hsame, hmaps row hrow last hmem hkey] at hstored
      have hcontent : last.content = kept.content :=
        hsha256 (congrArg Stored.contentSha256 (Option.some.inj hstored))
      have hnatural : naturalKey spec row = naturalKey spec kept := by
        by_contra hne
        exact hapart row hrow kept (.inl ((uniqueLast_sublist _ rows).subset hkept)) hne hsame.symm
      have hbytes := hsha256 hsame
      unfold keyBytes at hbytes
      rw [← blank_congr hnatural, if_pos hblank, if_pos hblank] at hbytes
      rw [← hbytes, hcontent]
    intro row hrow other hother hkey hblank
    obtain ⟨last, hmem, hnatural⟩ : ∃ last ∈ lastRows spec rows,
        naturalKey spec last = naturalKey spec row := by
      classical
      exact List.mem_map.mp (mem_map_uniqueLast.mpr (List.mem_map_of_mem hrow))
    rw [hlast row hrow last hmem hnatural hblank,
      hlast other hother last hmem (hnatural.trans hkey) (blank_congr hkey ▸ hblank)]
  · rintro ⟨htexts, hblanks⟩
    have hapart : ∀ row ∈ rows, ∀ other, other ∈ rows ∨ other ∈ others →
        naturalKey spec row ≠ naturalKey spec other →
          recordKey str sha256 spec row ≠ recordKey str sha256 spec other :=
      fun row hrow other hother hne heq =>
        separate_iff.mp (htexts row hrow other hother hne) (hsha256 heq)
    have hkey : ∀ row ∈ rows, ∀ other ∈ rows,
        recordKey str sha256 spec row = recordKey str sha256 spec other ↔
          naturalKey spec row = naturalKey spec other := by
      intro row hrow other hother
      constructor
      · intro heq
        by_contra hne
        exact hapart row hrow other (.inl hother) hne heq
      · intro heq
        exact congrArg sha256 (keyBytes_congr heq (hblanks row hrow other hother heq))
    have hprepared : prepared str sha256 spec rows = lastRows spec rows := by
      classical
      exact uniqueLast_congr hkey
    have hstored : ∀ last ∈ lastRows spec rows,
        (saveRaw str sha256 assumeNew spec records rows).1 (recordKey str sha256 spec last) =
          some (stored str sha256 spec last) := by
      rw [← hprepared]
      exact (saveRaw_records assumeNew).1
    refine ⟨hapart, ?_, ?_, ?_, saveRaw_repeat assumeNew⟩
    · intro row hrow last hlast hnatural
      have hmem : last ∈ rows := by
        classical
        exact (uniqueLast_sublist _ rows).subset hlast
      rw [← (hkey last hmem row hrow).mpr hnatural]
      exact hstored last hlast
    · intro other hother hnew
      exact (saveRaw_records assumeNew).2 _ (fun row hrow => hapart row hrow other (.inr hother) (hnew row hrow))
    · rw [saveRaw_counts, hprepared]

end Python

/-! ## A name with a bar in it -/

/-- `str(value)` of a text. -/
def strOfText : Value → List Char
  | .text s => s.toList
  | _ => []

def rowOf (fields : List (String × Value)) (h : (contentBytes (.object fields)).isSome) : RawRow where
  fields := fields
  content := (contentBytes (.object fields)).get h
  hcontent := (Option.some_get h).symm

/-- `namechange`, without its date. -/
def nameSpec : DatasetSpec where
  keyFields := ["ts_code", "name"]
  dateField := none
  catalogDateField := none

def barInCode : RawRow :=
  rowOf [("ts_code", .text "a|b"), ("name", .text "c")] (by decide +kernel)

def barInName : RawRow :=
  rowOf [("ts_code", .text "a"), ("name", .text "b|c")] (by decide +kernel)

def closedBar (text : String) (h : (contentBytes (.object [("ts_code", .text "a"),
    ("name", .text "c"), ("close", .text text)])).isSome) : RawRow :=
  rowOf [("ts_code", .text "a"), ("name", .text "c"), ("close", .text text)] h

/-- A stored row comes again twice, the last time changed. -/
theorem upserts_sample : Upserts strOfText id nameSpec
    (saveRaw strOfText id false nameSpec (fun _ => none) [closedBar "1" (by decide +kernel)]).1
    [closedBar "1" (by decide +kernel), closedBar "2" (by decide +kernel)] false ∅ := by
  refine (upserts_iff Function.injective_id false ∅).mpr ⟨?_, ?_⟩
  · intro row hrow other hother hne
    simp only [List.mem_cons, List.not_mem_nil, or_false, Set.mem_empty_iff_false] at hrow hother
    rcases hrow with rfl | rfl <;> rcases hother with rfl | rfl <;> exact absurd rfl hne
  · intro row hrow other hother _ hblank
    simp only [List.mem_cons, List.not_mem_nil, or_false] at hrow
    rcases hrow with rfl | rfl <;> exact absurd hblank (by decide +kernel)

/-- The two rows have different key fields and one record. -/
theorem bars_collide : ¬ Upserts strOfText id nameSpec (fun _ => none) [barInCode, barInName]
    false ∅ := by
  intro h
  refine h.apart barInCode (by simp) barInName (.inl (by simp)) ?_ ?_
  · intro heq
    have hlengths := congrArg (List.map (fun value => (strOfText value).length)) heq
    revert hlengths
    decide +kernel
  · decide +kernel

end LocalPlatform.DataSync.RawRecords
