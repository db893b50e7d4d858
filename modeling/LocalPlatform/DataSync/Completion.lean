import LocalPlatform.DataSync.Execution
import LocalPlatform.Lib.Rows
import Mathlib

/-!
# Evidence of completion

`_sync_completion_evidence` reads five tables and lists, for every selected dataset, what is missing.

* A query grouped by dataset has no row for a dataset without rows, so what is read of it is
  optional, with the defaults of the code.
* `SelectedItem` has the columns that the query of the items selects.  The number of processed units
  is not among them, so `noNewWork` holds of every item with success.
* `Backed` is what a passed evidence promises, and `Recorded` when it is kept.
-/

namespace LocalPlatform.DataSync.Completion

open Tables

/-! ## Tables -/

/-- What is used of a specification in `DATASET_REGISTRY`. -/
structure DatasetSpec where
  key : String
  dateField : Option String
  retainRaw : Bool
  deriving DecidableEq

/-- A row of `data_sync_items`. -/
structure ItemRow where
  runId : String
  datasetKey : String
  status : ItemStatus
  processed : ℕ
  failed : ℕ
  canonicalStatus : Option CanonicalStatus
  deriving DecidableEq

/-- A row of `provider_ingestion_manifests`. -/
structure ManifestRow where
  runId : String
  datasetKey : String
  responseRows : ℕ
  rejectedRows : ℕ
  status : String
  deriving DecidableEq

/-- A row of `provider_dataset_watermarks`. -/
structure WatermarkRow where
  datasetKey : String
  lastRunId : Option String
  deriving DecidableEq

/-- A row of `provider_raw_archives`. -/
structure ArchiveRow where
  runId : String
  datasetKey : String
  objectId : String
  rowCount : ℕ
  deriving DecidableEq

structure Database where
  registry : List DatasetSpec
  items : List ItemRow
  manifests : List ManifestRow
  watermarks : List WatermarkRow
  archives : List ArchiveRow
  /-- The ids of `stored_objects`. -/
  objects : List String
  /-- `unique(run_id, dataset_key)` -/
  keyed : Unique (fun item => (item.runId, item.datasetKey)) items

namespace Database

variable (db : Database) (runId key : String)

def manifestsOf : List ManifestRow :=
  db.manifests.filter (fun row => row.runId = runId ∧ row.datasetKey = key)

def watermarksOf : List WatermarkRow :=
  db.watermarks.filter (fun row => row.lastRunId = some runId ∧ row.datasetKey = key)

def archivesOf : List ArchiveRow :=
  db.archives.filter (fun row => row.runId = runId ∧ row.datasetKey = key)

def itemOf : Option ItemRow :=
  db.items.find? (fun row => row.runId = runId ∧ row.datasetKey = key)

end Database

/-! ## Queries -/

/-- The columns of the query of the items. -/
structure SelectedItem where
  status : ItemStatus
  failed : ℕ
  canonicalStatus : Option CanonicalStatus

/-- The number of processed units is not selected. -/
def SelectedItem.processed (_ : SelectedItem) : Option ℕ := none

structure ManifestTotals where
  manifestCount : ℕ
  responseRows : ℕ
  rejectedRows : ℕ
  failedManifests : ℕ

structure ArchiveTotals where
  archiveCount : ℕ
  archivedRows : ℕ
  orphanCount : ℕ

/-- A group of a query, which has no row when it is empty. -/
def group {α β : Type} (rows : List α) (totals : List α → β) : Option β :=
  if rows.isEmpty then none else some (totals rows)

namespace Database

variable (db : Database) (runId key : String)

def selectedItem : Option SelectedItem :=
  (db.itemOf runId key).map (fun item => ⟨item.status, item.failed, item.canonicalStatus⟩)

def manifestTotals : Option ManifestTotals :=
  group (db.manifestsOf runId key) (fun rows =>
    { manifestCount := rows.length
      responseRows := (rows.map ManifestRow.responseRows).sum
      rejectedRows := (rows.map ManifestRow.rejectedRows).sum
      failedManifests := rows.countP (fun row => row.status ≠ "success") })

def watermarkCount : Option ℕ := group (db.watermarksOf runId key) List.length

def archiveTotals : Option ArchiveTotals :=
  group (db.archivesOf runId key) (fun rows =>
    { archiveCount := rows.length
      archivedRows := (rows.map ArchiveRow.rowCount).sum
      orphanCount := rows.countP (fun row => row.objectId ∉ db.objects) })

end Database

/-! ## Evidence -/

inductive Issue where
  | datasetItemNotReady
  | datasetItemFailedUnits
  | ingestionManifestMissing
  | ingestionManifestFailedOrRejected
  | datasetWatermarkMissing
  | rawArchiveMissing
  | rawArchiveObjectMissing
  deriving DecidableEq

structure EvidenceItem where
  datasetKey : String
  issues : List Issue
  status : Option ItemStatus
  canonicalStatus : Option CanonicalStatus
  manifestCount : ℕ
  responseRows : ℕ
  rejectedRows : ℕ
  watermarkRequired : Bool
  watermarkCount : ℕ
  archiveRequired : Bool
  archiveCount : ℕ
  archivedRows : ℕ

def EvidenceItem.passed (item : EvidenceItem) : Bool := item.issues.isEmpty

def issue (present : Prop) [Decidable present] (name : Issue) : List Issue :=
  if present then [name] else []

def noNewWork (item : Option SelectedItem) : Prop :=
  item.map SelectedItem.status = some .success ∧ (item.bind SelectedItem.processed).getD 0 = 0

instance (item : Option SelectedItem) : Decidable (noNewWork item) :=
  inferInstanceAs (Decidable (_ ∧ _))

def evidenceItem (db : Database) (runId key : String) : EvidenceItem :=
  let spec := find DatasetSpec.key db.registry key
  let item := db.selectedItem runId key
  let manifest := db.manifestTotals runId key
  let watermark := db.watermarkCount runId key
  let archive := db.archiveTotals runId key
  let responseRows := (manifest.map ManifestTotals.responseRows).getD 0
  let watermarkRequired := spec.any (fun spec => spec.dateField.isSome)
  let archiveRequired := spec.any (fun spec => spec.retainRaw && decide (0 < responseRows))
  let canonicalStatus := item.bind SelectedItem.canonicalStatus
  { datasetKey := key
    issues :=
      issue (item.map SelectedItem.status ≠ some .success ∨
          ¬ (canonicalStatus = none ∨ canonicalStatus = some .ready)) .datasetItemNotReady ++
      issue (0 < (item.map SelectedItem.failed).getD 0) .datasetItemFailedUnits ++
      issue ((manifest.map ManifestTotals.manifestCount).getD 0 = 0 ∧ ¬ noNewWork item)
        .ingestionManifestMissing ++
      issue (0 < (manifest.map ManifestTotals.failedManifests).getD 0 ∨
          0 < (manifest.map ManifestTotals.rejectedRows).getD 0)
        .ingestionManifestFailedOrRejected ++
      issue (watermarkRequired ∧ watermark.getD 0 = 0) .datasetWatermarkMissing ++
      issue (archiveRequired ∧ (archive.map ArchiveTotals.archiveCount).getD 0 = 0)
        .rawArchiveMissing ++
      issue (0 < (archive.map ArchiveTotals.orphanCount).getD 0) .rawArchiveObjectMissing
    status := item.map SelectedItem.status
    canonicalStatus := canonicalStatus
    manifestCount := (manifest.map ManifestTotals.manifestCount).getD 0
    responseRows := responseRows
    rejectedRows := (manifest.map ManifestTotals.rejectedRows).getD 0
    watermarkRequired := watermarkRequired
    watermarkCount := watermark.getD 0
    archiveRequired := archiveRequired
    archiveCount := (archive.map ArchiveTotals.archiveCount).getD 0
    archivedRows := (archive.map ArchiveTotals.archivedRows).getD 0 }

structure Evidence where
  passed : Bool
  items : List EvidenceItem

/-- `_sync_completion_evidence` -/
def syncCompletionEvidence (db : Database) (runId : String) (selectedKeys : List String) :
    Evidence :=
  let items := (orderBy id selectedKeys.dedup).map (evidenceItem db runId)
  { passed := !items.isEmpty && items.all EvidenceItem.passed
    items := items }

/-! ## The promise -/

/-- A dataset is backed by its rows. -/
structure BackedDataset (db : Database) (runId key : String) (item : ItemRow) : Prop where
  status : item.status = .success
  failed : item.failed = 0
  canonical : item.canonicalStatus = some .ready
  manifests : ∀ row ∈ db.manifestsOf runId key, row.status = "success" ∧ row.rejectedRows = 0
  manifest : 0 < item.processed → db.manifestsOf runId key ≠ []
  watermark : 0 < item.processed → ∀ spec ∈ find DatasetSpec.key db.registry key,
    spec.dateField.isSome → db.watermarksOf runId key ≠ []
  archive : 0 < item.processed → ∀ spec ∈ find DatasetSpec.key db.registry key, spec.retainRaw →
    (∃ row ∈ db.manifestsOf runId key, 0 < row.responseRows) →
      ∃ row ∈ db.archivesOf runId key, row.objectId ∈ db.objects

def Backed (db : Database) (runId : String) (selectedKeys : List String) : Prop :=
  ∀ key ∈ selectedKeys, ∃ item, db.itemOf runId key = some item ∧
    BackedDataset db runId key item

/-- The condition: an item has a canonical status, and a manifest if it has processed anything. -/
def Recorded (db : Database) (runId : String) (selectedKeys : List String) : Prop :=
  ∀ key ∈ selectedKeys, ∀ item, db.itemOf runId key = some item →
    item.canonicalStatus ≠ none ∧ (0 < item.processed → db.manifestsOf runId key ≠ [])

/-! ## What passed -/

section Passed

variable {db : Database} {runId key : String}

theorem issue_nil {present : Prop} [Decidable present] {name : Issue} :
    issue present name = [] ↔ ¬ present := by
  unfold issue
  split_ifs with h
  · simp [h]
  · simp [h]

theorem group_getD_eq_zero {α : Type} {rows : List α} {totals : List α → ℕ}
    (h : totals [] = 0) : (group rows totals).getD 0 = totals rows := by
  unfold group
  cases rows with
  | nil => exact h.symm
  | cons row rows => rfl

theorem group_map {α β γ : Type} (rows : List α) (totals : List α → β) (f : β → γ) :
    (group rows totals).map f = group rows (fun rows => f (totals rows)) := by
  unfold group
  split_ifs <;> rfl

/-- What an evidence item without issues says, in terms of the rows. -/
structure Clean (db : Database) (runId key : String) (item : ItemRow) : Prop where
  status : item.status = .success
  canonical : item.canonicalStatus = none ∨ item.canonicalStatus = some .ready
  failed : item.failed = 0
  manifests : ∀ row ∈ db.manifestsOf runId key, row.status = "success" ∧ row.rejectedRows = 0
  watermark : ∀ spec ∈ find DatasetSpec.key db.registry key, spec.dateField.isSome →
    db.watermarksOf runId key ≠ []
  archive : ∀ spec ∈ find DatasetSpec.key db.registry key, spec.retainRaw →
    (∃ row ∈ db.manifestsOf runId key, 0 < row.responseRows) → db.archivesOf runId key ≠ []
  objects : ∀ row ∈ db.archivesOf runId key, row.objectId ∈ db.objects

theorem sum_pos_of_mem {α : Type} {f : α → ℕ} {rows : List α} {row : α} (hrow : row ∈ rows)
    (h : 0 < f row) : 0 < (rows.map f).sum := by
  have hle : f row ≤ (rows.map f).sum := List.le_sum_of_mem (List.mem_map_of_mem hrow)
  omega

theorem clean_of_passed (h : (evidenceItem db runId key).passed) :
    ∃ item, db.itemOf runId key = some item ∧ Clean db runId key item := by
  have hissues : (evidenceItem db runId key).issues = [] := List.isEmpty_iff.mp h
  unfold evidenceItem at hissues
  simp only [List.append_eq_nil_iff, issue_nil] at hissues
  obtain ⟨⟨⟨⟨⟨⟨hready, hfailed⟩, -⟩, hmanifests⟩, hwatermark⟩, harchive⟩, horphan⟩ := hissues
  unfold Database.selectedItem at hready hfailed
  cases hitem : db.itemOf runId key with
  | none =>
    rw [hitem] at hready
    exact absurd (.inl (by simp)) hready
  | some item =>
    rw [hitem] at hready hfailed
    unfold Database.manifestTotals at hmanifests
    unfold Database.watermarkCount at hwatermark
    unfold Database.archiveTotals at harchive horphan
    simp only [group_map] at hmanifests harchive horphan
    rw [group_getD_eq_zero rfl, group_getD_eq_zero rfl] at hmanifests
    rw [group_getD_eq_zero rfl] at hwatermark horphan
    have hnone := not_or.mp hmanifests
    have hparts := not_or.mp hready
    refine ⟨item, rfl, ?_, ?_, ?_, ?_, ?_, ?_, ?_⟩
    · simpa using hparts.1
    · exact not_not.mp hparts.2
    · simpa using hfailed
    · intro row hrow
      constructor
      · by_contra hstatus
        exact hnone.1 (List.countP_pos_iff.mpr ⟨row, hrow, decide_eq_true hstatus⟩)
      · by_contra hrejected
        exact hnone.2 (sum_pos_of_mem hrow (Nat.pos_of_ne_zero hrejected))
    · intro spec hspec hdated hempty
      apply hwatermark
      rw [hempty]
      refine ⟨?_, rfl⟩
      rw [Option.any_eq_true]
      exact ⟨spec, hspec, hdated⟩
    · intro spec hspec hretain hresponse hempty
      obtain ⟨row, hrow, hpositive⟩ := hresponse
      apply harchive
      rw [hempty]
      refine ⟨?_, rfl⟩
      rw [Option.any_eq_true]
      refine ⟨spec, hspec, ?_⟩
      rw [Bool.and_eq_true, decide_eq_true_eq]
      refine ⟨hretain, ?_⟩
      unfold Database.manifestTotals
      rw [group_map, group_getD_eq_zero rfl]
      exact sum_pos_of_mem hrow hpositive
    · intro row hrow
      by_contra hmissing
      exact horphan (List.countP_pos_iff.mpr ⟨row, hrow, decide_eq_true hmissing⟩)

theorem passed_of_mem {selectedKeys : List String}
    (h : (syncCompletionEvidence db runId selectedKeys).passed) (hkey : key ∈ selectedKeys) :
    (evidenceItem db runId key).passed := by
  have hall := ((Bool.and_eq_true _ _).mp h).2
  apply List.all_eq_true.mp hall
  exact List.mem_map_of_mem (mem_orderBy.mpr (List.mem_dedup.mpr hkey))

/-- A passed evidence is backed if and only if the items are recorded. -/
theorem passed_backed_iff (db : Database) (runId : String) (selectedKeys : List String)
    (hpassed : (syncCompletionEvidence db runId selectedKeys).passed) :
    Backed db runId selectedKeys ↔ Recorded db runId selectedKeys := by
  constructor
  · intro hbacked key hkey item hitem
    obtain ⟨other, hother, hdataset⟩ := hbacked key hkey
    rw [hitem] at hother
    cases hother
    refine ⟨?_, hdataset.manifest⟩
    rw [hdataset.canonical]
    exact Option.some_ne_none _
  · intro hrecorded key hkey
    obtain ⟨item, hitem, hclean⟩ := clean_of_passed (passed_of_mem hpassed hkey)
    obtain ⟨hcanonical, hmanifest⟩ := hrecorded key hkey item hitem
    refine ⟨item, hitem, hclean.status, hclean.failed, hclean.canonical.resolve_left hcanonical,
      hclean.manifests, hmanifest, fun _ => hclean.watermark, ?_⟩
    intro _ spec hspec hretain hresponse
    obtain ⟨row, hrow⟩ := List.exists_mem_of_ne_nil _ (hclean.archive spec hspec hretain hresponse)
    exact ⟨row, hrow, hclean.objects row hrow⟩

end Passed

/-! ## An item without a manifest -/

/-- One dataset without a date, with success, and the manifests of its run. -/
def sampleDatabase (manifests : List ManifestRow) : Database where
  registry := [⟨"stock_basic", none, false⟩]
  items := [⟨"run-1", "stock_basic", .success, 5000, 0, some .ready⟩]
  manifests := manifests
  watermarks := []
  archives := []
  objects := []
  keyed := List.nodup_singleton _

theorem sampleDatabase_backed :
    Backed (sampleDatabase [⟨"run-1", "stock_basic", 5000, 0, "success"⟩]) "run-1"
      ["stock_basic"] := by
  apply (passed_backed_iff _ _ _ (by decide +kernel)).mpr
  intro key hkey item hitem
  cases List.mem_singleton.mp hkey
  cases hitem
  exact ⟨Option.some_ne_none _, fun _ => by decide⟩

/-- Five thousand units are processed, and no manifest was written. -/
theorem unmanifested_passes :
    (syncCompletionEvidence (sampleDatabase []) "run-1" ["stock_basic"]).passed ∧
      ¬ Backed (sampleDatabase []) "run-1" ["stock_basic"] := by
  refine ⟨by decide +kernel, fun h => ?_⟩
  obtain ⟨item, hitem, hdataset⟩ := h "stock_basic" List.mem_cons_self
  cases hitem
  exact hdataset.manifest (by decide) rfl

end LocalPlatform.DataSync.Completion
