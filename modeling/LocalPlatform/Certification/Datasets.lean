import LocalPlatform.Lib.Machine
import LocalPlatform.Lib.Rows
import LocalPlatform.Paper.Values
import Mathlib.Data.Prod.Lex

/-!
# Certified datasets

`certify_parquet_dataset`, `ensure_release_for_certified_dataset`, `revoke_scope`,
`source_certification` and `invalidate_source_certification` over the rows of `parquet_datasets` and
`dataset_releases`.

* A release is certified for the scope of its dataset, seven columns, where `certify` compares an
  absent venue as an empty one.
* A `Gate` is what writes and reads of market data name: four columns, where an absent venue is the
  one that is asked for.
* The digest over the rows of `parquet_files` is a column of the dataset here, and the id of a
  release is the text that its digest is taken over.  Times are numbers.

The rows of `dataset_versions`, the coverage and the counts of a dataset, what else a report says of
it and a database that cannot be reached are left out.
-/

namespace LocalPlatform.Certification

open Tables Machines
open Paper (strip lower)

/-! ## Sources -/

def primaryDataSource : String := "tushare"

def defaultProductionSource : String := primaryDataSource

def productionSources : List String := [primaryDataSource]

def sourceAliases : List (String × String) :=
  [("tushare_pro", primaryDataSource), ("tushare-pro", primaryDataSource),
    ("tushare pro", primaryDataSource), ("tu_share", primaryDataSource),
    ("tu-share", primaryDataSource), ("alphavantage", "alpha_vantage"),
    ("alpha-vantage", "alpha_vantage")]

/-- `first or second` on texts. -/
def orElse (first : Option String) (second : String) : String :=
  if first.getD "" = "" then second else first.getD ""

def normalizeSource (source : Option String) : String :=
  let value := lower (strip (orElse source defaultProductionSource))
  let found := (sourceAliases.lookup value).getD value
  if found = "" then defaultProductionSource else found

/-! ## Rows -/

structure Scope where
  source : String
  assetClass : String
  market : String
  venue : Option String
  resolution : String
  dataType : String
  adjust : String
  deriving DecidableEq

/-- The scopes that one release supersedes another in. -/
def Scope.same (first second : Scope) : Prop :=
  { first with venue := some (first.venue.getD "") } =
    { second with venue := some (second.venue.getD "") }

instance (first second : Scope) : Decidable (first.same second) :=
  inferInstanceAs (Decidable (_ = _))

/-- A row of `parquet_datasets`. -/
structure Dataset where
  id : String
  datasetKey : String
  scope : Scope
  datasetVersion : Option String
  /-- SHA-256 over its rows of `parquet_files`, if it has some. -/
  fileManifestSha256 : Option String
  environment : Option String
  isProduction : Bool
  isCertified : Bool
  certifiedAt : Option ℕ
  qaStatus : Option String
  qaReportId : Option String
  updatedAt : ℕ
  datasetReleaseId : Option String
  deriving DecidableEq

inductive ReleaseStatus where
  | active
  | superseded
  | revoked
  deriving DecidableEq

/-- A row of `dataset_releases`. -/
structure Release where
  id : String
  datasetKey : String
  datasetVersion : String
  scope : Scope
  parquetDatasetId : String
  fileManifestSha256 : String
  qaReportId : String
  status : ReleaseStatus
  isProduction : Bool
  isCertified : Bool
  certifiedAt : ℕ
  revokedAt : Option ℕ
  revokeReason : Option String
  deriving DecidableEq

structure Db where
  datasets : List Dataset
  releases : List Release
  deriving DecidableEq

/-! ## Certifying -/

/-- `_release_id` -/
def releaseId (datasetVersion manifestSha256 : String) : String :=
  "release:" ++ datasetVersion ++ ":" ++ manifestSha256

inductive CertifyError where
  | parquetDatasetMissing (datasetId : String)
  /-- Another release has the version and the key, or the version and the dataset. -/
  | notUnique
  deriving DecidableEq

structure CertifyCall where
  datasetId : String
  datasetVersion : String
  manifestSha256 : String
  qaReportId : String
  certifiedAt : Option ℕ
  now : ℕ
  deriving DecidableEq

def CertifyCall.releaseId (call : CertifyCall) : String :=
  Certification.releaseId call.datasetVersion call.manifestSha256

def CertifyCall.at (call : CertifyCall) : ℕ := call.certifiedAt.getD call.now

/-- The first update: other active releases of the scope are superseded. -/
def supersede (scope : Scope) (id : String) (now : ℕ) (release : Release) : Release :=
  if release.status = .active ∧ release.scope.same scope ∧ release.id ≠ id then
    { release with
      status := .superseded
      revokedAt := some (release.revokedAt.getD now)
      revokeReason := some (release.revokeReason.getD "superseded_by_recertification") }
  else release

def newRelease (item : Dataset) (call : CertifyCall) : Release where
  id := call.releaseId
  datasetKey := item.datasetKey
  datasetVersion := call.datasetVersion
  scope := item.scope
  parquetDatasetId := call.datasetId
  fileManifestSha256 := call.manifestSha256
  qaReportId := call.qaReportId
  status := .active
  isProduction := true
  isCertified := true
  certifiedAt := call.at
  revokedAt := none
  revokeReason := none

/-- The insert; a row that has the id already stays as it is. -/
def insertRelease (releases : List Release) (row : Release) : Option (List Release) :=
  if (find Release.id releases row.id).isSome then some releases
  else if releases.any (fun release => release.datasetVersion = row.datasetVersion ∧
      (release.datasetKey = row.datasetKey ∨ release.parquetDatasetId = row.parquetDatasetId)) then
    none
  else some (releases ++ [row])

def recordRelease (datasetId id : String) (item : Dataset) : Dataset :=
  if item.id = datasetId then { item with datasetReleaseId := some id } else item

/-- `certify_parquet_dataset` -/
def certifyParquetDataset (db : Db) (call : CertifyCall) :
    Except CertifyError (Db × Option Release) :=
  match find Dataset.id db.datasets call.datasetId with
  | none => .error (.parquetDatasetMissing call.datasetId)
  | some item =>
    match insertRelease (db.releases.map (supersede item.scope call.releaseId call.at))
        (newRelease item call) with
    | none => .error .notUnique
    | some releases =>
      .ok ({ datasets := db.datasets.map (recordRelease call.datasetId call.releaseId)
             releases := releases }, find Release.id releases call.releaseId)

/-! ## Gates -/

/-- What a write or a read of market data names. -/
structure Request where
  source : Option String
  assetClass : String
  market : String
  venue : Option String
  deriving DecidableEq

structure Gate where
  source : String
  assetClass : String
  market : String
  venue : String
  deriving DecidableEq

def Request.gate (request : Request) : Gate where
  source := normalizeSource request.source
  assetClass := lower request.assetClass
  market := lower request.market
  venue := lower (orElse request.venue request.market)

def Gate.covers (gate : Gate) (scope : Scope) : Prop :=
  scope.source = gate.source ∧ scope.assetClass = gate.assetClass ∧ scope.market = gate.market ∧
    scope.venue.getD gate.venue = gate.venue

instance (gate : Gate) (scope : Scope) : Decidable (gate.covers scope) :=
  inferInstanceAs (Decidable (_ ∧ _))

/-- The update of `invalidate_source_certification`. -/
def invalidateDataset (gate : Gate) (item : Dataset) : Dataset :=
  if gate.covers item.scope ∧ (item.isProduction ∨ item.isCertified) then
    { item with
      environment := some "research"
      isProduction := false
      isCertified := false
      certifiedAt := none
      qaStatus := some "stale"
      qaReportId := none }
  else item

/-- The update of `revoke_scope`. -/
def revoke (gate : Gate) (now : ℕ) (release : Release) : Release :=
  if release.status = .active ∧ gate.covers release.scope then
    { release with
      status := .revoked
      isCertified := false
      revokedAt := some now
      revokeReason := some "canonical_source_changed" }
  else release

/-- `invalidate_source_certification`; other sources than those of production are let through. -/
def invalidateSourceCertification (db : Db) (request : Request) (now : ℕ) : Db :=
  if request.gate.source ∈ productionSources then
    { datasets := db.datasets.map (invalidateDataset request.gate)
      releases := db.releases.map (revoke request.gate now) }
  else db

/-! ## Reading the certification -/

/-- Newer first, of the active releases of the dataset. -/
def activeReleaseForDataset (db : Db) (datasetId : String) : Option Release :=
  (orderBy (fun release => -(release.certifiedAt : ℤ)) (db.releases.filter (fun release =>
    release.parquetDatasetId = datasetId ∧ release.status = .active ∧
      release.isProduction ∧ release.isCertified))).head?

/-- `ensure_release_for_certified_dataset` -/
def ensureReleaseForCertifiedDataset (db : Db) (item : Dataset) (manifestSha256 : String)
    (now : ℕ) : Except CertifyError (Db × Option Release) :=
  match (activeReleaseForDataset db item.id).filter (fun release =>
      some release.datasetVersion = item.datasetVersion ∧
        release.fileManifestSha256 = manifestSha256) with
  | some release => .ok (db, some release)
  | none =>
    if item.datasetVersion.getD "" = "" ∨ item.qaReportId.getD "" = "" then .ok (db, none)
    else
      certifyParquetDataset db
        { datasetId := item.id
          datasetVersion := item.datasetVersion.getD ""
          manifestSha256 := manifestSha256
          qaReportId := item.qaReportId.getD ""
          certifiedAt := item.certifiedAt
          now := now }

/-- The dataset that a read is answered from: certified ones first, then newer ones. -/
def datasetFor (db : Db) (gate : Gate) : Option Dataset :=
  (orderBy (fun item : Dataset =>
      toLex ((if item.isCertified then 0 else 1 : ℕ), -(item.updatedAt : ℤ)))
    (db.datasets.filter (fun item => gate.covers item.scope))).head?

def firstTwelve (text : String) : String := String.ofList (text.toList.take 12)

/-- The version that the files of the dataset stand for. -/
def expectedDatasetVersion (source : String) (item : Dataset) : Option String :=
  item.fileManifestSha256.map
    (fun sha => source ++ "-" ++ firstTwelve item.id ++ "-" ++ firstTwelve sha)

/-- What the columns of the dataset say, before its release is looked up. -/
def certificationValid (source : String) (item : Dataset) : Bool :=
  item.isProduction ∧ item.isCertified ∧ lower (strip (item.environment.getD "")) = "production" ∧
    lower (strip (item.qaStatus.getD "")) = "ok" ∧
      some (orElse item.datasetVersion item.datasetKey) = expectedDatasetVersion source item

/-- Where a read runs: on which database, and whether the lake is asked before it. -/
structure Config where
  postgresql : Bool
  lakeFirst : Bool
  deriving DecidableEq

structure CertificationReport where
  isProduction : Bool
  isCertified : Bool
  datasetId : Option String
  datasetReleaseId : Option String
  localAuthority : Bool
  deriving DecidableEq

/-- `_local_lake_certification` of a scope that the lake has; it is not of production. -/
def localReport : CertificationReport where
  isProduction := false
  isCertified := true
  datasetId := none
  datasetReleaseId := none
  localAuthority := true

def missingReport : CertificationReport where
  isProduction := false
  isCertified := false
  datasetId := none
  datasetReleaseId := none
  localAuthority := false

/-- What is reported of a dataset whose certification is valid or not. -/
def datasetReport (item : Dataset) (valid : Bool) (release : Option Release) :
    CertificationReport where
  isProduction := item.isProduction && valid
  isCertified := valid
  datasetId := some item.id
  datasetReleaseId := release.map Release.id
  localAuthority := false

/-- The lake is asked when a dataset is not certified. -/
def reportOrLake (lake valid : Bool) (report : CertificationReport) : CertificationReport :=
  if ¬ valid ∧ lake then localReport else report

/-- `source_certification`; `lake` says whether the lake has the scope. -/
def sourceCertification (config : Config) (lake : Bool) (db : Db) (request : Request) (now : ℕ) :
    Except CertifyError (Db × CertificationReport) :=
  if config.postgresql ∧ config.lakeFirst ∧ lake then .ok (db, localReport)
  else
    match datasetFor db request.gate with
    | none => .ok (db, if lake then localReport else missingReport)
    | some item =>
      if certificationValid request.gate.source item then
        if item.qaReportId.getD "" = "" then
          .ok (db, reportOrLake lake (!config.postgresql)
            (datasetReport item (!config.postgresql) none))
        else
          (ensureReleaseForCertifiedDataset db item (item.fileManifestSha256.getD "") now).map
            (fun ensured =>
              let valid := ensured.2.any (fun release => release.status = .active ∧
                release.isProduction ∧ release.isCertified ∧
                  some release.fileManifestSha256 = item.fileManifestSha256)
              (ensured.1, reportOrLake lake valid
                (datasetReport item valid ensured.2)))
      else .ok (db, reportOrLake lake false (datasetReport item false none))

/-! ## Calls in turn -/

inductive Action where
  | certify (call : CertifyCall)
  | invalidate (request : Request) (now : ℕ)
  | read (config : Config) (lake : Bool) (request : Request) (now : ℕ)
  deriving DecidableEq

/-- A call that raises changes nothing. -/
def Db.next (db : Db) : Action → Db
  | .certify call =>
    match certifyParquetDataset db call with
    | .ok (certified, _) => certified
    | .error _ => db
  | .invalidate request now => invalidateSourceCertification db request now
  | .read config lake request now =>
    match sourceCertification config lake db request now with
    | .ok (after, _) => after
    | .error _ => db

def authority : Machine Db Action where
  allowed := fun _ _ => True
  next := Db.next

end LocalPlatform.Certification
