import LocalPlatform.Artifacts.Registry

/-!
# Imports and LEAN validations

* `importRun` checks a bundle, reads what is registered, and then writes the import, the artifacts
  and the signal of the latest target in one transaction.
* `recordLeanValidation` registers the evidence of a backtest, promotes the target and inserts the
  validation in one transaction.

A transaction is a list of statements of which any one may raise (`Input.fault`), and what it has
done is then dropped.  What lies outside of the database is an `Environment`: the digests of texts
and the stored objects, which keep their content.
-/

namespace LocalPlatform.Qlib

open Paper Tables Results

/-! ## What is read from outside -/

structure RawTarget where
  instrument : ParamValue
  targetWeight : ParamValue
  score : ParamValue
  deriving DecidableEq

structure Target where
  instrument : String
  targetWeight : ℚ
  score : ParamValue
  deriving DecidableEq

/-- The JSON of a payload, of which a list of targets that is no list is empty. -/
structure PayloadJson where
  isObject : Bool
  sourceManifestSha256 : ParamValue
  targets : List RawTarget
  deriving DecidableEq

/-- A stored object. -/
structure StoredObject where
  sha256 : String
  json : Option PayloadJson
  deriving DecidableEq

structure Environment where
  /-- The digest of the canonical JSON of a bundle. -/
  manifestSha256 : Payload → String
  /-- The digest of the canonical JSON of targets. -/
  targetsSha256 : List Target → String
  /-- `object_store.get_item_path(key).read_bytes()` -/
  object : String → Except String StoredObject

/-- The identifiers that a call draws, the time, and the statement that raises, if one does. -/
structure Input where
  researchRunId : String
  importId : String
  signalId : String
  now : ℕ
  fault : Option ℕ

/-! ## Transactions -/

/-- The statements of a transaction, in order.  The one at `fault` raises. -/
def transact (fault : Option ℕ) (statements : List (Db → Except String Db)) (db : Db) :
    Except String Db :=
  (statements.zipIdx).foldlM (fun db statement =>
    if fault = some statement.2 then .error "the statement failed" else statement.1 db) db

/-! ## Payloads -/

/-- `_verified_payloads`: the JSON of the targets and of the validation results. -/
def verifiedPayloads (env : Environment) (artifacts : List Artifact) :
    Except String (List (Artifact × Option PayloadJson)) :=
  artifacts.mapM (fun artifact => do
    let stored ← env.object artifact.objectKey
    require (stored.sha256 = artifact.payloadSha256)
      ("Artifact checksum mismatch: " ++ artifact.objectKey)
    if artifact.fields.get "artifactType" ∈
        [.text "TARGET_PORTFOLIO", .text "VALIDATION_RESULT"] then
      let json ← orThrow stored.json ("Artifact payload must be JSON: " ++ artifact.objectKey)
      return (artifact, some json)
    else return (artifact, none))

/-- The payloads of a type. -/
def payloadsOf (typeText : String) (payloads : List (Artifact × Option PayloadJson)) :
    List (Artifact × PayloadJson) :=
  payloads.filterMap (fun payload =>
    if payload.1.fields.get "artifactType" = .text typeText then
      payload.2.map (fun json => (payload.1, json))
    else none)

/-- `_validate_source_manifest_binding` -/
def checkSourceManifest (payloads : List (Artifact × Option PayloadJson))
    (expected : Option String) : Except String Unit :=
  match expected with
  | none => .ok ()
  | some expected => do
    let validation ← orThrow (single (payloadsOf "VALIDATION_RESULT" payloads))
      "sourceManifestSha256 binding requires exactly one VALIDATION_RESULT"
    require (validation.2.isObject = true) "VALIDATION_RESULT payload must be a JSON object"
    require (strip (rawText validation.2.sourceManifestSha256) = expected)
      "VALIDATION_RESULT sourceManifestSha256 does not match artifact lineage"

/-- A turn of the loop of `_normalize_targets`. -/
def normalizeTarget (seen : List Target) (raw : RawTarget) : Except String (List Target) := do
  let instrument := upper (strip (rawText raw.instrument))
  let digits := instrument.toList.drop 2
  require (instrument.toList.length = 8 ∧
      String.ofList (instrument.toList.take 2) ∈ ["SH", "SZ", "BJ"] ∧ digits.all Char.isDigit = true)
    ("Invalid Qlib instrument: " ++ instrument)
  require (instrument ∉ seen.map Target.instrument) ("Duplicate Qlib instrument: " ++ instrument)
  match raw.targetWeight.float with
  | .error _ => throw "could not convert to float"
  | .ok weight =>
    require (0 ≤ weight ∧ weight ≤ 1) ("Invalid target weight for " ++ instrument)
    return seen ++ [⟨instrument, weight, raw.score⟩]

/-- `_normalize_targets` -/
def normalizeTargets (json : PayloadJson) : Except String (List Target) := do
  require (json.targets ≠ []) "TARGET_PORTFOLIO payload must contain targets"
  let targets ← json.targets.foldlM normalizeTarget []
  require ((targets.map Target.targetWeight).sum ≤ 1000001 / 1000000)
    "Gross target exposure exceeds 1.0"
  return orderBy Target.instrument targets

/-- The artifact of a target, and the digest of its targets. -/
def targetProjection (env : Environment) (target : Artifact × PayloadJson) :
    Except String (Artifact × String) := do
  let targets ← normalizeTargets target.2
  let sha := env.targetsSha256 targets
  let expected := rawText (target.1.metadata.get "targetsSha256")
  require (expected = "" ∨ expected = sha)
    ("TARGET_PORTFOLIO targets hash mismatch: " ++ target.1.id)
  return (target.1, sha)

def latestTarget (env : Environment) (payloads : List (Artifact × Option PayloadJson)) :
    Except String (Option (Artifact × String)) := do
  let projections ← (payloadsOf "TARGET_PORTFOLIO" payloads).mapM (targetProjection env)
  return (orderBy (fun target => rawText (target.1.fields.get "tradeDate")) projections).getLast?

/-! ## Importing -/

/-- `_validate_registered_universe_binding` -/
def checkUniverse (release : Option ReleaseRow) (universeReleaseId : Option String) :
    Except String Unit :=
  match universeReleaseId with
  | none => .ok ()
  | some universe' => do
    let registered := ((release.map ReleaseRow.pitUniverses).getD [] |>.filter (· ≠ "")).map strip
    let expected ← orThrow (single registered.dedup)
      "Registered DataRelease must bind exactly one pit_universe component"
    require (universe' = expected) ("UniverseRelease mismatch for DataRelease: bundle=" ++
      universe' ++ ", registered=" ++ expected)

/-- What `import_run` returns. -/
structure ImportResult where
  researchRunId : String
  importId : String
  signalSnapshotId : Option String
  replayed : Bool
  deriving DecidableEq

def latestSignal (db : Db) (researchRunId : String) : Option SignalRow :=
  (orderBy SignalRow.createdAt
    (db.signals.filter (fun row => row.researchRunId = researchRunId))).getLast?

def insertResearchRun (id : String) (db : Db) : Except String Db := do
  require (id ∉ db.researchRuns) "duplicate key value: research_runs_pkey"
  return { db with researchRuns := db.researchRuns ++ [id] }

def insertImport (row : ImportRow) (db : Db) : Except String Db := do
  require (row.id ∉ db.imports.map ImportRow.id) "duplicate key value: qlib_research_imports_pkey"
  require (row.researchRunId ∉ db.imports.map ImportRow.researchRunId)
    "duplicate key value: research_run_id"
  require (row.externalRunId ∉ db.imports.map ImportRow.externalRunId)
    "duplicate key value: external_run_id"
  return { db with imports := db.imports ++ [row] }

def insertSignal (row : SignalRow) (db : Db) : Except String Db := do
  require (row.id ∉ db.signals.map SignalRow.id) "duplicate key value: qlib_signal_snapshots_pkey"
  require ((row.modelFingerprint, row.datasetFingerprint, row.signalDate) ∉ db.signals.map
      (fun row => (row.modelFingerprint, row.datasetFingerprint, row.signalDate)))
    "duplicate key value: model_fingerprint, dataset_fingerprint, signal_date"
  return { db with signals := db.signals ++ [row] }

/-- The signal of the latest target. -/
def signalRow (input : Input) (validated : Validated) (target : Artifact × String) :
    Except String SignalRow := do
  let signalDate ← column (target.1.fields.get "signalDate")
  let signalDate ← orThrow signalDate "null value in column signal_date"
  let targetArtifactId ← column (target.1.fields.get "artifactId")
  return { id := input.signalId
           importId := input.importId
           researchRunId := input.researchRunId
           modelFingerprint := validated.modelReleaseId
           datasetFingerprint := validated.dataReleaseId
           signalDate := signalDate
           targetsSha256 := target.2
           targetArtifactId := targetArtifactId
           createdAt := input.now }

/-- The row of an import. -/
def importRow (env : Environment) (input : Input) (payload : Payload) (validated : Validated) :
    ImportRow where
  id := input.importId
  researchRunId := input.researchRunId
  externalRunId := validated.externalRunId
  dataReleaseId := validated.dataReleaseId
  modelFingerprint := validated.modelReleaseId
  manifestSha256 := env.manifestSha256 payload

/-- The statements of the transaction of `import_run`. -/
def importStatements (env : Environment) (input : Input) (payload : Payload)
    (validated : Validated) (latest : Option (Artifact × String)) : List (Db → Except String Db) :=
  [fun db => (preflightQlibArtifacts validated.artifacts db).map (fun _ => db),
    insertResearchRun input.researchRunId,
    insertImport (importRow env input payload validated),
    registerQlibArtifacts validated.artifacts] ++
  match latest with
  | some target => [fun db => do insertSignal (← signalRow input validated target) db]
  | none => []

/-- What `import_run` has found out before it writes. -/
structure Prepared where
  validated : Validated
  latest : Option (Artifact × String)
  existing : Option ImportRow

/-- `import_run` up to its preflight. -/
def prepareImport (env : Environment) (payload : Payload) (db : Db) : Except String Prepared := do
  let validated ← validatePayload payload
  let existing := find ImportRow.externalRunId db.imports validated.externalRunId
  let release := find ReleaseRow.id db.releases validated.dataReleaseId
  checkUniverse release validated.universeReleaseId
  require (existing.all (fun row => row.manifestSha256 = env.manifestSha256 payload) = true)
    "externalRunId already exists with different content"
  require (release.any (fun row => row.status = "active") = true)
    "Qlib v2 import requires an active registered DataRelease"
  let payloads ← verifiedPayloads env validated.artifacts
  checkSourceManifest payloads validated.sourceManifestSha256
  let latest ← latestTarget env payloads
  let _ ← preflightQlibArtifacts validated.artifacts db
  return ⟨validated, latest, existing⟩

/-- `import_run`: what it returns or raises, and the database after it. -/
def importRun (env : Environment) (input : Input) (payload : Payload) (db : Db) :
    Except String ImportResult × Db :=
  match prepareImport env payload db with
  | .error message => (.error message, db)
  | .ok prepared =>
    match prepared.existing with
    | some row =>
      (.ok ⟨row.researchRunId, row.id, (latestSignal db row.researchRunId).map SignalRow.id, true⟩,
        db)
    | none =>
      match transact input.fault
          (importStatements env input payload prepared.validated prepared.latest) db with
      | .error message => (.error message, db)
      | .ok next =>
        (.ok ⟨input.researchRunId, input.importId, prepared.latest.map (fun _ => input.signalId),
          false⟩, next)

/-! ## Validating -/

/-- What `_target_context` reads of the latest signal of a research run. -/
structure TargetContext where
  signalId : String
  targetArtifactId : String
  targetsSha256 : String
  dataReleaseId : String
  modelFingerprint : String
  promotionStatus : PromotionStatus
  strategyPolicyId : Option String
  universeReleaseId : Option String
  deriving DecidableEq

/-- `_target_context` -/
def targetContext (db : Db) (researchRunId : String) : Except String TargetContext := do
  let joined := (orderBy (fun row => (row : SignalRow × ImportRow).1.createdAt)
    ((db.signals.filter (fun row => row.researchRunId = researchRunId)).filterMap (fun row =>
      (find ImportRow.id db.imports row.importId).map (fun imported => (row, imported))))).getLast?
  let found ← orThrow joined
    ("Qlib signal snapshot not found for research run: " ++ researchRunId)
  let target ← orThrow (found.1.targetArtifactId.bind textOrNone)
    "Qlib import predates Artifact Contract v2 target binding; re-import the v2 bundle"
  let artifact ← orThrow (db.artifact target) "Qlib TargetPortfolio artifact is not registered"
  return { signalId := found.1.id
           targetArtifactId := target
           targetsSha256 := found.1.targetsSha256
           dataReleaseId := found.2.dataReleaseId
           modelFingerprint := found.2.modelFingerprint
           promotionStatus := artifact.promotionStatus
           strategyPolicyId := artifact.strategyPolicyId
           universeReleaseId := artifact.universeReleaseId }

def validationOf (db : Db) (target backtestId : String) : Option ValidationRow :=
  db.validations.find? (fun row => row.targetArtifactId = target ∧ row.leanBacktestRunId = backtestId)

/-- What makes a backtest a validation of a target. -/
structure Validates (target : TargetContext) (backtest : Backtest) : Prop where
  successful : backtest.status = "success" ∨ backtest.status = "succeeded"
  dataRelease : backtest.dataReleaseId = target.dataReleaseId
  artifact : rawText (backtest.parameters.get "qlibTargetPortfolioArtifactId") =
    target.targetArtifactId
  targets : rawText (backtest.parameters.get "qlibTargetsSha256") = target.targetsSha256
  passed : backtest.validationPassed = true

/-- `_assert_lean_backtest` -/
def assertLeanBacktest (target : TargetContext) (backtest : Option Backtest) :
    Except String Backtest := do
  let backtest ← orThrow backtest "LEAN backtest not found"
  require (backtest.status = "success" ∨ backtest.status = "succeeded")
    "LEAN validation requires a successful LEAN backtest"
  require (backtest.dataReleaseId = target.dataReleaseId)
    "LEAN validation DataRelease does not match the Qlib TargetPortfolio"
  require (rawText (backtest.parameters.get "qlibTargetPortfolioArtifactId") =
      target.targetArtifactId)
    "LEAN backtest is not bound to the Qlib TargetPortfolio artifact"
  require (rawText (backtest.parameters.get "qlibTargetsSha256") = target.targetsSha256)
    "LEAN backtest target hash does not match the imported TargetPortfolio"
  require (backtest.validationPassed = true)
    "LEAN validation requires a passed execution-validation gate"
  return backtest

/-- What `record_lean_validation` returns. -/
structure ValidationResult where
  validationId : String
  replayed : Bool
  deriving DecidableEq

/-- The arguments of `record_lean_validation`, and what it draws and reads outside. -/
structure ValidationInput where
  researchRunId : String
  leanBacktestRunId : String
  validationId : String
  evidenceSha256 : String
  backtest : Option Backtest
  fault : Option ℕ

/-- `f"lean_validation_{validation_id}"` -/
def ValidationInput.artifactId (input : ValidationInput) : String :=
  "lean_validation_" ++ input.validationId

/-- The evidence of a validation. -/
def evidenceArtifact (input : ValidationInput) (target : TargetContext) : PlatformArtifact where
  artifactId := input.artifactId
  parent := target.targetArtifactId
  dataReleaseId := target.dataReleaseId
  universeReleaseId := target.universeReleaseId
  strategyPolicyId := target.strategyPolicyId
  payloadSha256 := input.evidenceSha256

def validationRow (input : ValidationInput) (target : TargetContext) (backtest : Backtest) :
    ValidationRow where
  id := input.validationId
  researchRunId := input.researchRunId
  signalSnapshotId := target.signalId
  targetArtifactId := target.targetArtifactId
  validationArtifactId := input.artifactId
  dataReleaseId := target.dataReleaseId
  modelReleaseId := target.modelFingerprint
  leanBacktestRunId := input.leanBacktestRunId
  targetsSha256 := target.targetsSha256
  backtest := backtest

/-- The statements of the transaction of `record_lean_validation`. -/
def validationStatements (input : ValidationInput) (target : TargetContext) (backtest : Backtest) :
    List (Db → Except String Db) :=
  [registerPlatformArtifact (evidenceArtifact input target),
    promoteTarget target.targetArtifactId .leanValidated "authoritative_lean_validation",
    insertValidation (validationRow input target backtest)]

/-- The target and the backtest of a new validation, after the checks before the transaction. -/
def prepareValidation (input : ValidationInput) (target : TargetContext) :
    Except String Backtest := do
  require (target.promotionStatus = .researchPromoted)
    "Qlib TargetPortfolio must be RESEARCH_PROMOTED before LEAN validation"
  let backtest ← assertLeanBacktest target input.backtest
  require (backtest.runtimeDigest.toList.length = 64) "lean_validation_runtime_digest_required"
  return backtest

/-- `record_lean_validation` -/
def recordLeanValidation (input : ValidationInput) (db : Db) :
    Except String ValidationResult × Db :=
  match targetContext db input.researchRunId with
  | .error message => (.error message, db)
  | .ok target =>
    match validationOf db target.targetArtifactId input.leanBacktestRunId with
    | some row => (.ok ⟨row.id, true⟩, db)
    | none =>
      match prepareValidation input target with
      | .error message => (.error message, db)
      | .ok backtest =>
        match transact input.fault (validationStatements input target backtest) db with
        | .error message => (.error message, db)
        | .ok next => (.ok ⟨input.validationId, false⟩, next)

/-! ## Calls -/

/-- A call, or a new status of a DataRelease. -/
inductive Call where
  | importRun (input : Input) (payload : Payload)
  | recordLeanValidation (input : ValidationInput)
  | setReleaseStatus (releaseId status : String)

/-- The database after a call. -/
def Db.after (env : Environment) (db : Db) : Call → Db
  | .importRun input payload => (Qlib.importRun env input payload db).2
  | .recordLeanValidation input => (Qlib.recordLeanValidation input db).2
  | .setReleaseStatus releaseId status =>
    { db with releases := db.releases.map (fun row =>
        if row.id = releaseId then { row with status := status } else row) }

def Db.afterAll (env : Environment) (db : Db) (calls : List Call) : Db :=
  calls.foldl (Db.after env) db

end LocalPlatform.Qlib
