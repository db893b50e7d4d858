import LocalPlatform.Lib.Dags
import LocalPlatform.Artifacts.Bundles

/-!
# The artifact registry

* `preflightQlibArtifacts` checks a graph of artifacts, by itself and against the registry.
* `registerQlibArtifacts` inserts the artifacts that are not registered yet, and the edges.
* `registerPlatformArtifact` registers the evidence of a LEAN validation.
* `promoteTarget` moves a target to a platform stage.

A function on the database raises or returns the database after its statements; the transaction
around it drops what it has done when it raises.  The identifiers of events are left out, and so are
the columns that no function here reads.
-/

namespace LocalPlatform.Qlib

open Paper Tables Results Dags

/-! ## Rows -/

inductive Owner where
  | qlib
  | platform
  deriving DecidableEq

/-- A row of `artifact_registry`. -/
structure Registered where
  artifactId : String
  artifactType : ArtifactType
  owner : Owner
  promotionStatus : PromotionStatus
  dataReleaseId : String
  universeReleaseId : Option String
  strategyPolicyId : Option String
  payloadSha256 : String
  metadata : Parameters
  deriving DecidableEq

/-- A row of `artifact_promotion_events`. -/
structure PromotionEvent where
  artifactId : String
  fromStatus : Option PromotionStatus
  toStatus : PromotionStatus
  owner : Owner
  reason : String
  deriving DecidableEq

/-- A row of `qlib_research_imports`. -/
structure ImportRow where
  id : String
  researchRunId : String
  externalRunId : String
  dataReleaseId : String
  modelFingerprint : String
  manifestSha256 : String
  deriving DecidableEq

/-- A row of `qlib_signal_snapshots`. -/
structure SignalRow where
  id : String
  importId : String
  researchRunId : String
  modelFingerprint : String
  datasetFingerprint : String
  signalDate : String
  targetsSha256 : String
  targetArtifactId : Option String
  createdAt : ℕ
  deriving DecidableEq

/-- What `get_backtest` answers. -/
structure Backtest where
  status : String
  dataReleaseId : String
  parameters : Parameters
  validationPassed : Bool
  /-- The digest of the runtime, of the fingerprint or of the docker image. -/
  runtimeDigest : String
  deriving DecidableEq

/-- A row of `qlib_lean_validations`, with the backtest that its evidence was made from. -/
structure ValidationRow where
  id : String
  researchRunId : String
  signalSnapshotId : String
  targetArtifactId : String
  validationArtifactId : String
  dataReleaseId : String
  modelReleaseId : String
  leanBacktestRunId : String
  targetsSha256 : String
  backtest : Backtest
  deriving DecidableEq

/-- A row of `data_releases`, with its `pit_universe` components. -/
structure ReleaseRow where
  id : String
  status : String
  pitUniverses : List String
  deriving DecidableEq

structure Db where
  registry : List Registered
  edges : List (String × String)
  events : List PromotionEvent
  imports : List ImportRow
  signals : List SignalRow
  validations : List ValidationRow
  researchRuns : List String
  releases : List ReleaseRow
  deriving DecidableEq

def Db.artifact (db : Db) (artifactId : String) : Option Registered :=
  find Registered.artifactId db.registry artifactId

/-- `select parent_artifact_id from artifact_lineage_edges where child_artifact_id=?` -/
def Db.parentsOf (db : Db) (child : String) : List String :=
  (db.edges.filter (fun edge => edge.2 = child)).map Prod.fst

/-- The text of a value in a column. -/
def column : ParamValue → Except String (Option String)
  | .null => .ok none
  | .text s => .ok (some s)
  | .num x => .ok (some (ParamValue.num x).str)
  | .bool _ => .error "column is of type character varying but expression is of type boolean"
  | .list _ => .error "column is of type character varying but expression is of type text[]"

/-! ## Statements -/

def insertRegistered (row : Registered) (db : Db) : Except String Db := do
  require (db.artifact row.artifactId = none) "duplicate key value: artifact_registry_pkey"
  return { db with registry := db.registry ++ [row] }

def insertEvent (event : PromotionEvent) (db : Db) : Db := { db with events := db.events ++ [event] }

/-- `on conflict(parent_artifact_id,child_artifact_id)` keeps the edge. -/
def insertEdge (parent child : String) (db : Db) : Except String Db := do
  require ((db.artifact parent).isSome ∧ (db.artifact child).isSome)
    "violates foreign key constraint: artifact_lineage_edges"
  return if (parent, child) ∈ db.edges then db else { db with edges := db.edges ++ [(parent, child)] }

/-- `update artifact_registry set promotion_status=? where artifact_id=?` -/
def setStatus (artifactId : String) (status : PromotionStatus) (db : Db) : Db :=
  { db with registry := db.registry.map (fun row =>
      if row.artifactId = artifactId then { row with promotionStatus := status } else row) }

def insertValidation (row : ValidationRow) (db : Db) : Except String Db := do
  require (row.id ∉ db.validations.map ValidationRow.id) "duplicate key value: validations_pkey"
  require (row.validationArtifactId ∉ db.validations.map ValidationRow.validationArtifactId)
    "duplicate key value: validation_artifact_id"
  require ((row.targetArtifactId, row.leanBacktestRunId) ∉
      db.validations.map (fun row => (row.targetArtifactId, row.leanBacktestRunId)))
    "duplicate key value: target_artifact_id, lean_backtest_run_id"
  require ((db.artifact row.targetArtifactId).isSome ∧
      (db.artifact row.validationArtifactId).isSome)
    "violates foreign key constraint: qlib_lean_validations"
  return { db with validations := db.validations ++ [row] }

/-! ## The preflight -/

/-- `_assert_acyclic` -/
def assertAcyclic (artifacts : List Artifact) : Except String Unit :=
  match checkAcyclic (artifacts.map (fun artifact => (artifact.id, artifact.parents))) with
  | .ok _ => .ok ()
  | .error (.cycle artifactId) => .error ("Artifact lineage cycle detected: " ++ artifactId)
  | .error .depth => .error "maximum recursion depth exceeded"

/-- An artifact of the preflight, with its type and its status. -/
structure RegistryItem where
  artifact : Artifact
  artifactType : ArtifactType
  promotionStatus : PromotionStatus
  deriving DecidableEq

/-- A turn of the first loop of `preflight_qlib_artifacts`. -/
def preflightItem (artifact : Artifact) : Except String RegistryItem := do
  let typeText := rawText (artifact.fields.get "artifactType")
  let statusText := rawText (artifact.fields.get "promotionStatus")
  let kind ← orThrow (artifactType typeText) ("Qlib cannot register artifact type: " ++ typeText)
  let status ← orThrow (qlibStatus statusText)
    ("Qlib cannot register promotion status: " ++ statusText)
  require ((checkedText (artifact.fields.get "dataReleaseId")).isSome)
    ("Qlib artifact missing dataReleaseId: " ++ artifact.id)
  require artifact.parents.Nodup ("Duplicate artifact parent: " ++ artifact.id)
  require (artifact.id ∉ artifact.parents) ("Artifact cannot parent itself: " ++ artifact.id)
  return ⟨artifact, kind, status⟩

/-- All artifacts have one value of a binding, or none has. -/
def OneBinding (values : List (Option String)) : Prop :=
  values.any Option.isSome = true →
    values.all Option.isSome = true ∧ values.dedup.length = 1

instance (values : List (Option String)) : Decidable (OneBinding values) :=
  inferInstanceAs (Decidable (_ → _))

/-- The part of the preflight that looks at the graph alone. -/
def preflightGraph (artifacts : List Artifact) : Except String (List RegistryItem) := do
  require (artifacts ≠ []) "Qlib artifact graph must not be empty"
  require (∀ artifact ∈ artifacts, rawText (artifact.fields.get "artifactId") ≠ "")
    "Qlib artifactId is required"
  require (artifacts.map Artifact.id).Nodup "Duplicate Qlib artifactId in registry preflight"
  let items ← artifacts.mapM preflightItem
  require ((artifacts.map (fun artifact =>
      checkedText (artifact.fields.get "dataReleaseId"))).dedup.length = 1)
    "Qlib registry graph must reference exactly one DataRelease"
  require (OneBinding (artifacts.map (fun artifact =>
      checkedText (artifact.fields.get "universeReleaseId"))))
    "Qlib registry graph has inconsistent UniverseRelease binding"
  require (OneBinding (artifacts.map (fun artifact => sourceManifestSha256 artifact.metadata)))
    "Qlib registry graph has inconsistent sourceManifestSha256 binding"
  assertAcyclic artifacts
  return items

/-- What may not differ between two registrations of an artifact. -/
structure Identity where
  artifactType : ArtifactType
  payloadSha256 : String
  dataReleaseId : String
  universeReleaseId : Option String
  sourceManifestSha256 : Option String
  deriving DecidableEq

/-- `existing_identity` -/
def Registered.identity (row : Registered) : Identity where
  artifactType := row.artifactType
  payloadSha256 := row.payloadSha256
  dataReleaseId := row.dataReleaseId
  universeReleaseId := textOrNone (row.universeReleaseId.getD "")
  sourceManifestSha256 := textOrNone (rawText (row.metadata.get "sourceManifestSha256"))

/-- `requested_identity` -/
def RegistryItem.identity (item : RegistryItem) : Identity where
  artifactType := item.artifactType
  payloadSha256 := item.artifact.payloadSha256
  dataReleaseId := (item.artifact.fields.get "dataReleaseId").str
  universeReleaseId := textOrNone (rawText (item.artifact.fields.get "universeReleaseId"))
  sourceManifestSha256 := sourceManifestSha256 item.artifact.metadata

/-- A turn of the last loop of `preflight_qlib_artifacts`. -/
def preflightAgainst (db : Db) (ids : List String) (item : RegistryItem) : Except String Unit := do
  let unknown := item.artifact.parents.find? (fun parent =>
    decide (parent ∉ ids) && (db.artifact parent).isNone)
  require (unknown = none) ("Artifact parent does not exist: " ++ unknown.getD "")
  match db.artifact item.artifact.id with
  | none => return ()
  | some existing =>
    require (existing.identity = item.identity)
      ("Artifact ID already exists with different content or lineage: " ++ item.artifact.id)
    let existingParents := db.parentsOf item.artifact.id
    require (existingParents ⊆ item.artifact.parents ∧ item.artifact.parents ⊆ existingParents)
      ("Artifact ID already exists with different parent lineage: " ++ item.artifact.id)

/-- `preflight_qlib_artifacts` -/
def preflightQlibArtifacts (artifacts : List Artifact) (db : Db) :
    Except String (List RegistryItem) := do
  let items ← preflightGraph artifacts
  let _ ← items.mapM (preflightAgainst db (artifacts.map Artifact.id))
  return items

/-! ## Registrations -/

/-- The row that the registration of an item inserts. -/
def registeredRow (item : RegistryItem) : Except String Registered := do
  let dataReleaseId ← column (item.artifact.fields.get "dataReleaseId")
  let universeReleaseId ← column (item.artifact.fields.get "universeReleaseId")
  let strategyPolicyId ← column (item.artifact.fields.get "strategyPolicyId")
  let dataReleaseId ← orThrow dataReleaseId "null value in column data_release_id"
  return { artifactId := item.artifact.id
           artifactType := item.artifactType
           owner := .qlib
           promotionStatus := item.promotionStatus
           dataReleaseId := dataReleaseId
           universeReleaseId := universeReleaseId
           strategyPolicyId := strategyPolicyId
           payloadSha256 := item.artifact.payloadSha256
           metadata := item.artifact.metadata }

/-- A turn of the first loop of `register_qlib_artifacts`. -/
def registerItem (db : Db) (item : RegistryItem) : Except String Db :=
  if (db.artifact item.artifact.id).isSome then .ok db
  else do
    let row ← registeredRow item
    let db ← insertRegistered row db
    return insertEvent ⟨item.artifact.id, none, item.promotionStatus, .qlib, "initial_import"⟩ db

/-- A turn of the last loop of `register_qlib_artifacts`. -/
def registerEdges (db : Db) (item : RegistryItem) : Except String Db :=
  item.artifact.parents.foldlM (fun db parent => insertEdge parent item.artifact.id db) db

/-- `register_qlib_artifacts` -/
def registerQlibArtifacts (artifacts : List Artifact) (db : Db) : Except String Db := do
  let items ← preflightQlibArtifacts artifacts db
  let db ← items.foldlM registerItem db
  items.foldlM registerEdges db

/-- The evidence of a validation: a platform artifact with one parent. -/
structure PlatformArtifact where
  artifactId : String
  parent : String
  dataReleaseId : String
  universeReleaseId : Option String
  strategyPolicyId : Option String
  payloadSha256 : String
  deriving DecidableEq

/-- The row of a platform artifact. -/
def PlatformArtifact.row (artifact : PlatformArtifact) : Registered where
  artifactId := artifact.artifactId
  artifactType := .validationResult
  owner := .platform
  promotionStatus := .leanValidated
  dataReleaseId := artifact.dataReleaseId
  universeReleaseId := artifact.universeReleaseId
  strategyPolicyId := artifact.strategyPolicyId
  payloadSha256 := artifact.payloadSha256
  metadata := []

/-- `register_platform_artifact` -/
def registerPlatformArtifact (artifact : PlatformArtifact) (db : Db) : Except String Db :=
  match db.artifact artifact.artifactId with
  | some existing => do
    require ((existing.artifactType, existing.payloadSha256, existing.dataReleaseId,
        existing.owner) = (.validationResult, artifact.payloadSha256, artifact.dataReleaseId,
        .platform))
      ("Artifact ID already exists with different content: " ++ artifact.artifactId)
    return db
  | none => do
    let db ← insertRegistered artifact.row db
    let db := insertEvent
      ⟨artifact.artifactId, none, .leanValidated, .platform, "lean_validation"⟩ db
    require ((db.artifact artifact.parent).isSome)
      ("Artifact parent does not exist: " ++ artifact.parent)
    insertEdge artifact.parent artifact.artifactId db

/-! ## Promotions -/

/-- The platform stages of a target. -/
inductive Stage where
  | leanValidated
  | paper
  deriving DecidableEq

def Stage.status : Stage → PromotionStatus
  | .leanValidated => .leanValidated
  | .paper => .paper

/-- The status that a target has before a stage. -/
def Stage.expected : Stage → PromotionStatus
  | .leanValidated => .researchPromoted
  | .paper => .leanValidated

def statusText : PromotionStatus → String
  | .candidate => "CANDIDATE"
  | .researchReview => "RESEARCH_REVIEW"
  | .researchPromoted => "RESEARCH_PROMOTED"
  | .rejected => "REJECTED"
  | .leanValidated => "LEAN_VALIDATED"
  | .paper => "PAPER"
  | .production => "PRODUCTION"
  | .retired => "RETIRED"

/-- What `promote_target_to_platform_stage` makes of the row that it has read: whether the target is
to be moved. -/
def checkPromotion (current : Option Registered) (artifactId : String) (stage : Stage) :
    Except String Bool := do
  let current ← orThrow current ("TargetPortfolio artifact not found: " ++ artifactId)
  require (current.artifactType = .targetPortfolio ∧ current.owner = .qlib)
    "Only a Qlib TARGET_PORTFOLIO can enter platform execution stages"
  if current.promotionStatus = stage.status then return false
  else
    require (current.promotionStatus = stage.expected)
      ("TargetPortfolio must be " ++ statusText stage.expected ++ " before " ++
        statusText stage.status)
    return true

def promotionEvent (artifactId : String) (stage : Stage) (reason : String) : PromotionEvent :=
  ⟨artifactId, some stage.expected, stage.status, .platform, reason⟩

/-- `promote_target_to_platform_stage` -/
def promoteTarget (artifactId : String) (stage : Stage) (reason : String) (db : Db) :
    Except String Db := do
  let moves ← checkPromotion (db.artifact artifactId) artifactId stage
  return if moves then
      insertEvent (promotionEvent artifactId stage reason) (setStatus artifactId stage.status db)
    else db

end LocalPlatform.Qlib
