import LocalPlatform.Lib.ReadCommitted
import LocalPlatform.Artifacts.Imports

/-!
# The calls statement by statement

`import_run`, `record_lean_validation` and `mark_paper_started` as programs of SQL statements, for
sessions that run at the same time.

* A `Write` is an insert or an update, with the rows and keys that it locks.
* `importProgram`, `validationProgram` and `paperProgram` are the calls.  The checks of one preflight
  are selects of their own, so each of them may see another state.
* `promotionProgram` reads a status, and then updates it without a condition.
-/

namespace LocalPlatform.Qlib

open Paper Tables Results ReadCommitted

/-! ## Writes -/

inductive Write where
  | researchRun (id : String)
  | imported (row : ImportRow)
  | registered (row : Registered)
  | event (promotion : PromotionEvent)
  | edge (parent child : String)
  | signal (row : SignalRow)
  | status (artifactId : String) (stage : Stage)
  | validation (row : ValidationRow)

/-- What a transaction locks: a row that it updates, and the keys of the rows that it inserts. -/
inductive Lock where
  | researchRun (id : String)
  | imported (id : String)
  | importedRun (researchRunId : String)
  | externalRun (externalRunId : String)
  | artifact (artifactId : String)
  | edge (parent child : String)
  | signal (id : String)
  | signalDate (modelFingerprint datasetFingerprint signalDate : String)
  | validation (id : String)
  | validationArtifact (artifactId : String)
  | validationRun (targetArtifactId leanBacktestRunId : String)
  deriving DecidableEq

def Write.apply : Write → Db → Except String Db
  | .researchRun id => insertResearchRun id
  | .imported row => insertImport row
  | .registered row => insertRegistered row
  | .event promotion => fun db => .ok (insertEvent promotion db)
  | .edge parent child => insertEdge parent child
  | .signal row => insertSignal row
  | .status artifactId stage => fun db => .ok (setStatus artifactId stage.status db)
  | .validation row => insertValidation row

def Write.locks : Write → List Lock
  | .researchRun id => [.researchRun id]
  | .imported row =>
    [.imported row.id, .importedRun row.researchRunId, .externalRun row.externalRunId]
  | .registered row => [.artifact row.artifactId]
  | .event _ => []
  | .edge parent child => [.edge parent child]
  | .signal row =>
    [.signal row.id, .signalDate row.modelFingerprint row.datasetFingerprint row.signalDate]
  | .status artifactId _ => [.artifact artifactId]
  | .validation row =>
    [.validation row.id, .validationArtifact row.validationArtifactId,
      .validationRun row.targetArtifactId row.leanBacktestRunId]

def platform : Database Db Write Lock := ⟨Write.apply, Write.locks⟩

abbrev Sql := Program Db Write

/-! ## Registrations -/

/-- The selects of one item's unknown parents. -/
def preflightParents (ids : List String) (rest : Sql) : List String → Sql
  | [] => rest
  | parent :: parents =>
    if parent ∈ ids then preflightParents ids rest parents
    else .select (fun db =>
      if (db.artifact parent).isSome then preflightParents ids rest parents else .halt)

/-- The selects of `preflight_qlib_artifacts`. -/
def preflightItems (ids : List String) (rest : Sql) : List RegistryItem → Sql
  | [] => rest
  | item :: items =>
    preflightParents ids (.select (fun db =>
      match db.artifact item.artifact.id with
      | none => preflightItems ids rest items
      | some existing =>
        if existing.identity = item.identity then
          .select (fun db =>
            if db.parentsOf item.artifact.id ⊆ item.artifact.parents ∧
                item.artifact.parents ⊆ db.parentsOf item.artifact.id then
              preflightItems ids rest items
            else .halt)
        else .halt)) item.artifact.parents

/-- `preflight_qlib_artifacts` -/
def preflightProgram (artifacts : List Artifact) (rest : List RegistryItem → Sql) : Sql :=
  match preflightGraph artifacts with
  | .error _ => .halt
  | .ok items => preflightItems (artifacts.map Artifact.id) (rest items) items

/-- The first loop of `register_qlib_artifacts`. -/
def registerRows (rest : Sql) : List RegistryItem → Sql
  | [] => rest
  | item :: items => .select (fun db =>
    if (db.artifact item.artifact.id).isSome then registerRows rest items
    else
      match registeredRow item with
      | .error _ => .halt
      | .ok row => .write (.registered row) (.write
          (.event ⟨item.artifact.id, none, item.promotionStatus, .qlib, "initial_import"⟩)
          (registerRows rest items)))

def insertParents (child : String) (rest : Sql) : List String → Sql
  | [] => rest
  | parent :: parents => .write (.edge parent child) (insertParents child rest parents)

/-- The last loop of `register_qlib_artifacts`. -/
def insertEdges (rest : Sql) : List RegistryItem → Sql
  | [] => rest
  | item :: items => insertParents item.artifact.id (insertEdges rest items) item.artifact.parents

/-- `register_qlib_artifacts` -/
def registerProgram (artifacts : List Artifact) (rest : Sql) : Sql :=
  preflightProgram artifacts (fun items => registerRows (insertEdges rest items) items)

/-- `register_platform_artifact` -/
def evidenceProgram (artifact : PlatformArtifact) (rest : Sql) : Sql :=
  .select (fun db =>
    match db.artifact artifact.artifactId with
    | some existing =>
      if (existing.artifactType, existing.payloadSha256, existing.dataReleaseId, existing.owner) =
          (.validationResult, artifact.payloadSha256, artifact.dataReleaseId, .platform) then rest
      else .halt
    | none => .write (.registered artifact.row) (.write
        (.event ⟨artifact.artifactId, none, .leanValidated, .platform, "lean_validation"⟩)
        (.select (fun db =>
          if (db.artifact artifact.parent).isSome then
            .write (.edge artifact.parent artifact.artifactId) rest
          else .halt))))

/-- `promote_target_to_platform_stage` -/
def promotionProgram (artifactId : String) (stage : Stage) (reason : String) (rest : Sql) : Sql :=
  .select (fun db =>
    match checkPromotion (db.artifact artifactId) artifactId stage with
    | .error _ => .halt
    | .ok false => rest
    | .ok true => .write (.status artifactId stage)
        (.write (.event (promotionEvent artifactId stage reason)) rest))

/-! ## The calls -/

/-- The writes of the signal of the latest target. -/
def signalProgram (input : Input) (validated : Validated) (rest : Sql) :
    Option (Artifact × String) → Sql
  | none => rest
  | some target =>
    match signalRow input validated target with
    | .error _ => .halt
    | .ok row => .write (.signal row) rest

/-- The transaction of `import_run`. -/
def importTransaction (env : Environment) (input : Input) (payload : Payload)
    (validated : Validated) (latest : Option (Artifact × String)) : Sql :=
  preflightProgram validated.artifacts (fun _ =>
    .write (.researchRun input.researchRunId) (.write
      (.imported (importRow env input payload validated))
      (registerProgram validated.artifacts (signalProgram input validated (.commit .halt) latest))))

/-- What `import_run` checks between its first selects and its preflight. -/
def checkImport (env : Environment) (payload : Payload) (validated : Validated)
    (existing : Option ImportRow) (release : Option ReleaseRow) :
    Except String (Option (Artifact × String)) := do
  require (existing.all (fun row => row.manifestSha256 = env.manifestSha256 payload) = true)
    "externalRunId already exists with different content"
  require (release.any (fun row => row.status = "active") = true)
    "Qlib v2 import requires an active registered DataRelease"
  let payloads ← verifiedPayloads env validated.artifacts
  checkSourceManifest payloads validated.sourceManifestSha256
  latestTarget env payloads

/-- `import_run` -/
def importProgram (env : Environment) (input : Input) (payload : Payload) : Sql :=
  match validatePayload payload with
  | .error _ => .halt
  | .ok validated =>
    .select (fun db =>
      let existing := find ImportRow.externalRunId db.imports validated.externalRunId
      .select (fun db =>
        let release := find ReleaseRow.id db.releases validated.dataReleaseId
        .select (fun db =>
          match checkUniverse (find ReleaseRow.id db.releases validated.dataReleaseId)
              validated.universeReleaseId with
          | .error _ => .halt
          | .ok _ =>
            .commit (match checkImport env payload validated existing release with
              | .error _ => .halt
              | .ok latest =>
                preflightProgram validated.artifacts (fun _ => .commit
                  (match existing with
                  | some _ => .halt
                  | none => importTransaction env input payload validated latest))))))

/-- `record_lean_validation` -/
def validationProgram (input : ValidationInput) : Sql :=
  .select (fun db =>
    match targetContext db input.researchRunId with
    | .error _ => .halt
    | .ok target => .commit (.select (fun db =>
        match validationOf db target.targetArtifactId input.leanBacktestRunId with
        | some _ => .halt
        | none => .commit (match prepareValidation input target with
          | .error _ => .halt
          | .ok backtest =>
            evidenceProgram (evidenceArtifact input target)
              (promotionProgram target.targetArtifactId .leanValidated
                "authoritative_lean_validation"
                (.write (.validation (validationRow input target backtest)) (.commit .halt)))))))

/-- The arguments of `mark_paper_started`, with the parameters of the backtest where none are
given. -/
structure PaperInput where
  leanBacktestRunId : String
  parameters : Parameters

/-- `mark_paper_started` -/
def paperProgram (input : PaperInput) : Sql :=
  let target := rawText (input.parameters.get "qlibTargetPortfolioArtifactId")
  if target = "" then .halt
  else .select (fun db =>
    let validation := validationOf db target input.leanBacktestRunId
    .select (fun db =>
      match validation, db.artifact target with
      | some validation, some artifact =>
        if artifact.promotionStatus = .leanValidated ∨ artifact.promotionStatus = .paper then
          .commit (promotionProgram validation.targetArtifactId .paper "paper_deployment_created"
            (.commit .halt))
        else .halt
      | _, _ => .halt))

inductive SessionCall where
  | importRun (input : Input) (payload : Payload)
  | recordLeanValidation (input : ValidationInput)
  | markPaperStarted (input : PaperInput)

def SessionCall.program (env : Environment) : SessionCall → Sql
  | .importRun input payload => importProgram env input payload
  | .recordLeanValidation input => validationProgram input
  | .markPaperStarted input => paperProgram input

end LocalPlatform.Qlib
