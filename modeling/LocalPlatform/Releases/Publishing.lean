import LocalPlatform.Lib.DateTexts
import LocalPlatform.Lib.FileTree
import LocalPlatform.Lib.Machine
import LocalPlatform.Lib.Rows
import LocalPlatform.Paper.Values

/-!
# Publishing a data release

`publish_data_release` with `_prepare_components`, `_verify_frozen` and `_persist`, over one tree of
files and the rows of `data_releases`.

* `prepareRelease` is what a call does up to the digest of the identity: it checks the spec and reads
  the source files.
* A `Publisher` then goes through its phases, one access to the tree or to the table in each step.
  `publications` lets any number of publishers of one identity take their steps in any order, and
  crash between two steps or in the middle of writing a file.
* Paths are kept as the parts that `pathlib` splits them into.  The digests, the sizes of files and
  the names of staging directories come from outside.

Symbolic links, home directories in source paths, the longest name that a file system allows and
values of a spec that have another type are left out, and so are the columns of the tables that no
part of the module reads.
-/

namespace LocalPlatform.Releases

open FileTrees DateTexts Tables
open Paper (lower)

/-! ## Paths -/

structure PurePath where
  absolute : Bool
  parts : List String
  deriving DecidableEq

namespace PurePath

/-- `Path(raw)`; empty parts and single dots are dropped. -/
def ofString (raw : String) : PurePath where
  absolute := raw.toList.head? = some '/'
  parts := ((raw.toList.splitOn '/').map String.ofList).filter (fun part => part ≠ "" ∧ part ≠ ".")

/-- `first / second` -/
def join (first second : PurePath) : PurePath :=
  if second.absolute then second
  else { absolute := first.absolute, parts := first.parts ++ second.parts }

def steps (path : PurePath) : List (Option String) :=
  path.parts.map (fun part => if part = ".." then none else some part)

/-- Where the path starts when it is taken from a directory. -/
def start (path : PurePath) (directory : List String) : List String :=
  if path.absolute then [] else directory

/-- `(directory / path).resolve()` -/
def resolve (path : PurePath) (directory : List String) : List String :=
  FileTrees.resolve (path.start directory) path.steps

/-- The directories that `mkdir(parents=True)` makes for a file at the path. -/
def parents (path : PurePath) (directory : List String) : List (List String) :=
  visited (path.start directory) path.steps.dropLast

end PurePath

/-- `path.suffix`; a name that starts with its only dot has none. -/
def suffix (name : String) : String :=
  let reversed := name.toList.reverse
  let extension := reversed.takeWhile (· ≠ '.')
  match reversed.dropWhile (· ≠ '.') with
  | _ :: _ :: _ => if extension = [] then "" else "." ++ String.ofList extension.reverse
  | _ => ""

/-! ## Specs -/

structure Coverage where
  start : String
  finish : String
  deriving DecidableEq

/-- Absent texts are empty. -/
structure SpecFile where
  path : String
  sha256 : String
  rowCount : ℤ
  deriving DecidableEq

structure SpecComponent where
  role : String
  componentReleaseId : String
  datasetKey : String
  schemaVersion : String
  coverage : Coverage
  files : List SpecFile
  deriving DecidableEq

/-- The fields of a spec that every release names. -/
structure Scope where
  profile : String
  assetClass : String
  market : String
  universeName : String
  benchmark : String
  asOfTime : String
  deriving DecidableEq

def Scope.entries (scope : Scope) : List (String × String) :=
  [("profile", scope.profile), ("assetClass", scope.assetClass), ("market", scope.market),
    ("universe", scope.universeName), ("benchmark", scope.benchmark), ("asOfTime", scope.asOfTime)]

/-- The policies and the lineage are kept as their JSON texts. -/
structure Spec where
  scope : Scope
  coverage : Coverage
  components : List SpecComponent
  policies : String
  lineage : String
  deriving DecidableEq

/-! ## Profiles -/

/-- `SCHEMA_VERSION` -/
def releaseSchemaVersion : String := "2.0"

def coreResearchComponents : List String :=
  ["bars", "daily_basic", "adjustment_factors", "corporate_actions", "trade_status", "limit_prices",
    "st_status", "security_master", "trading_calendar", "pit_universe", "pit_fundamentals",
    "benchmark"]

def usEtfCertificationComponents : List String :=
  ["bars", "adjustment_factors", "corporate_actions", "security_master", "trading_calendar",
    "benchmark"]

def qlibResearchProfile : String := "ashare_qlib_research_v1"

def qlibResearchProfileV2 : String := "ashare_qlib_research_v2"

def usEtfCertificationProfile : String := "us-etf-daily-certification-v1"

def dataReleaseProfiles : List (String × List String) :=
  [("cn-equity-daily-research-v2", coreResearchComponents),
    (qlibResearchProfile, coreResearchComponents ++ ["qlib_staging", "industry_classification_pit"]),
    (qlibResearchProfileV2, coreResearchComponents ++ ["qlib_staging", "industry_classification_pit"]),
    (usEtfCertificationProfile, usEtfCertificationComponents)]

def profileComponentSchemas (profile : String) : List (String × String) :=
  if profile = qlibResearchProfileV2 then
    [("pit_fundamentals", "2"), ("industry_classification_pit", "1"),
      ("qlib_staging", "qlib-staging-v2")]
  else []

def profileScopes (profile : String) : List (String × String) :=
  if profile = usEtfCertificationProfile then [("assetClass", "equity"), ("market", "usa")] else []

/-! ## Releases -/

/-- A file of a release, as the manifest lists it. -/
structure FrozenFile where
  path : PurePath
  sha256 : String
  sizeBytes : ℕ
  rowCount : ℤ
  deriving DecidableEq

/-- What the digest of a component is taken over. -/
structure ComponentIdentity where
  role : String
  componentReleaseId : String
  datasetKey : String
  schemaVersion : String
  coverage : Coverage
  files : List FrozenFile
  deriving DecidableEq

structure Component extends ComponentIdentity where
  componentSha256 : String
  deriving DecidableEq

/-- What the digest of a release is taken over. -/
structure Identity where
  schemaVersion : String
  scope : Scope
  coverage : Coverage
  requiredComponents : List String
  components : List Component
  policies : String
  lineage : String
  deriving DecidableEq

def Identity.files (identity : Identity) : List FrozenFile :=
  identity.components.flatMap (fun component => component.files)

structure Manifest where
  identity : Identity
  dataReleaseId : String
  identitySha256 : String
  publishedAt : ℕ
  manifestSha256 : String
  deriving DecidableEq

structure Checksums where
  schemaVersion : String
  dataReleaseId : String
  manifestSha256 : String
  files : List (PurePath × String)
  deriving DecidableEq

/-- What a file holds: data, or one of the documents that a release adds to it. -/
inductive Document where
  | data (bytes : List UInt8)
  | manifest (manifest : Manifest)
  | checksums (checksums : Checksums)
  | lineage (lineage : String)
  deriving DecidableEq

abbrev Disk := Tree String (Entry Document)

/-- SHA-256 over a file and over the canonical bytes of a value, and the size of a file. -/
structure Digests where
  file : Document → String
  size : Document → ℕ
  component : ComponentIdentity → String
  identity : Identity → String
  manifest : Identity → ℕ → String

inductive PublishError where
  | coverage (name : String)
  | scopeRequired
  | scopeMismatch (drift : List (String × String))
  | unknownProfile (profile : String)
  | rolesNotUnique
  | missingComponents (missing : List String)
  | identityIncomplete (role : String)
  | noFiles (role : String)
  | sourceEscapes (path : String)
  | sourceMissing (path : String)
  | sourceChecksum (path : String)
  | schemaMismatch (drift : List (String × String))
  /-- The manifest of the release cannot be read. -/
  | manifestUnreadable
  | differentIdentity
  | manifestEscapes
  | frozenMissing (path : PurePath)
  | frozenChecksum (path : PurePath)
  /-- A file or a directory is in the way, or the source is gone. -/
  | notWritten
  /-- `os.replace` onto a directory that is there. -/
  | notReplaced
  | differentManifest
  /-- The id is in the table already. -/
  | notInserted
  deriving DecidableEq

/-! ## Preparing a release -/

/-- `_coverage` -/
def coverage (value : Coverage) (name : String) : Except PublishError Coverage :=
  if value.start = "" ∨ value.finish = "" ∨ value.finish < value.start then .error (.coverage name)
  else .ok value

/-- A file of a release, and where it is copied from. -/
structure SourceFile where
  sourcePath : List String
  frozen : FrozenFile
  deriving DecidableEq

structure PreparedComponent where
  role : String
  componentReleaseId : String
  datasetKey : String
  schemaVersion : String
  coverage : Coverage
  files : List SourceFile
  deriving DecidableEq

def PreparedComponent.identity (component : PreparedComponent) : ComponentIdentity where
  role := component.role
  componentReleaseId := component.componentReleaseId
  datasetKey := component.datasetKey
  schemaVersion := component.schemaVersion
  coverage := component.coverage
  files := component.files.map SourceFile.frozen

def PreparedComponent.published (digests : Digests) (component : PreparedComponent) : Component where
  toComponentIdentity := component.identity
  componentSha256 := digests.component component.identity

/-- What a call knows of its release before it looks for it. -/
structure Release where
  scope : Scope
  coverage : Coverage
  requiredComponents : List String
  components : List PreparedComponent
  policies : String
  lineage : String
  deriving DecidableEq

def Release.files (release : Release) : List SourceFile :=
  release.components.flatMap PreparedComponent.files

def Release.identity (digests : Digests) (release : Release) : Identity where
  schemaVersion := releaseSchemaVersion
  scope := release.scope
  coverage := release.coverage
  requiredComponents := release.requiredComponents
  components := release.components.map (PreparedComponent.published digests)
  policies := release.policies
  lineage := release.lineage

section Prepare

variable (digests : Digests) (root : List String) (disk : Disk)

/-- `_inside`, with what the file holds. -/
def inside (raw : String) : Except PublishError (List String × Document) :=
  let candidate := (PurePath.ofString raw).resolve root
  if ¬ root <+: candidate then .error (.sourceEscapes raw)
  else match get disk candidate with
    | some (.file content) => .ok (candidate, content)
    | _ => .error (.sourceMissing raw)

/-- `Path("components") / role / f"{index:05d}{suffix}"` -/
def frozenPath (role : String) (index : ℕ) (source : List String) : PurePath :=
  let extension := lower (suffix (source.getLast?.getD ""))
  let name := String.ofList (zeroFilled 5 index) ++ (if extension = "" then ".bin" else extension)
  (PurePath.join { absolute := false, parts := ["components"] } (PurePath.ofString role)).join
    { absolute := false, parts := [name] }

def prepareFile (role : String) (index : ℕ) (raw : SpecFile) : Except PublishError SourceFile := do
  let (source, content) ← inside root disk raw.path
  let digest := digests.file content
  if lower raw.sha256 ≠ "" ∧ lower raw.sha256 ≠ digest then .error (.sourceChecksum raw.path)
  else
    .ok
      { sourcePath := source
        frozen :=
          { path := frozenPath role index source
            sha256 := digest
            sizeBytes := digests.size content
            rowCount := raw.rowCount } }

def prepareComponent (raw : SpecComponent) : Except PublishError PreparedComponent :=
  if raw.role = "" ∨ raw.componentReleaseId = "" ∨ raw.datasetKey = "" ∨ raw.schemaVersion = "" then
    .error (.identityIncomplete (if raw.role = "" then "<unknown>" else raw.role))
  else do
    let window ← coverage raw.coverage raw.role
    if raw.files = [] then .error (.noFiles raw.role)
    else do
      let files ←
        raw.files.zipIdx.mapM (fun file => prepareFile digests root disk raw.role file.2 file.1)
      .ok
        { role := raw.role
          componentReleaseId := raw.componentReleaseId
          datasetKey := raw.datasetKey
          schemaVersion := raw.schemaVersion
          coverage := window
          files := files }

/-- `_prepare_components` -/
def prepareComponents (components : List SpecComponent) (required : List String) :
    Except PublishError (List PreparedComponent) :=
  let roles := components.map SpecComponent.role
  let missing := orderBy id (required.filter (fun role => role ∉ roles))
  if ¬ roles.Nodup then .error .rolesNotUnique
  else if missing ≠ [] then .error (.missingComponents missing)
  else do
    let prepared ← components.mapM (prepareComponent digests root disk)
    .ok (orderBy PreparedComponent.role prepared)

/-- What the scope must be for the profile and is not. -/
def scopeDrift (scope : Scope) : List (String × String) :=
  (profileScopes scope.profile).filter (fun expected =>
    lower ((scope.entries.lookup expected.1).getD "") ≠ lower expected.2)

/-- The components whose schema is not that of the profile. -/
def schemaDrift (profile : String) (components : List PreparedComponent) : List (String × String) :=
  (components.filter (fun component =>
    ((profileComponentSchemas profile).lookup component.role).any
      (fun expected => expected ≠ component.schemaVersion))).map
    (fun component => (component.role, component.schemaVersion))

/-- `publish_data_release` up to the digest of the identity. -/
def prepareRelease (spec : Spec) : Except PublishError Release := do
  let window ← coverage spec.coverage "release"
  if spec.scope.entries.any (fun entry => entry.2 = "") then .error .scopeRequired
  else if scopeDrift spec.scope ≠ [] then .error (.scopeMismatch (scopeDrift spec.scope))
  else match dataReleaseProfiles.lookup spec.scope.profile with
  | none => .error (.unknownProfile spec.scope.profile)
  | some required => do
    let components ← prepareComponents digests root disk spec.components required
    if schemaDrift spec.scope.profile components ≠ [] then
      .error (.schemaMismatch (schemaDrift spec.scope.profile components))
    else
      .ok
        { scope := spec.scope
          coverage := window
          requiredComponents := orderBy id required
          components := components
          policies := spec.policies
          lineage := spec.lineage }

end Prepare

/-! ## The documents of a release -/

def releaseId (digests : Digests) (identity : Identity) : String := "ds_" ++ digests.identity identity

def manifestOf (digests : Digests) (identity : Identity) (publishedAt : ℕ) : Manifest where
  identity := identity
  dataReleaseId := releaseId digests identity
  identitySha256 := digests.identity identity
  publishedAt := publishedAt
  manifestSha256 := digests.manifest identity publishedAt

/-- The later of two files with one path counts. -/
def checksumsOf (manifest : Manifest) : Checksums where
  schemaVersion := releaseSchemaVersion
  dataReleaseId := manifest.dataReleaseId
  manifestSha256 := manifest.manifestSha256
  files := uniqueLast Prod.fst (manifest.identity.files.map (fun file => (file.path, file.sha256)))

/-- What is written beside the files, in this order. -/
def documentsOf (manifest : Manifest) : List (String × Document) :=
  [("manifest.json", .manifest manifest), ("checksums.json", .checksums (checksumsOf manifest)),
    ("lineage.json", .lineage manifest.identity.lineage)]

/-! ## Publishers -/

inductive Phase where
  /-- Before `target.exists()`. -/
  | checking
  | reading
  /-- `_verify_frozen`, with the files that are left. -/
  | verifying (manifest : Manifest) (rest : List FrozenFile)
  | copying (rest : List SourceFile)
  /-- Before the digest of a copy is compared. -/
  | hashing (file : SourceFile) (rest : List SourceFile)
  | writing (manifest : Manifest) (rest : List (String × Document))
  | replacing (manifest : Manifest)
  /-- `_persist` before it looks for the row. -/
  | selecting (manifest : Manifest)
  | inserting (manifest : Manifest)
  | returned (manifest : Manifest)
  | raised (error : PublishError)
  | crashed
  deriving DecidableEq

def Phase.running : Phase → Bool
  | .returned _ | .raised _ | .crashed => false
  | _ => true

structure Publisher where
  release : Release
  /-- The name of its staging directory. -/
  staging : String
  persist : Bool
  phase : Phase
  deriving DecidableEq

/-- A row of `data_releases`. -/
structure Row where
  id : String
  manifestSha256 : String
  manifestPath : List String
  deriving DecidableEq

/-- The tree, the table and the phase after a step. -/
structure Turn where
  disk : Disk
  rows : List Row
  phase : Phase
  deriving DecidableEq

section Steps

variable (digests : Digests) (root : List String)

def releases : List String := root ++ ["releases"]

def target (identity : Identity) : List String := releases root ++ [releaseId digests identity]

def stagingRoot : List String := releases root ++ [".staging"]

def stagingOf (name : String) : List String := stagingRoot root ++ [name]

/-- One round of `_verify_frozen`. -/
def verifyFile (disk : Disk) (directory : List String) (file : FrozenFile) :
    Except PublishError Unit :=
  let frozen := file.path.resolve directory
  if ¬ directory <+: frozen then .error .manifestEscapes
  else match get disk frozen with
    | some (.file content) =>
      if digests.file content ≠ file.sha256 then .error (.frozenChecksum file.path) else .ok ()
    | _ => .error (.frozenMissing file.path)

/-- `_copy_frozen` with the content that the copy gets. -/
def copyFrozen (disk : Disk) (directory : List String) (path : PurePath) (content : Document) :
    Option Disk :=
  placeFile disk (path.parents directory) (path.resolve directory) content

/-- What follows when the release is there: `_persist`, or the end of the call. -/
def persisting (persist : Bool) (manifest : Manifest) : Phase :=
  if persist then .selecting manifest else .returned manifest

/-- The handler of the errors between staging and replacing. -/
def abandon (disk : Disk) (rows : List Row) (publisher : Publisher) (error : PublishError) : Turn where
  disk := removeTree disk (stagingOf root publisher.staging)
  rows := rows
  phase := .raised error

/-- One step of a publisher, at a time. -/
def Publisher.step (publisher : Publisher) (now : ℕ) (disk : Disk) (rows : List Row) : Turn :=
  let identity := publisher.release.identity digests
  let staging := stagingOf root publisher.staging
  let directory := target digests root identity
  match publisher.phase with
  | .checking =>
    if occupied disk directory then { disk, rows, phase := .reading }
    else { disk, rows, phase := .copying publisher.release.files }
  | .reading =>
    match get disk (directory ++ ["manifest.json"]) with
    | some (.file (.manifest manifest)) =>
      if manifest.identitySha256 ≠ digests.identity identity then
        { disk, rows, phase := .raised .differentIdentity }
      else { disk, rows, phase := .verifying manifest manifest.identity.files }
    | _ => { disk, rows, phase := .raised .manifestUnreadable }
  | .verifying manifest [] => { disk, rows, phase := persisting publisher.persist manifest }
  | .verifying manifest (file :: rest) =>
    match verifyFile digests disk directory file with
    | .error error => { disk, rows, phase := .raised error }
    | .ok () => { disk, rows, phase := .verifying manifest rest }
  | .copying [] =>
    match makeDirectories disk [staging] with
    | none => abandon root disk rows publisher .notWritten
    | some made =>
      let manifest := manifestOf digests identity now
      { disk := made, rows, phase := .writing manifest (documentsOf manifest) }
  | .copying (file :: rest) =>
    match get disk file.sourcePath with
    | some (.file content) =>
      match copyFrozen disk staging file.frozen.path content with
      | none => abandon root disk rows publisher .notWritten
      | some copied => { disk := copied, rows, phase := .hashing file rest }
    | _ => abandon root disk rows publisher .notWritten
  | .hashing file rest =>
    match get disk (file.frozen.path.resolve staging) with
    | some (.file content) =>
      if digests.file content ≠ file.frozen.sha256 then
        abandon root disk rows publisher (.frozenChecksum file.frozen.path)
      else { disk, rows, phase := .copying rest }
    | _ => abandon root disk rows publisher .notWritten
  | .writing manifest [] => { disk, rows, phase := .replacing manifest }
  | .writing manifest (document :: rest) =>
    match writeFile disk (staging ++ [document.1]) document.2 with
    | none => abandon root disk rows publisher .notWritten
    | some written => { disk := written, rows, phase := .writing manifest rest }
  | .replacing manifest =>
    if occupied disk directory ∨ ¬ occupied disk staging then
      abandon root disk rows publisher .notReplaced
    else
      { disk := rename disk staging directory, rows
        phase := persisting publisher.persist manifest }
  | .selecting manifest =>
    match rows.find? (fun row => row.id = manifest.dataReleaseId) with
    | some row =>
      if row.manifestSha256 ≠ manifest.manifestSha256 then
        { disk, rows, phase := .raised .differentManifest }
      else { disk, rows, phase := .returned manifest }
    | none => { disk, rows, phase := .inserting manifest }
  | .inserting manifest =>
    if rows.any (fun row => row.id = manifest.dataReleaseId) then
      { disk, rows, phase := .raised .notInserted }
    else
      let row : Row :=
        { id := manifest.dataReleaseId
          manifestSha256 := manifest.manifestSha256
          manifestPath := ["releases", releaseId digests identity, "manifest.json"] }
      { disk, rows := rows ++ [row], phase := .returned manifest }
  | .returned manifest => { disk, rows, phase := .returned manifest }
  | .raised error => { disk, rows, phase := .raised error }
  | .crashed => { disk, rows, phase := .crashed }

/-- A crash in the middle of writing a file may leave anything in it. -/
def Publisher.torn (publisher : Publisher) (disk : Disk) (left : Document) : Disk :=
  let staging := stagingOf root publisher.staging
  match publisher.phase with
  | .copying (file :: _) => (copyFrozen disk staging file.frozen.path left).getD disk
  | .writing _ (document :: _) => (writeFile disk (staging ++ [document.1]) left).getD disk
  | _ => disk

end Steps

/-! ## Publishers at the same time -/

structure World where
  disk : Disk
  rows : List Row
  publishers : List Publisher
  deriving DecidableEq

inductive Action where
  | start (spec : Spec) (staging : String) (persist : Bool)
  | step (index now : ℕ)
  /-- `left` is what a file that was being written holds then. -/
  | crash (index : ℕ) (left : Option Document)
  deriving DecidableEq

section Worlds

variable (digests : Digests) (root : List String)

/-- The publisher of a spec, if the spec is accepted. -/
def publisherOf (world : World) (spec : Spec) (staging : String) (persist : Bool) :
    Option Publisher :=
  match prepareRelease digests root world.disk spec with
  | .ok release => some { release, staging, persist, phase := .checking }
  | .error _ => none

def World.next (world : World) : Action → World
  | .start spec staging persist =>
    { world with
      publishers := world.publishers ++
        (publisherOf digests root world spec staging persist).toList }
  | .step index now =>
    match world.publishers[index]? with
    | none => world
    | some publisher =>
      let turn := publisher.step digests root now world.disk world.rows
      { disk := turn.disk
        rows := turn.rows
        publishers := world.publishers.set index { publisher with phase := turn.phase } }
  | .crash index left =>
    match world.publishers[index]? with
    | none => world
    | some publisher =>
      if publisher.phase.running then
        { world with
          disk := (left.map (publisher.torn root world.disk)).getD world.disk
          publishers := world.publishers.set index { publisher with phase := .crashed } }
      else world

/-- A spec that is accepted and has the identity, and a name that no staging directory has. -/
def World.starts (identity : Identity) (world : World) (spec : Spec) (staging : String)
    (persist : Bool) : Prop :=
  (publisherOf digests root world spec staging persist).any
      (fun publisher => publisher.release.identity digests = identity) ∧
    occupied world.disk (stagingOf root staging) = false ∧
      staging ∉ world.publishers.map Publisher.staging

instance (identity : Identity) (world : World) (spec : Spec) (staging : String) (persist : Bool) :
    Decidable (world.starts digests root identity spec staging persist) :=
  inferInstanceAs (Decidable (_ ∧ _ ∧ _))

/-- Any publishers of one identity, in any order. -/
def publications (identity : Identity) : Machines.Machine World Action where
  allowed := fun world action =>
    match action with
    | .start spec staging persist => world.starts digests root identity spec staging persist
    | .step _ _ | .crash _ _ => True
  next := World.next digests root

instance (identity : Identity) (world : World) (action : Action) :
    Decidable ((publications digests root identity).allowed world action) :=
  match action with
  | .start spec staging persist =>
    inferInstanceAs (Decidable (world.starts digests root identity spec staging persist))
  | .step _ _ | .crash _ _ => .isTrue trivial

end Worlds

end LocalPlatform.Releases
