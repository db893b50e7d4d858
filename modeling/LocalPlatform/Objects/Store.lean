import LocalPlatform.Lib.Rows
import LocalPlatform.Paper.Values
import Mathlib.Data.Prod.Lex

/-!
# The object store

`put_bytes`, `read_bytes`, `delete_object` and `migrate_database_objects_to_filesystem` over the
rows of `stored_objects`, the rows of `stored_object_chunks` and the files under the root.

* A row is stored in the database, as chunks, or in the filesystem, as a file whose key is made of
  the namespace and the digest.
* A call gives the store after it, and its result or the error it raises.  A file that was written
  before an error stays, and a transaction that raises changes no row.
* A digest is the content it was taken over, and a UUID is the name it was taken over, so neither
  collides.  `uuidText` is the text of a UUID, which only the order of the migration reads.

The root and the size of a chunk are fixed.  Content types, source paths and the other metadata of
a row are left out.
-/

namespace LocalPlatform.Objects

open Paper Tables

abbrev Bytes := List UInt8

/-- `hashlib.sha256(data).hexdigest()` -/
def sha256 (data : Bytes) : Digest Bytes := ⟨data⟩

inductive StorageMode where
  | database
  | filesystem
  deriving DecidableEq

/-- The name that `object_id` takes its UUID over: `namespace:key` and the digest. -/
structure ObjectId where
  name : String
  digest : Digest Bytes
  deriving DecidableEq

/-- `object_id` -/
def objectId (objectNamespace objectKey : String) (digest : Digest Bytes) : ObjectId where
  name := objectNamespace ++ ":" ++ objectKey
  digest := digest

/-- The parts of the namespace, and the digest that names the directory and the file. -/
structure StorageKey where
  parts : List String
  digest : Digest Bytes
  deriving DecidableEq

/-- A row of `stored_objects`. -/
structure StoredObject where
  id : ObjectId
  objectNamespace : String
  objectKey : String
  size : Nat
  digest : Digest Bytes
  storageMode : StorageMode
  storageKey : Option StorageKey
  updatedAt : String
  deriving DecidableEq

/-- The columns that are unique next to the id. -/
def StoredObject.naming (row : StoredObject) : String × String × Digest Bytes :=
  (row.objectNamespace, row.objectKey, row.digest)

/-- The file of a row, which `delete_object` unlinks. -/
def StoredObject.file (row : StoredObject) : Option StorageKey :=
  match row.storageMode with
  | .filesystem => row.storageKey
  | .database => none

/-- A row of `stored_object_chunks`. -/
structure Chunk where
  objectId : ObjectId
  index : Nat
  data : Bytes
  deriving DecidableEq

/-- A file under the root. -/
structure StoredFile where
  key : StorageKey
  data : Bytes
  deriving DecidableEq

structure Store where
  rows : List StoredObject
  chunks : List Chunk
  files : List StoredFile
  deriving DecidableEq

/-- The exceptions of the store.  `integrityError` is a violated unique constraint, and `osError`
a write that the operating system refuses. -/
inductive StoreError where
  | valueError (message : String)
  | missing (id : ObjectId)
  | missingStorageKey (id : ObjectId)
  | fileMissing (id : ObjectId)
  | checksumMismatch (id : ObjectId)
  | collision (key : StorageKey)
  | referencedByProviderArchive (archive : String)
  | integrityError
  | osError
  deriving DecidableEq

structure Config where
  enabled : Bool
  chunkBytes : Int
  uuidText : ObjectId → String

/-! ## Files -/

/-- `_configured_storage_mode` -/
def configuredStorageMode (mode : String) : Except StoreError StorageMode :=
  if lower (strip mode) = "database" then .ok .database
  else if lower (strip mode) = "filesystem" then .ok .filesystem
  else .error (.valueError "LEAN_OBJECT_STORE_MODE must be 'database' or 'filesystem'.")

/-- `value.replace("\\", "/")` -/
def slashed (value : String) : String :=
  String.ofList (value.toList.map (fun c => if c = '\\' then '/' else c))

def pathParts (value : String) : List String :=
  (((slashed value).toList.splitOn '/').map String.ofList).filter (· ≠ "")

/-- `_storage_key` -/
def storageKey (objectNamespace : String) (digest : Digest Bytes) : Except StoreError StorageKey :=
  let parts := pathParts objectNamespace
  if parts = [] ∨ "." ∈ parts ∨ ".." ∈ parts then
    .error (.valueError "object namespace must be a relative path.")
  else .ok { parts := parts, digest := digest }

def fileAt (files : List StoredFile) (key : StorageKey) : Option Bytes :=
  (find StoredFile.key files key).map StoredFile.data

/-- `_write_file`; `refuses` are the keys that the operating system does not let be written. -/
def writeFile (refuses : StorageKey → Bool) (files : List StoredFile) (key : StorageKey)
    (data : Bytes) : Except StoreError (List StoredFile) :=
  match fileAt files key with
  | some existing =>
    if existing.length = data.length ∧ sha256 existing = sha256 data then .ok files
    else .error (.collision key)
  | none => if refuses key then .error .osError else .ok (files ++ [{ key := key, data := data }])

/-- `path.unlink(missing_ok=True)` -/
def unlink (files : List StoredFile) (key : StorageKey) : List StoredFile :=
  files.filter (fun file => file.key != key)

/-- `_read_file` -/
def readFile (files : List StoredFile) (row : StoredObject) : Except StoreError Bytes :=
  match row.storageKey with
  | none => .error (.missingStorageKey row.id)
  | some key =>
    match fileAt files key with
    | none => .error (.fileMissing row.id)
    | some data => .ok data

/-! ## Chunks -/

/-- `data[start : start + size]` of each `start` in `range(0, len(data), size)` -/
def pieces (size : Nat) (data : Bytes) : List Bytes :=
  (List.range ((data.length + size - 1) / size)).map (fun i => (data.drop (i * size)).take size)

def chunksOf (id : ObjectId) (pieces : List Bytes) : List Chunk :=
  pieces.zipIdx.map (fun piece => { objectId := id, index := piece.2, data := piece.1 })

def dropChunks (chunks : List Chunk) (id : ObjectId) : List Chunk :=
  chunks.filter (fun chunk => chunk.objectId != id)

/-- The chunks of an object by their index, joined. -/
def readChunks (chunks : List Chunk) (id : ObjectId) : Bytes :=
  (orderBy Chunk.index (chunks.filter (fun chunk => chunk.objectId == id))).flatMap Chunk.data

/-! ## Calls -/

structure PutCall where
  objectNamespace : String
  objectKey : String
  data : Bytes
  bulk : Bool
  mode : String
  refuses : StorageKey → Bool
  now : String

def PutCall.storedNamespace (call : PutCall) : String := strip call.objectNamespace

def PutCall.storedKey (call : PutCall) : String := slashed (strip call.objectKey)

/-- `item_id` -/
def PutCall.id (call : PutCall) : ObjectId :=
  objectId call.storedNamespace call.storedKey (sha256 call.data)

/-- The row that a call inserts. -/
def PutCall.row (call : PutCall) (mode : StorageMode) (key : Option StorageKey) : StoredObject where
  id := call.id
  objectNamespace := call.storedNamespace
  objectKey := call.storedKey
  size := call.data.length
  digest := sha256 call.data
  storageMode := mode
  storageKey := key
  updatedAt := call.now

/-- `do update set` -/
def StoredObject.update (old row : StoredObject) : StoredObject :=
  { old with
    size := row.size
    storageMode := row.storageMode
    storageKey := row.storageKey
    updatedAt := row.updatedAt }

/-- The chunks after a call. -/
def PutCall.chunks (call : PutCall) (config : Config) (mode : StorageMode) (chunks : List Chunk) :
    List Chunk :=
  match mode with
  | .filesystem => dropChunks chunks call.id
  | .database => dropChunks chunks call.id ++
      chunksOf call.id (pieces (max 1 config.chunkBytes).toNat call.data)

/-- The id of `get_object`. -/
def getObject (rows : List StoredObject) (id : ObjectId) : Option ObjectId :=
  (find StoredObject.id rows id).map StoredObject.id

/-- The transaction of `put_bytes`. -/
def insertObject (config : Config) (call : PutCall) (mode : StorageMode) (key : Option StorageKey)
    (s : Store) : Store × Except StoreError (Option ObjectId) :=
  if call.bulk ∧ (find StoredObject.id s.rows call.id).isSome then
    (s, .ok (getObject s.rows call.id))
  else
    let row := call.row mode key
    match find StoredObject.naming s.rows row.naming with
    | none =>
      -- the conflict clause does not cover the primary key
      if (find StoredObject.id s.rows call.id).isSome then (s, .error .integrityError)
      else
        let rows := s.rows ++ [row]
        ({ s with rows := rows, chunks := call.chunks config mode s.chunks },
          .ok (getObject rows call.id))
    | some old =>
      let rows := put StoredObject.naming s.rows (old.update row)
      ({ s with rows := rows, chunks := call.chunks config mode s.chunks },
        .ok (getObject rows call.id))

/-- `put_bytes` -/
def putBytes (config : Config) (call : PutCall) (s : Store) :
    Store × Except StoreError (Option ObjectId) :=
  if !config.enabled then (s, .ok none)
  else if call.storedNamespace = "" ∨ call.storedKey = "" then
    (s, .error (.valueError "namespace and key are required for database object storage."))
  else
    match configuredStorageMode call.mode with
    | .error error => (s, .error error)
    | .ok .database => insertObject config call .database none s
    | .ok .filesystem =>
      match storageKey call.storedNamespace (sha256 call.data) with
      | .error error => (s, .error error)
      | .ok key =>
        match writeFile call.refuses s.files key call.data with
        | .error error => (s, .error error)
        | .ok files => insertObject config call .filesystem (some key) { s with files := files }

def payload (s : Store) (row : StoredObject) : Except StoreError Bytes :=
  match row.storageMode with
  | .filesystem => readFile s.files row
  | .database => .ok (readChunks s.chunks row.id)

/-- `read_bytes` -/
def readBytes (s : Store) (id : ObjectId) : Except StoreError Bytes :=
  match find StoredObject.id s.rows id with
  | none => .error (.missing id)
  | some row =>
    match payload s row with
    | .error error => .error error
    | .ok data =>
      if data.length ≠ row.size ∨ sha256 data ≠ row.digest then .error (.checksumMismatch id)
      else .ok data

/-- `delete_object`; `archive` is the provider archive that references the object, if any. -/
def deleteObject (id : ObjectId) (archive : Option String) (s : Store) :
    Store × Except StoreError Unit :=
  match archive with
  | some archive => (s, .error (.referencedByProviderArchive archive))
  | none =>
    let files :=
      match (find StoredObject.id s.rows id).bind StoredObject.file with
      | some key => unlink s.files key
      | none => s.files
    ({ rows := s.rows.filter (fun row => row.id != id)
       chunks := dropChunks s.chunks id
       files := files }, .ok ())

structure MigrateCall where
  limit : Int
  objectNamespace : Option String
  refuses : StorageKey → Bool
  times : Nat → String

/-- The rows that a migration reads. -/
def MigrateCall.rows (call : MigrateCall) (config : Config) (s : Store) : List StoredObject :=
  (orderBy (fun row : StoredObject => toLex (row.updatedAt, config.uuidText row.id))
    (s.rows.filter (fun row => row.storageMode != .filesystem &&
      ((call.objectNamespace.getD "" == "") || call.objectNamespace == some row.objectNamespace)))).take
    (max 1 (min call.limit 10000)).toNat

/-- Write that a row is stored in the filesystem. -/
def StoredObject.moved (key : StorageKey) (now : String) (row : StoredObject) : StoredObject :=
  { row with storageMode := .filesystem, storageKey := some key, updatedAt := now }

/-- Move the `n`-th row of a migration. -/
def migrateRow (call : MigrateCall) (n : Nat) (row : StoredObject) (s : Store) :
    Store × Except StoreError Unit :=
  match readBytes s row.id with
  | .error error => (s, .error error)
  | .ok data =>
    if sha256 data ≠ row.digest then (s, .error (.checksumMismatch row.id))
    else
      match storageKey row.objectNamespace (sha256 data) with
      | .error error => (s, .error error)
      | .ok key =>
        match writeFile call.refuses s.files key data with
        | .error error => (s, .error error)
        | .ok files =>
          ({ rows := s.rows.map (fun old =>
              if old.id = row.id then old.moved key (call.times n) else old)
             chunks := dropChunks s.chunks row.id
             files := files }, .ok ())

/-- The loop of the migration from its `n`-th row on. -/
def migrateRows (call : MigrateCall) : Nat → List StoredObject → Store →
    Store × Except StoreError Nat
  | n, [], s => (s, .ok n)
  | n, row :: rows, s =>
    match migrateRow call n row s with
    | (s, .error error) => (s, .error error)
    | (s, .ok ()) => migrateRows call (n + 1) rows s

/-- `migrate_database_objects_to_filesystem`; the number of migrated rows is its result. -/
def migrateDatabaseObjectsToFilesystem (config : Config) (call : MigrateCall) (s : Store) :
    Store × Except StoreError Nat :=
  migrateRows call 0 (call.rows config s) s

end LocalPlatform.Objects
