import LocalPlatform.Objects.Store

/-!
# What the calls keep of the object store

`Intact` says that the ids of the rows are unique and taken over their names, and that every row
reads as the content of its digest.

* `flatten_pieces` and `readChunks_insert`: the chunks of an object join to its content.
* `writeFile_ok`: a written file holds its content, and the other files stay.
* `putBytes_grows` and `migrate_grows`: these calls keep the store intact and every id in it.
* `deleteObject_intact`: a deletion does so for the other ids, when no other row has the file of
  the deleted one.
-/

namespace LocalPlatform.Objects

open Paper Tables

/-! ## Chunks -/

theorem flatten_pieces {size : Nat} (hsize : 0 < size) (data : Bytes) :
    (pieces size data).flatten = data := by
  have htake : ∀ n, ((List.range n).map (fun i => (data.drop (i * size)).take size)).flatten =
      data.take (n * size) := by
    intro n
    induction n with
    | zero => simp
    | succ n ih =>
      rw [List.range_succ, List.map_append, List.flatten_append, ih, Nat.succ_mul, List.take_add]
      simp
  rw [pieces, htake]
  apply List.take_of_length_le
  have hdiv := Nat.div_add_mod (data.length + size - 1) size
  have hmod := Nat.mod_lt (data.length + size - 1) hsize
  rw [Nat.mul_comm] at hdiv
  omega

theorem chunksOf_sorted (id : ObjectId) (ps : List Bytes) :
    (chunksOf id ps).Pairwise (fun a b => a.index ≤ b.index) := by
  rw [chunksOf, List.pairwise_map]
  have hindices : (ps.zipIdx.map Prod.snd).Pairwise (· < ·) := by
    rw [List.zipIdx_map_snd]
    exact List.pairwise_lt_range'
  rw [List.pairwise_map] at hindices
  exact hindices.imp Nat.le_of_lt

theorem filter_chunksOf (id : ObjectId) (ps : List Bytes) :
    (chunksOf id ps).filter (fun chunk => chunk.objectId == id) = chunksOf id ps := by
  rw [List.filter_eq_self]
  intro chunk hchunk
  obtain ⟨piece, _, rfl⟩ := List.mem_map.mp hchunk
  simp

theorem filter_dropChunks (chunks : List Chunk) (id : ObjectId) :
    (dropChunks chunks id).filter (fun chunk => chunk.objectId == id) = [] := by
  rw [List.filter_eq_nil_iff]
  intro chunk hchunk
  have hne := (List.mem_filter.mp hchunk).2
  simpa using hne

theorem readChunks_insert (chunks : List Chunk) (id : ObjectId) (ps : List Bytes) :
    readChunks (dropChunks chunks id ++ chunksOf id ps) id = ps.flatten := by
  rw [readChunks, List.filter_append, filter_dropChunks, List.nil_append, filter_chunksOf,
    orderBy_of_sorted (chunksOf_sorted id ps), chunksOf, List.flatMap_map, List.flatMap_def]
  congr 1
  exact List.zipIdx_map_fst 0 ps

variable {id : ObjectId} {chunks : List Chunk} {other : ObjectId}

theorem readChunks_drop (h : other ≠ id) :
    readChunks (dropChunks chunks id) other = readChunks chunks other := by
  have hfilter : (dropChunks chunks id).filter (fun chunk => chunk.objectId == other) =
      chunks.filter (fun chunk => chunk.objectId == other) := by
    rw [dropChunks, List.filter_filter]
    congr 1
    funext chunk
    by_cases hchunk : chunk.objectId = other
    · simp [hchunk, h]
    · simp [hchunk]
  rw [readChunks, hfilter, readChunks]

theorem readChunks_insert_other (h : other ≠ id) (ps : List Bytes) :
    readChunks (dropChunks chunks id ++ chunksOf id ps) other = readChunks chunks other := by
  have hnone : (chunksOf id ps).filter (fun chunk => chunk.objectId == other) = [] := by
    rw [List.filter_eq_nil_iff]
    intro chunk hchunk
    obtain ⟨piece, _, rfl⟩ := List.mem_map.mp hchunk
    simpa using Ne.symm h
  rw [readChunks, List.filter_append, hnone, List.append_nil, ← readChunks, readChunks_drop h]

theorem PutCall.readChunks_other (call : PutCall) (config : Config) (mode : StorageMode)
    (h : other ≠ call.id) :
    readChunks (call.chunks config mode chunks) other = readChunks chunks other := by
  cases mode with
  | filesystem => exact readChunks_drop h
  | database => exact readChunks_insert_other h _

theorem PutCall.readChunks_self (call : PutCall) (config : Config) (chunks : List Chunk) :
    readChunks (call.chunks config .database chunks) call.id = call.data := by
  have hsize : 0 < (max 1 config.chunkBytes).toNat := by omega
  rw [PutCall.chunks, readChunks_insert, flatten_pieces hsize]

/-! ## Files -/

/-- Every file holds the content of the digest in its key. -/
def FilesIntact (files : List StoredFile) : Prop :=
  ∀ file ∈ files, file.data = file.key.digest.payload

/-- The files of one list are files of the other. -/
def FilesKept (files files' : List StoredFile) : Prop :=
  ∀ key data, fileAt files key = some data → fileAt files' key = some data

variable {files : List StoredFile} {key : StorageKey} {data : Bytes}

theorem FilesIntact.fileAt (h : FilesIntact files) (hfile : fileAt files key = some data) :
    data = key.digest.payload := by
  obtain ⟨file, hfind, rfl⟩ := Option.map_eq_some_iff.mp hfile
  rw [h file (mem_of_find hfind), find_key hfind]

theorem writeFile_ok {refuses : StorageKey → Bool} {files' : List StoredFile}
    (hfiles : FilesIntact files) (hkey : key.digest = sha256 data)
    (h : writeFile refuses files key data = .ok files') :
    FilesIntact files' ∧ FilesKept files files' ∧ fileAt files' key = some data := by
  unfold writeFile at h
  cases hfile : fileAt files key with
  | some existing =>
    rw [hfile] at h
    have hexisting := hfiles.fileAt hfile
    dsimp only at h
    split_ifs at h
    cases h
    refine ⟨hfiles, fun _ _ hkept => hkept, ?_⟩
    rw [hfile, hexisting, hkey]
    rfl
  | none =>
    rw [hfile] at h
    dsimp only at h
    split_ifs at h
    cases h
    have hfresh : find StoredFile.key files key = none := Option.map_eq_none_iff.mp hfile
    have hfind : ∀ k, find StoredFile.key (files ++ [{ key := key, data := data }]) k =
        if k = key then some { key := key, data := data } else find StoredFile.key files k :=
      fun k => find_append_singleton hfresh k
    refine ⟨?_, ?_, ?_⟩
    · intro file hmem
      cases List.mem_append.mp hmem with
      | inl hold => exact hfiles file hold
      | inr hnew =>
        rw [List.mem_singleton.mp hnew, hkey]
        rfl
    · intro k content hcontent
      have hne : k ≠ key := by
        intro heq
        rw [heq, hfile] at hcontent
        cases hcontent
      rw [fileAt, hfind, if_neg hne]
      exact hcontent
    · rw [fileAt, hfind, if_pos rfl]
      rfl

theorem fileAt_unlink {other : StorageKey} (h : other ≠ key) :
    fileAt (unlink files key) other = fileAt files other := by
  have hfind : find StoredFile.key (unlink files key) other = find StoredFile.key files other := by
    unfold find unlink
    rw [List.find?_filter]
    congr 1
    funext file
    by_cases hfile : file.key = other
    · simp [hfile, h]
    · simp [hfile]
  rw [fileAt, hfind, fileAt]

theorem FilesIntact.unlink (h : FilesIntact files) (key : StorageKey) :
    FilesIntact (unlink files key) :=
  fun file hmem => h file (List.mem_filter.mp hmem).1

/-! ## Rows -/

/-- Every row has its own id and reads as the content of its digest. -/
structure Intact (s : Store) : Prop where
  unique : Unique StoredObject.id s.rows
  named : ∀ row ∈ s.rows, row.id = objectId row.objectNamespace row.objectKey row.digest
  sized : ∀ row ∈ s.rows, row.size = row.digest.payload.length
  files : FilesIntact s.files
  stored : ∀ row ∈ s.rows, payload s row = .ok row.digest.payload

def Present (s : Store) (id : ObjectId) : Prop := ∃ row ∈ s.rows, row.id = id

/-- An intact store with all the ids of another one. -/
structure Grows (s s' : Store) : Prop where
  intact : Intact s'
  ids : ∀ id, Present s id → Present s' id

variable {s : Store}

theorem Intact.grows (h : Intact s) : Grows s s := ⟨h, fun _ hid => hid⟩

theorem Grows.trans {s' s'' : Store} (h : Grows s s') (h' : Grows s' s'') : Grows s s'' :=
  ⟨h'.intact, fun id hid => h'.ids id (h.ids id hid)⟩

theorem find_id_isSome_iff : (find StoredObject.id s.rows id).isSome ↔ Present s id := by
  constructor
  · intro h
    obtain ⟨row, hfind⟩ := Option.isSome_iff_exists.mp h
    exact ⟨row, mem_of_find hfind, find_key hfind⟩
  · intro h
    obtain ⟨row, hrow, hid⟩ := h
    apply Option.isSome_iff_ne_none.mpr
    rw [ne_eq, find_eq_none_iff, not_not]
    exact hid ▸ List.mem_map_of_mem hrow

variable {row : StoredObject}

theorem Intact.digest (h : Intact s) (hrow : row ∈ s.rows) : row.digest = row.id.digest := by
  rw [h.named row hrow]
  rfl

theorem Intact.id_of_naming (h : Intact s) {a b : StoredObject} (ha : a ∈ s.rows) (hb : b ∈ s.rows)
    (hname : a.naming = b.naming) : a.id = b.id := by
  simp only [StoredObject.naming, Prod.mk.injEq] at hname
  rw [h.named a ha, h.named b hb, hname.1, hname.2.1, hname.2.2]

theorem Intact.readBytes (h : Intact s) (hid : Present s id) :
    readBytes s id = .ok id.digest.payload := by
  obtain ⟨row, hrow, rfl⟩ := hid
  rw [Objects.readBytes, h.unique.find_of_mem hrow]
  simp only [h.stored row hrow]
  rw [if_neg, h.digest hrow]
  simp [h.sized row hrow, sha256]

theorem payload_kept {s' : Store}
    (hfiles : ∀ key content, row.file = some key → fileAt s.files key = some content →
      fileAt s'.files key = some content)
    (hchunks : row.storageMode = .database → readChunks s'.chunks row.id = readChunks s.chunks row.id)
    (h : payload s row = .ok data) : payload s' row = .ok data := by
  cases hmode : row.storageMode with
  | database =>
    simp only [payload, hmode] at h ⊢
    rw [hchunks hmode, h]
  | filesystem =>
    simp only [payload, hmode, readFile] at h ⊢
    cases hkey : row.storageKey with
    | none => simp [hkey] at h
    | some key =>
      simp only [hkey] at h ⊢
      cases hfile : fileAt s.files key with
      | none => simp [hfile] at h
      | some content =>
        have hown : row.file = some key := by simp [StoredObject.file, hmode, hkey]
        rw [hfile] at h
        rw [hfiles key content hown hfile]
        exact h

theorem Intact.withFiles (h : Intact s) (hfiles : FilesIntact files)
    (hkept : FilesKept s.files files) :
    Intact { s with files := files } where
  unique := h.unique
  named := h.named
  sized := h.sized
  files := hfiles
  stored := fun row hrow =>
    payload_kept (fun key content _ hfile => hkept key content hfile) (fun _ => rfl)
      (h.stored row hrow)

/-! ## Puts -/

section Put

variable {config : Config} {call : PutCall} {mode : StorageMode} {key : Option StorageKey}
  {s : Store}

/-- The content of a call can be read where the call puts it. -/
def Placed (config : Config) (call : PutCall) (mode : StorageMode) (key : Option StorageKey)
    (s : Store) : Prop :=
  payload { s with chunks := call.chunks config mode s.chunks } (call.row mode key) = .ok call.data

theorem placed_database : Placed config call .database none s := by
  simp only [Placed, payload, PutCall.row]
  rw [call.readChunks_self]

theorem placed_filesystem {key : StorageKey} (h : fileAt s.files key = some call.data) :
    Placed config call .filesystem (some key) s := by
  simp only [Placed, payload, PutCall.row, readFile, h]

theorem Intact.stored_other (h : Intact s) {row : StoredObject} (hrow : row ∈ s.rows)
    (hne : row.id ≠ call.id) {rows : List StoredObject} :
    payload { rows := rows, chunks := call.chunks config mode s.chunks, files := s.files } row =
      .ok row.digest.payload :=
  @payload_kept _ s row _ (fun _ _ _ hfile => hfile)
    (fun _ => call.readChunks_other config mode hne) (h.stored row hrow)

theorem Intact.append (h : Intact s) (hplaced : Placed config call mode key s)
    (hfresh : ¬ Present s call.id) :
    Intact { s with
      rows := s.rows ++ [call.row mode key]
      chunks := call.chunks config mode s.chunks } where
  unique := by
    apply h.unique.append_singleton
    rw [← Option.not_isSome_iff_eq_none]
    exact fun hsome => hfresh (find_id_isSome_iff.mp hsome)
  named := by
    intro row hrow
    cases List.mem_append.mp hrow with
    | inl hold => exact h.named row hold
    | inr hnew =>
      rw [List.mem_singleton.mp hnew]
      rfl
  sized := by
    intro row hrow
    cases List.mem_append.mp hrow with
    | inl hold => exact h.sized row hold
    | inr hnew =>
      rw [List.mem_singleton.mp hnew]
      rfl
  files := h.files
  stored := by
    intro row hrow
    cases List.mem_append.mp hrow with
    | inl hold => exact h.stored_other hold (fun heq => hfresh ⟨row, hold, heq⟩)
    | inr hnew =>
      rw [List.mem_singleton.mp hnew]
      exact hplaced

theorem Intact.naming (h : Intact s) {old : StoredObject}
    (hfind : find StoredObject.naming s.rows (call.row mode key).naming = some old) :
    old ∈ s.rows ∧ old.id = call.id ∧ old.digest = sha256 call.data := by
  have hmem := mem_of_find hfind
  have hname := find_key hfind
  simp only [StoredObject.naming, PutCall.row, Prod.mk.injEq] at hname
  refine ⟨hmem, ?_, hname.2.2⟩
  rw [h.named old hmem, hname.1, hname.2.1, hname.2.2]
  rfl

theorem Intact.update (h : Intact s) (hplaced : Placed config call mode key s) {old : StoredObject}
    (hfind : find StoredObject.naming s.rows (call.row mode key).naming = some old) :
    Intact { s with
      rows := put StoredObject.naming s.rows (old.update (call.row mode key))
      chunks := call.chunks config mode s.chunks } := by
  have hold := h.naming hfind
  -- a row after the update is the updated one, or another one of before
  have hrows : ∀ row ∈ put StoredObject.naming s.rows (old.update (call.row mode key)),
      row = old.update (call.row mode key) ∨ row ∈ s.rows ∧ row.id ≠ call.id := by
    intro row hrow
    obtain ⟨before, hbefore, rfl⟩ := List.mem_map.mp hrow
    by_cases hname : before.naming = (old.update (call.row mode key)).naming
    · exact .inl (if_pos hname)
    · rw [if_neg hname]
      refine .inr ⟨hbefore, ?_⟩
      intro hid
      have hsame := h.unique.eq hbefore hold.1 (hid.trans hold.2.1.symm)
      rw [hsame] at hname
      exact hname rfl
  constructor
  · apply h.unique.map
    intro row hrow
    by_cases hname : row.naming = (old.update (call.row mode key)).naming
    · rw [if_pos hname]
      show old.id = row.id
      exact h.id_of_naming hold.1 hrow hname.symm
    · rw [if_neg hname]
  · intro row hrow
    cases hrows row hrow with
    | inl hnew =>
      rw [hnew]
      exact h.named old hold.1
    | inr hother => exact h.named row hother.1
  · intro row hrow
    cases hrows row hrow with
    | inl hnew =>
      rw [hnew]
      show call.data.length = old.digest.payload.length
      rw [hold.2.2]
      rfl
    | inr hother => exact h.sized row hother.1
  · exact h.files
  · intro row hrow
    cases hrows row hrow with
    | inl hnew =>
      rw [hnew]
      have hread : payload { s with
          rows := put StoredObject.naming s.rows (old.update (call.row mode key))
          chunks := call.chunks config mode s.chunks } (old.update (call.row mode key)) =
          payload { s with chunks := call.chunks config mode s.chunks } (call.row mode key) := by
        simp only [payload, readFile, StoredObject.update, PutCall.row, hold.2.1]
      rw [hread, hplaced]
      show _ = Except.ok old.digest.payload
      rw [hold.2.2]
      rfl
    | inr hother => exact h.stored_other hother.1 hother.2

theorem getObject_eq_some {rows : List StoredObject} {id id' : ObjectId}
    (h : getObject rows id = some id') : id' = id ∧ ∃ row ∈ rows, row.id = id := by
  obtain ⟨row, hfind, rfl⟩ := Option.map_eq_some_iff.mp h
  exact ⟨find_key hfind, row, mem_of_find hfind, find_key hfind⟩

theorem insertObject_grows (h : Intact s) (hplaced : Placed config call mode key s) :
    Grows s (insertObject config call mode key s).1 := by
  unfold insertObject
  by_cases hbulk : call.bulk ∧ (find StoredObject.id s.rows call.id).isSome
  · rw [if_pos hbulk]
    exact h.grows
  · rw [if_neg hbulk]
    dsimp only
    cases hfind : find StoredObject.naming s.rows (call.row mode key).naming with
    | none =>
      dsimp only
      split_ifs with hpresent
      · exact h.grows
      · refine ⟨h.append hplaced (fun hin => hpresent (find_id_isSome_iff.mpr hin)), ?_⟩
        intro id hid
        obtain ⟨row, hrow, hrowId⟩ := hid
        exact ⟨row, List.mem_append_left _ hrow, hrowId⟩
    | some old =>
      refine ⟨h.update hplaced hfind, ?_⟩
      intro id hid
      obtain ⟨row, hrow, rfl⟩ := hid
      refine ⟨_, List.mem_map_of_mem hrow, ?_⟩
      by_cases hname : row.naming = (old.update (call.row mode key)).naming
      · rw [if_pos hname]
        show old.id = row.id
        exact h.id_of_naming (h.naming hfind).1 hrow hname.symm
      · rw [if_neg hname]

theorem insertObject_id {id : ObjectId}
    (h : (insertObject config call mode key s).2 = .ok (some id)) :
    id = call.id ∧ Present (insertObject config call mode key s).1 id := by
  unfold insertObject at h ⊢
  by_cases hbulk : call.bulk ∧ (find StoredObject.id s.rows call.id).isSome
  · rw [if_pos hbulk] at h ⊢
    have hid := getObject_eq_some (Except.ok.inj h)
    exact ⟨hid.1, hid.1 ▸ hid.2⟩
  · rw [if_neg hbulk] at h ⊢
    dsimp only at h ⊢
    cases hfind : find StoredObject.naming s.rows (call.row mode key).naming with
    | none =>
      rw [hfind] at h
      dsimp only at h ⊢
      split_ifs at h ⊢
      have hid := getObject_eq_some (Except.ok.inj h)
      exact ⟨hid.1, hid.1 ▸ hid.2⟩
    | some old =>
      rw [hfind] at h
      have hid := getObject_eq_some (Except.ok.inj h)
      exact ⟨hid.1, hid.1 ▸ hid.2⟩

end Put

theorem storageKey_digest {objectNamespace : String} {digest : Digest Bytes}
    (h : storageKey objectNamespace digest = .ok key) : key.digest = digest := by
  unfold storageKey at h
  dsimp only at h
  split_ifs at h
  cases h
  rfl

/-- The store in which a put calls its transaction. -/
inductive PutReaches (config : Config) (call : PutCall) (s : Store) :
    Store × Except StoreError (Option ObjectId) → Prop where
  | raised (error : StoreError) : PutReaches config call s (s, .error error)
  | disabled : PutReaches config call s (s, .ok none)
  | inserted (mode : StorageMode) (key : Option StorageKey) (files : List StoredFile)
      (hfiles : FilesIntact files) (hkept : FilesKept s.files files)
      (hplaced : Placed config call mode key { s with files := files }) :
      PutReaches config call s (insertObject config call mode key { s with files := files })

variable {config : Config} {call : PutCall}

theorem Intact.putReaches (h : Intact s) : PutReaches config call s (putBytes config call s) := by
  unfold putBytes
  split_ifs
  · exact .disabled
  · exact .raised _
  · cases configuredStorageMode call.mode with
    | error error => exact .raised error
    | ok mode =>
      cases mode with
      | database => exact .inserted .database none s.files h.files (fun _ _ hk => hk) placed_database
      | filesystem =>
        dsimp only
        cases hkey : storageKey call.storedNamespace (sha256 call.data) with
        | error error => exact .raised error
        | ok key =>
          dsimp only
          cases hwrite : writeFile call.refuses s.files key call.data with
          | error error => exact .raised error
          | ok files =>
            have hok := writeFile_ok h.files (storageKey_digest hkey) hwrite
            exact .inserted .filesystem (some key) files hok.1 hok.2.1 (placed_filesystem hok.2.2)

theorem putBytes_grows (h : Intact s) : Grows s (putBytes config call s).1 := by
  have hreaches := @Intact.putReaches s config call h
  generalize putBytes config call s = out at hreaches
  cases hreaches with
  | raised error => exact h.grows
  | disabled => exact h.grows
  | inserted mode key files hfiles hkept hplaced =>
    have hgrows := insertObject_grows (h.withFiles hfiles hkept) hplaced
    exact ⟨hgrows.intact, fun id hid => hgrows.ids id hid⟩

theorem putBytes_id (h : Intact s) (hid : (putBytes config call s).2 = .ok (some id)) :
    id = call.id ∧ Present (putBytes config call s).1 id := by
  have hreaches := @Intact.putReaches s config call h
  generalize putBytes config call s = out at hreaches hid ⊢
  cases hreaches with
  | raised error => cases hid
  | disabled => cases hid
  | inserted mode key files hfiles hkept hplaced => exact insertObject_id hid

/-! ## Deletions -/

def FileUnshared (s : Store) (id : ObjectId) : Prop :=
  ∀ row ∈ s.rows, row.id = id → ∀ other ∈ s.rows, other.id ≠ id →
    row.file = none ∨ other.file ≠ row.file

instance (s : Store) (id : ObjectId) : Decidable (FileUnshared s id) :=
  inferInstanceAs (Decidable (∀ row ∈ s.rows, row.id = id → ∀ other ∈ s.rows, other.id ≠ id →
    row.file = none ∨ other.file ≠ row.file))

theorem deleteObject_intact {archive : Option String} (h : Intact s)
    (hunshared : archive = none → FileUnshared s id) : Intact (deleteObject id archive s).1 := by
  cases archive with
  | some archive => exact h
  | none =>
    have hshared := hunshared rfl
    simp only [deleteObject]
    constructor
    · exact (List.filter_sublist.map StoredObject.id).nodup h.unique
    · exact fun row hrow => h.named row (List.mem_filter.mp hrow).1
    · exact fun row hrow => h.sized row (List.mem_filter.mp hrow).1
    · dsimp only
      split
      · exact h.files.unlink _
      · exact h.files
    · intro row hrow
      have hold := List.mem_filter.mp hrow
      have hne : row.id ≠ id := by simpa using hold.2
      apply payload_kept _ (fun _ => readChunks_drop hne) (h.stored row hold.1)
      intro key content hown hfile
      dsimp only
      split
      · rename_i gone hgone
        obtain ⟨deleted, hfind, hdeleted⟩ := Option.bind_eq_some_iff.mp hgone
        have hother := hshared deleted (mem_of_find hfind) (find_key hfind) row hold.1 hne
        have hkey : key ≠ gone := by
          intro heq
          cases hother with
          | inl hnone =>
            rw [hnone] at hdeleted
            cases hdeleted
          | inr hdifferent => exact hdifferent (by rw [hown, hdeleted, heq])
        rw [fileAt_unlink hkey]
        exact hfile
      · exact hfile

theorem deleteObject_ids {archive : Option String} (hne : other ≠ id) (hpresent : Present s other) :
    Present (deleteObject id archive s).1 other := by
  cases archive with
  | some archive => exact hpresent
  | none =>
    obtain ⟨row, hrow, hid⟩ := hpresent
    exact ⟨row, List.mem_filter.mpr ⟨hrow, by simpa [hid] using hne⟩, hid⟩

/-! ## Migrations -/

theorem Intact.move (h : Intact s) {now : String} (hfiles : FilesIntact files)
    (hkept : FilesKept s.files files) (hfile : fileAt files key = some id.digest.payload) :
    Intact
      { rows := s.rows.map (fun old => if old.id = id then old.moved key now else old)
        chunks := dropChunks s.chunks id
        files := files } := by
  constructor
  · apply h.unique.map
    intro row _
    split_ifs
    · rfl
    · rfl
  · intro row hrow
    obtain ⟨old, hold, rfl⟩ := List.mem_map.mp hrow
    split_ifs
    · exact h.named old hold
    · exact h.named old hold
  · intro row hrow
    obtain ⟨old, hold, rfl⟩ := List.mem_map.mp hrow
    split_ifs
    · exact h.sized old hold
    · exact h.sized old hold
  · exact hfiles
  · intro row hrow
    obtain ⟨old, hold, rfl⟩ := List.mem_map.mp hrow
    by_cases hid : old.id = id
    · rw [if_pos hid]
      simp only [payload, readFile, StoredObject.moved, hfile]
      rw [h.digest hold, hid]
    · rw [if_neg hid]
      exact @payload_kept _ s old _ (fun k content _ hk => hkept k content hk)
        (fun _ => readChunks_drop hid) (h.stored old hold)

theorem present_of_readBytes (h : readBytes s id = .ok data) : Present s id := by
  rw [← find_id_isSome_iff]
  unfold readBytes at h
  cases hfind : find StoredObject.id s.rows id with
  | none => simp [hfind] at h
  | some row => rfl

theorem migrateRow_grows {call : MigrateCall} {n : Nat} (h : Intact s) :
    Grows s (migrateRow call n row s).1 := by
  unfold migrateRow
  cases hread : readBytes s row.id with
  | error error => exact h.grows
  | ok data =>
    have hdata := h.readBytes (present_of_readBytes hread)
    rw [hread] at hdata
    dsimp only
    split_ifs with hdigest
    · exact h.grows
    · cases hkey : storageKey row.objectNamespace (sha256 data) with
      | error error => exact h.grows
      | ok key =>
        dsimp only
        cases hwrite : writeFile call.refuses s.files key data with
        | error error => exact h.grows
        | ok files =>
          have hok := writeFile_ok h.files (storageKey_digest hkey) hwrite
          refine ⟨h.move hok.1 hok.2.1 (by rw [hok.2.2, Except.ok.inj hdata]), ?_⟩
          intro id hid
          obtain ⟨old, hold, rfl⟩ := hid
          refine ⟨_, List.mem_map_of_mem hold, ?_⟩
          split_ifs
          · rfl
          · rfl

theorem migrateRows_grows {call : MigrateCall} {rows : List StoredObject} :
    ∀ {n : Nat} {s : Store}, Intact s → Grows s (migrateRows call n rows s).1 := by
  induction rows with
  | nil =>
    intro n s h
    exact h.grows
  | cons row rows ih =>
    intro n s h
    have hrow := @migrateRow_grows s row call n h
    rw [migrateRows]
    cases hout : migrateRow call n row s with
    | mk after result =>
      rw [hout] at hrow
      cases result with
      | error error => exact hrow
      | ok _ => exact hrow.trans (ih hrow.intact)

theorem migrate_grows {call : MigrateCall} (h : Intact s) :
    Grows s (migrateDatabaseObjectsToFilesystem config call s).1 :=
  migrateRows_grows h

end LocalPlatform.Objects
