import LocalPlatform.Lib.Machine
import LocalPlatform.Lib.Products
import LocalPlatform.Objects.Integrity

/-!
# The store as a map of immutable objects

A run of puts, deletions and migrations, together with what its puts returned.

* `Immutable` says that an object returned and not deleted is read as it was put, and that puts of
  different objects have different ids.
* A step is `Careful` when a deletion hits no file of another row, and when a put does not take the
  name of an object that was returned for something else.  `careful_of_plain`: plain names do not.
* `runs_immutable`: a run of careful steps is immutable in every state.
-/

namespace LocalPlatform.Objects

open Machines Paper Tables

/-! ## Runs -/

inductive Call where
  | put (call : PutCall)
  | delete (id : ObjectId) (archive : Option String)
  | migrate (call : MigrateCall)

/-- What a put was given, and the id that it returned. -/
structure Returned where
  objectNamespace : String
  objectKey : String
  data : Bytes
  id : ObjectId
  deriving DecidableEq

/-- The store, what was returned, and what of it was not deleted since. -/
structure World where
  store : Store
  returned : List Returned
  held : List Returned

def emptyWorld : World where
  store := { rows := [], chunks := [], files := [] }
  returned := []
  held := []

def PutCall.returned (call : PutCall) (id : ObjectId) : Returned where
  objectNamespace := call.objectNamespace
  objectKey := call.objectKey
  data := call.data
  id := id

def World.put (config : Config) (call : PutCall) (w : World) : World :=
  match putBytes config call w.store with
  | (store, .ok (some id)) =>
    { store := store, returned := call.returned id :: w.returned, held := call.returned id :: w.held }
  | (store, _) => { w with store := store }

def World.delete (id : ObjectId) (archive : Option String) (w : World) : World :=
  match deleteObject id archive w.store with
  | (store, .ok ()) => { w with store := store, held := w.held.filter (fun entry => entry.id != id) }
  | (store, .error _) => { w with store := store }

def World.migrate (config : Config) (call : MigrateCall) (w : World) : World :=
  { w with store := (migrateDatabaseObjectsToFilesystem config call w.store).1 }

def World.step (config : Config) (w : World) : Call → World
  | .put call => w.put config call
  | .delete id archive => w.delete id archive
  | .migrate call => w.migrate config call

def storeMachine (config : Config) : Machine World Call where
  allowed := fun _ _ => True
  next := World.step config

instance (config : Config) (w : World) (call : Call) :
    Decidable ((storeMachine config).allowed w call) := inferInstanceAs (Decidable True)

/-- What was returned and not deleted is read as it was put, and puts of different objects return
different ids. -/
structure Immutable (w : World) : Prop where
  read : ∀ entry ∈ w.held, readBytes w.store entry.id = .ok entry.data
  apart : ∀ a ∈ w.returned, ∀ b ∈ w.returned, a.id = b.id →
    a.objectNamespace = b.objectNamespace ∧ a.objectKey = b.objectKey ∧ a.data = b.data

/-! ## Names -/

def itemId (objectNamespace objectKey : String) (data : Bytes) : ObjectId :=
  objectId (strip objectNamespace) (slashed (strip objectKey)) (sha256 data)

/-- The stripped namespace and key as an id joins them. -/
def joinedName (objectNamespace objectKey : String) : String :=
  strip objectNamespace ++ ":" ++ slashed (strip objectKey)

/-! ## Careful runs -/

/-- A deletion hits no file of another row, and no content that was returned for another namespace
or key is put under a name that joins to the same text. -/
def Careful (w : World) : Call → Prop
  | .put call => ∀ earlier ∈ w.returned, earlier.data = call.data →
      joinedName earlier.objectNamespace earlier.objectKey =
        joinedName call.objectNamespace call.objectKey →
      earlier.objectNamespace = call.objectNamespace ∧ earlier.objectKey = call.objectKey
  | .delete id archive => archive = none → FileUnshared w.store id
  | .migrate _ => True

instance (w : World) (call : Call) : Decidable (Careful w call) :=
  match call with
  | .put call => inferInstanceAs (Decidable (∀ earlier ∈ w.returned, earlier.data = call.data →
      joinedName earlier.objectNamespace earlier.objectKey =
        joinedName call.objectNamespace call.objectKey →
      earlier.objectNamespace = call.objectNamespace ∧ earlier.objectKey = call.objectKey))
  | .delete id archive => inferInstanceAs (Decidable (archive = none → FileUnshared w.store id))
  | .migrate _ => inferInstanceAs (Decidable True)

/-- A name that is stored as it is given, its namespace without a colon. -/
def PlainName (objectNamespace objectKey : String) : Prop :=
  strip objectNamespace = objectNamespace ∧ slashed (strip objectKey) = objectKey ∧
    ':' ∉ objectNamespace.toList

variable {w : World}

/-- Puts of plain names are careful. -/
theorem careful_of_plain {call : PutCall} (hcall : PlainName call.objectNamespace call.objectKey)
    (hreturned : ∀ earlier ∈ w.returned, PlainName earlier.objectNamespace earlier.objectKey) :
    Careful w (.put call) := by
  intro earlier hearlier _ hjoined
  have hplain := hreturned earlier hearlier
  unfold joinedName at hjoined
  rw [hplain.1, hplain.2.1, hcall.1, hcall.2.1] at hjoined
  have htext := congrArg String.toList hjoined
  simp only [String.toList_append, List.append_assoc] at htext
  obtain ⟨hspace, hkey⟩ := Products.append_mark_inj hplain.2.2 hcall.2.2 htext
  exact ⟨String.toList_injective hspace, String.toList_injective hkey⟩

/-- What every careful step keeps. -/
structure Sound (w : World) : Prop where
  intact : Intact w.store
  ids : ∀ entry ∈ w.returned,
    entry.id = itemId entry.objectNamespace entry.objectKey entry.data
  held : ∀ entry ∈ w.held, entry ∈ w.returned ∧ Present w.store entry.id
  apart : ∀ a ∈ w.returned, ∀ b ∈ w.returned, a.id = b.id →
    a.objectNamespace = b.objectNamespace ∧ a.objectKey = b.objectKey ∧ a.data = b.data

theorem Sound.immutable (h : Sound w) : Immutable w where
  read := by
    intro entry hentry
    have hheld := h.held entry hentry
    rw [h.intact.readBytes hheld.2, h.ids entry hheld.1]
    rfl
  apart := h.apart

theorem sound_empty : Sound emptyWorld where
  intact := ⟨List.nodup_nil, by simp [emptyWorld], by simp [emptyWorld],
    by simp [FilesIntact, emptyWorld], by simp [emptyWorld]⟩
  ids := by simp [emptyWorld]
  held := by simp [emptyWorld]
  apart := by simp [emptyWorld]

theorem Sound.grow (h : Sound w) {store : Store} (hgrows : Grows w.store store) :
    Sound { w with store := store } where
  intact := hgrows.intact
  ids := h.ids
  held := fun entry hentry => ⟨(h.held entry hentry).1, hgrows.ids _ (h.held entry hentry).2⟩
  apart := h.apart

theorem Sound.put {config : Config} {call : PutCall} (h : Sound w)
    (hcareful : Careful w (.put call)) : Sound (w.put config call) := by
  have hgrows := @putBytes_grows w.store config call h.intact
  have hid := fun id => @putBytes_id id w.store config call h.intact
  unfold World.put
  cases hout : putBytes config call w.store with
  | mk store result =>
    rw [hout] at hgrows hid
    cases result with
    | error error => exact h.grow hgrows
    | ok returned =>
      cases returned with
      | none => exact h.grow hgrows
      | some id =>
        have hown := hid id rfl
        -- what was returned under the id before was put under the same name
        have hsame : ∀ earlier ∈ w.returned, earlier.id = id →
            earlier.objectNamespace = call.objectNamespace ∧
              earlier.objectKey = call.objectKey ∧ earlier.data = call.data := by
          intro earlier hearlier heq
          have hitem : itemId earlier.objectNamespace earlier.objectKey earlier.data =
              itemId call.objectNamespace call.objectKey call.data := by
            rw [← h.ids earlier hearlier, heq, hown.1]
            rfl
          have hdata : earlier.data = call.data :=
            congrArg Digest.payload (congrArg ObjectId.digest hitem)
          have hnames := hcareful earlier hearlier hdata (congrArg ObjectId.name hitem)
          exact ⟨hnames.1, hnames.2, hdata⟩
        constructor
        · exact hgrows.intact
        · intro entry hentry
          cases List.mem_cons.mp hentry with
          | inl hnew =>
            rw [hnew]
            exact hown.1
          | inr hold => exact h.ids entry hold
        · intro entry hentry
          cases List.mem_cons.mp hentry with
          | inl hnew =>
            rw [hnew]
            exact ⟨List.mem_cons_self, hown.2⟩
          | inr hold =>
            have hheld := h.held entry hold
            exact ⟨List.mem_cons_of_mem _ hheld.1, hgrows.ids _ hheld.2⟩
        · intro a ha b hb heq
          cases List.mem_cons.mp ha with
          | inl hanew =>
            cases List.mem_cons.mp hb with
            | inl hbnew =>
              rw [hanew, hbnew]
              exact ⟨rfl, rfl, rfl⟩
            | inr hbold =>
              rw [hanew] at heq ⊢
              have hparts := hsame b hbold heq.symm
              exact ⟨hparts.1.symm, hparts.2.1.symm, hparts.2.2.symm⟩
          | inr haold =>
            cases List.mem_cons.mp hb with
            | inl hbnew =>
              rw [hbnew] at heq ⊢
              exact hsame a haold heq
            | inr hbold => exact h.apart a haold b hbold heq

theorem Sound.delete {id : ObjectId} {archive : Option String} (h : Sound w)
    (hcareful : Careful w (.delete id archive)) : Sound (w.delete id archive) := by
  have hintact := deleteObject_intact h.intact hcareful
  have hids := fun other => @deleteObject_ids id other w.store archive
  unfold World.delete
  cases hout : deleteObject id archive w.store with
  | mk store result =>
    rw [hout] at hintact hids
    cases result with
    | error error =>
      have hstore : store = w.store := by
        cases archive with
        | none => cases hout
        | some archive =>
          cases hout
          rfl
      rw [hstore]
      exact h
    | ok _ =>
      constructor
      · exact hintact
      · exact h.ids
      · intro entry hentry
        have hkept := List.mem_filter.mp hentry
        have hheld := h.held entry hkept.1
        exact ⟨hheld.1, hids entry.id (by simpa using hkept.2) hheld.2⟩
      · exact h.apart

theorem Sound.step {config : Config} {call : Call} (h : Sound w) (hcareful : Careful w call) :
    Sound (w.step config call) := by
  cases call with
  | put call => exact h.put hcareful
  | delete id archive => exact h.delete hcareful
  | migrate call => exact h.grow (migrate_grows h.intact)

/-- In a run of careful calls the objects are immutable, whatever is put, deleted and migrated in
between. -/
theorem runs_immutable (config : Config) (calls : List Call)
    (h : ((storeMachine config).restrict Careful).Accepts emptyWorld calls) :
    Immutable ((storeMachine config).after emptyWorld calls) := by
  have hsound : Sound (((storeMachine config).restrict Careful).after emptyWorld calls) :=
    Machine.invariant (fun w call hw hallowed => hw.step hallowed.2) calls emptyWorld sound_empty h
  exact hsound.immutable

/-- A put of some bytes. -/
def samplePut (mode objectKey : String) (data : Bytes) : PutCall where
  objectNamespace := "runs/1"
  objectKey := objectKey
  data := data
  bulk := false
  mode := mode
  refuses := fun _ => false
  now := "2026-09-01T00:00:00Z"

def sampleConfig : Config where
  enabled := true
  chunkBytes := 2
  uuidText := ObjectId.name

/-- Two objects in the database and one in the filesystem, of which one is deleted after all of
them were migrated. -/
def careful : List Call :=
  [.put (samplePut "database" "a" [1, 2, 3]), .put (samplePut "database" "b" [4]),
    .put (samplePut "filesystem" "c" [5]),
    .migrate { limit := 100, objectNamespace := none, refuses := fun _ => false, times := fun _ => "" },
    .delete (samplePut "database" "b" [4]).id none]

theorem runs_immutable_migrated :
    ((storeMachine sampleConfig).after emptyWorld careful).held.length = 2 ∧
      Immutable ((storeMachine sampleConfig).after emptyWorld careful) :=
  ⟨by decide +kernel, runs_immutable sampleConfig careful (by decide +kernel)⟩

/-- Two keys with one content share a file, which the deletion of the first takes from the
second. -/
theorem shared_file_deleted :
    ¬ ∀ (config : Config) (calls : List Call),
      Immutable ((storeMachine config).after emptyWorld calls) := by
  intro h
  have hread := (h sampleConfig [.put (samplePut "filesystem" "a" [1, 2, 3]),
    .put (samplePut "filesystem" "b" [1, 2, 3]),
    .delete (samplePut "filesystem" "a" [1, 2, 3]).id none]).read
  revert hread
  decide +kernel

/-- Until something is deleted, every object is read as before, whatever is put and migrated and
wherever a call raises. -/
theorem objects_kept (config : Config) {calls : List Call}
    (hcalls : ∀ id archive, .delete id archive ∉ calls) : ∀ {w : World}, Intact w.store →
      Grows w.store ((storeMachine config).after w calls).store ∧ ∀ id, Present w.store id →
        readBytes ((storeMachine config).after w calls).store id = readBytes w.store id := by
  intro w h
  suffices hgrows : Grows w.store ((storeMachine config).after w calls).store from
    ⟨hgrows, fun id hid => by rw [h.readBytes hid, hgrows.intact.readBytes (hgrows.ids id hid)]⟩
  induction calls generalizing w with
  | nil => exact h.grows
  | cons call calls ih =>
    have hstep : Grows w.store (w.step config call).store := by
      cases call with
      | put call =>
        have hgrows := @putBytes_grows w.store config call h
        show Grows w.store (w.put config call).store
        unfold World.put
        split
        · rename_i hput
          rwa [hput] at hgrows
        · rename_i hput
          rwa [hput] at hgrows
      | delete id archive => exact absurd List.mem_cons_self (hcalls id archive)
      | migrate call => exact migrate_grows h
    exact hstep.trans (ih (fun id archive hmem => hcalls id archive (List.mem_cons_of_mem call hmem))
      hstep.intact)

/-- A store that holds objects in both modes. -/
def holding : World := (storeMachine sampleConfig).after emptyWorld (careful.take 3)

/-- All of them are migrated, and the database gets another one. -/
def later : List Call := [careful[3], .put (samplePut "database" "d" [6])]

theorem objects_kept_migrated :
    holding.store.rows.map StoredObject.storageMode = [.database, .database, .filesystem] ∧
      Grows holding.store ((storeMachine sampleConfig).after holding later).store ∧
      ∀ id, Present holding.store id →
        readBytes ((storeMachine sampleConfig).after holding later).store id =
          readBytes holding.store id := by
  have hintact : Intact holding.store :=
    (objects_kept sampleConfig (by simp [careful]) sound_empty.intact).1.intact
  exact ⟨by decide +kernel, objects_kept sampleConfig (by simp [later, careful]) hintact⟩

end LocalPlatform.Objects
