import LocalPlatform.Lib.Products
import LocalPlatform.Lib.Results
import LocalPlatform.Releases.Publishing

/-!
# What publishers of one identity leave

* `Published` is the promise: whoever returns returns the manifest of the one release, which is
  complete when it is there, and nobody raises.
* It holds as long as the paths of the release do not leave its directory or get in each other's way
  (`Plain`; so are those of a spec whose roles are names, `prepareRelease_plain`), and no publisher renames or inserts when another one was faster (`unraced`).
* `Sound` is what the steps keep of a publisher.  Publishers only write below their own staging
  directories, so a step is sound for the others whenever it `Frames` what it changes.
-/

namespace LocalPlatform.Releases

open FileTrees Machines Results DateTexts Products
open Decimals (readNat span_digits)

/-! ## The promise -/

section Promise

variable (digests : Digests) (root : List String) (identity : Identity)

/-- A listed file is inside the directory and has the listed digest. -/
structure Frozen (disk : Disk) (directory : List String) (file : FrozenFile) : Prop where
  inside : directory <+: file.path.resolve directory
  content : ∃ content, get disk (file.path.resolve directory) = some (.file content) ∧
    digests.file content = file.sha256

structure Complete (disk : Disk) (directory : List String) (manifest : Manifest) : Prop where
  documents : ∀ document ∈ documentsOf manifest,
    get disk (directory ++ [document.1]) = some (.file document.2)
  files : ∀ file ∈ manifest.identity.files, Frozen digests disk directory file
  distinct : (manifest.identity.files.map FrozenFile.path).Nodup

/-- The release of the identity is there, with the manifest. -/
structure Released (disk : Disk) (manifest : Manifest) : Prop where
  complete : Complete digests disk (target digests root identity) manifest
  made : ∃ publishedAt, manifest = manifestOf digests identity publishedAt

/-- The steps that a phase has left at most, for a release with so many files. -/
def Phase.stepsLeft (files : ℕ) : Phase → ℕ
  | .checking => 2 * files + 9
  | .reading => files + 4
  | .verifying _ rest => rest.length + 3
  | .copying rest => 2 * rest.length + 8
  | .hashing _ rest => 2 * rest.length + 9
  | .writing _ rest => rest.length + 4
  | .replacing _ => 3
  | .selecting _ => 2
  | .inserting _ => 1
  | .returned _ | .raised _ | .crashed => 0

/-- The step meets neither a release that another publisher renamed since this one looked for it, nor
such a row; a spec does not take its files from staging directories. -/
def unraced (world : World) : Action → Bool
  | .start spec staging persist =>
    (publisherOf digests root world spec staging persist).all (fun publisher =>
      publisher.release.files.all (fun file => ¬ stagingRoot root <+: file.sourcePath))
  | .step index _ =>
    match (world.publishers[index]?).map Publisher.phase with
    | some (.replacing _) => ¬ occupied world.disk (target digests root identity)
    | some (.inserting manifest) => world.rows.all (fun row => row.id ≠ manifest.dataReleaseId)
    | _ => true
  | .crash _ _ => true

structure Published (world : World) : Prop where
  noError : ∀ publisher ∈ world.publishers, ∀ error, publisher.phase ≠ .raised error
  sameManifest : ∀ publisher ∈ world.publishers, ∀ other ∈ world.publishers, ∀ manifest manifest',
    publisher.phase = .returned manifest → other.phase = .returned manifest' → manifest = manifest'
  returned : ∀ publisher ∈ world.publishers, ∀ manifest, publisher.phase = .returned manifest →
    Released digests root identity world.disk manifest
  directory : occupied world.disk (target digests root identity) = false ∨
    ∃ manifest, Released digests root identity world.disk manifest
  row : ∀ row ∈ world.rows, row.id = releaseId digests identity →
    ∃ manifest, Released digests root identity world.disk manifest ∧
      row.manifestSha256 = manifest.manifestSha256
  /-- Each step of a publisher brings it closer to its end. -/
  proceeds : ∀ index now publisher, world.publishers[index]? = some publisher →
    publisher.phase.running → unraced digests root identity world (.step index now) →
      (publisher.step digests root now world.disk world.rows).phase.stepsLeft identity.files.length <
        publisher.phase.stepsLeft identity.files.length

end Promise

/-! ## The condition on the paths -/

def FrozenFile.slot (file : FrozenFile) : Slot String := Slot.ofParts file.path.steps

def documentNames : List String := ["manifest.json", "checksums.json", "lineage.json"]

/-- The places of the files and of the documents of a release. -/
def slots (identity : Identity) : List (Slot String) :=
  (identity.files.map (fun file => file.path.steps) ++
    documentNames.map (fun name => [some name])).map Slot.ofParts

/-- The paths stay in the directory of the release, and none is in the way of another one. -/
structure Plain (identity : Identity) : Prop where
  relative : ∀ file ∈ identity.files, file.path.absolute = false
  inside : ∀ file ∈ identity.files, (relativePlace file.path.steps).isSome
  distinct : (identity.files.map FrozenFile.path).Nodup
  /-- Two spellings of one path are of files with one digest. -/
  agree : ∀ file ∈ identity.files, ∀ other ∈ identity.files, file.slot.place = other.slot.place →
    file.sha256 = other.sha256
  documents : ∀ file ∈ identity.files, ∀ name ∈ documentNames, file.slot.place ≠ [name]
  apart : ∀ slot ∈ slots identity, ∀ other ∈ slots identity, ∀ directory ∈ other.directories,
    ¬ slot.place <+: directory

section Plain

variable {identity : Identity} {file : FrozenFile}

theorem Plain.clear (h : Plain identity) : Slot.Clear (slots identity) where
  reached := by
    intro slot hslot
    obtain ⟨parts, _, rfl⟩ := List.mem_map.mp hslot
    exact Slot.ofParts_reached (h.apart _ hslot _ hslot)
  apart := h.apart

theorem slot_mem (h : file ∈ identity.files) : file.slot ∈ slots identity :=
  List.mem_map_of_mem (List.mem_append_left _ (List.mem_map_of_mem h))

theorem documentSlot_mem {name : String} (h : name ∈ documentNames) :
    Slot.ofParts [some name] ∈ slots identity :=
  List.mem_map_of_mem (List.mem_append_right _ (List.mem_map_of_mem h))

theorem Plain.resolve (h : Plain identity) (hfile : file ∈ identity.files) (directory : List String) :
    file.path.resolve directory = directory ++ file.slot.place := by
  unfold PurePath.resolve PurePath.start
  rw [h.relative file hfile]
  exact Slot.resolve_ofParts (h.inside file hfile) directory

theorem Plain.parents (h : Plain identity) (hfile : file ∈ identity.files) (directory : List String) :
    file.path.parents directory = file.slot.directories.map (directory ++ ·) := by
  unfold PurePath.parents PurePath.start
  rw [h.relative file hfile]
  exact Slot.visited_ofParts (h.inside file hfile) directory

end Plain

/-! ## What is prepared -/

section Prepared

variable {digests : Digests} {root : List String} {disk : Disk} {identity : Identity} {role : String}
  {raw : SpecComponent} {component : PreparedComponent} {file : SourceFile} {spec : Spec}
  {release : Release}

def Sourced (digests : Digests) (disk : Disk) (file : SourceFile) : Prop :=
  ∃ content, get disk file.sourcePath = some (.file content) ∧
    digests.file content = file.frozen.sha256

theorem inside_ok {raw : String} {source : List String} {content : Document}
    (h : inside root disk raw = .ok (source, content)) : get disk source = some (.file content) := by
  unfold inside at h
  obtain ⟨_, hfound⟩ := guard_ok h
  split at hfound
  · next found hget =>
    obtain ⟨rfl, rfl⟩ := Prod.mk.inj (Except.ok.inj hfound)
    exact hget
  · cases hfound

theorem prepareFile_sourced {role : String} {index : ℕ} {raw : SpecFile}
    (h : prepareFile digests root disk role index raw = .ok file) : Sourced digests disk file := by
  unfold prepareFile at h
  obtain ⟨⟨source, content⟩, hinside, hrest⟩ := bind_ok h
  obtain ⟨_, hfile⟩ := guard_ok hrest
  rw [← Except.ok.inj hfile]
  exact ⟨content, inside_ok hinside, rfl⟩

theorem prepareComponent_files
    (h : prepareComponent digests root disk raw = .ok component) : component.role = raw.role ∧
      raw.files.zipIdx.mapM (fun file => prepareFile digests root disk raw.role file.2 file.1) =
        .ok component.files := by
  unfold prepareComponent at h
  obtain ⟨_, hrest⟩ := guard_ok h
  obtain ⟨window, _, hrest⟩ := bind_ok hrest
  obtain ⟨_, hrest⟩ := guard_ok hrest
  obtain ⟨files, hfiles, hcomponent⟩ := bind_ok hrest
  rw [← Except.ok.inj hcomponent]
  exact ⟨rfl, hfiles⟩

theorem prepareComponent_sourced (h : prepareComponent digests root disk raw = .ok component) :
    ∀ file ∈ component.files, Sourced digests disk file := by
  intro file hfile
  obtain ⟨item, _, hitem⟩ := exists_of_mapM (prepareComponent_files h).2 hfile
  exact prepareFile_sourced hitem

theorem prepareRelease_components (h : prepareRelease digests root disk spec = .ok release) :
    (spec.components.map SpecComponent.role).Nodup ∧ ∃ prepared,
      spec.components.mapM (prepareComponent digests root disk) = .ok prepared ∧
        release.components = Tables.orderBy PreparedComponent.role prepared := by
  unfold prepareRelease at h
  obtain ⟨window, _, hrest⟩ := bind_ok h
  obtain ⟨_, hrest⟩ := guard_ok hrest
  obtain ⟨_, hrest⟩ := guard_ok hrest
  split at hrest
  · cases hrest
  · next required _ =>
    obtain ⟨components, hcomponents, hrest⟩ := bind_ok hrest
    obtain ⟨_, hrelease⟩ := guard_ok hrest
    rw [← Except.ok.inj hrelease]
    unfold prepareComponents at hcomponents
    obtain ⟨hroles, hrest⟩ := guard_ok hcomponents
    obtain ⟨_, hrest⟩ := guard_ok hrest
    obtain ⟨prepared, hprepared, hsorted⟩ := bind_ok hrest
    exact ⟨Decidable.not_not.mp hroles, prepared, hprepared, (Except.ok.inj hsorted).symm⟩

theorem prepareRelease_sourced (h : prepareRelease digests root disk spec = .ok release) :
    ∀ file ∈ release.files, Sourced digests disk file := by
  obtain ⟨_, prepared, hprepared, hsorted⟩ := prepareRelease_components h
  intro file hfile
  obtain ⟨component, hcomponent, hfile⟩ := List.mem_flatMap.mp hfile
  rw [hsorted, Tables.mem_orderBy] at hcomponent
  obtain ⟨raw, _, hraw⟩ := exists_of_mapM hprepared hcomponent
  exact prepareComponent_sourced hraw file hfile

theorem identity_files (release : Release) :
    (release.identity digests).files = release.files.map SourceFile.frozen := by
  unfold Identity.files Release.identity Release.files
  rw [List.flatMap_map, List.map_flatMap]
  rfl

/-! ## Roles that are names -/

/-- The role is one part of a path. -/
def IsName (role : String) : Prop :=
  PurePath.ofString role = ⟨false, [role]⟩ ∧ role ≠ ".."

instance (role : String) : Decidable (IsName role) := inferInstanceAs (Decidable (_ ∧ _))

/-- The file is in the directory of a role. -/
def Placed (file : FrozenFile) : Prop :=
  ∃ role name, file.path = ⟨false, ["components", role, name]⟩ ∧
    file.path.steps = ["components", role, name].map some

theorem plain_of_placed (hplaced : ∀ file ∈ identity.files, Placed file)
    (hdistinct : (identity.files.map FrozenFile.path).Nodup) : Plain identity := by
  have hslot : ∀ file ∈ identity.files, ∃ role name, file.path = ⟨false, ["components", role, name]⟩ ∧
      file.slot = ⟨[[], ["components"], ["components", role]], ["components", role, name]⟩ := by
    intro file hfile
    obtain ⟨role, name, hpath, hsteps⟩ := hplaced file hfile
    refine ⟨role, name, hpath, ?_⟩
    unfold FrozenFile.slot
    rw [hsteps]
    rfl
  have hslots : ∀ slot ∈ slots identity,
      (∃ role name, slot = ⟨[[], ["components"], ["components", role]], ["components", role, name]⟩) ∨
      ∃ name ∈ documentNames, slot = ⟨[[]], [name]⟩ := by
    simp only [slots, List.map_append, List.map_map, List.mem_append, List.mem_map]
    rintro slot (⟨file, hfile, rfl⟩ | ⟨name, hname, rfl⟩)
    · obtain ⟨role, name, _, hslot⟩ := hslot file hfile
      exact .inl ⟨role, name, hslot⟩
    · exact .inr ⟨name, hname, rfl⟩
  refine ⟨fun file hfile => ?_, fun file hfile => ?_, hdistinct, fun file hfile other hother h => ?_,
    fun file hfile name hname => ?_, fun slot hslot other hother directory hdirectory hprefix => ?_⟩
  · obtain ⟨role, name, hpath, _⟩ := hplaced file hfile
    rw [hpath]
  · obtain ⟨role, name, _, hsteps⟩ := hplaced file hfile
    rw [hsteps]
    rfl
  · obtain ⟨role, name, hpath, hfirst⟩ := hslot file hfile
    obtain ⟨role', name', hpath', hsecond⟩ := hslot other hother
    rw [hfirst, hsecond] at h
    have hparts : ["components", role, name] = ["components", role', name'] := h
    have hsame : file.path = other.path := by rw [hpath, hpath', hparts]
    rw [List.inj_on_of_nodup_map hdistinct hfile hother hsame]
  · obtain ⟨role, other, _, hslot⟩ := hslot file hfile
    rw [hslot]
    simp
  · rcases hslots slot hslot with ⟨role, name, rfl⟩ | ⟨name, hname, rfl⟩ <;>
      rcases hslots other hother with ⟨role', name', rfl⟩ | ⟨name', hname', rfl⟩ <;>
        simp [documentNames] at * <;> grind

theorem suffix_cases (name : String) : suffix name = "" ∨ ∃ rest, suffix name = "." ++ rest := by
  unfold suffix
  dsimp only
  split
  · split_ifs
    · exact .inl rfl
    · exact .inr ⟨_, rfl⟩
  · exact .inl rfl

/-- The number in the last name of a path. -/
def numberOf (path : PurePath) : ℕ :=
  readNat ((path.parts.getLast?.getD "").toList.takeWhile Char.isDigit)

theorem prepareFile_placed {index : ℕ} {raw : SpecFile} (hrole : IsName role)
    (h : prepareFile digests root disk role index raw = .ok file) :
    Placed file.frozen ∧ numberOf file.frozen.path = index ∧ file.frozen.path.parts[1]? = some role := by
  unfold prepareFile at h
  obtain ⟨⟨source, content⟩, _, hrest⟩ := bind_ok h
  obtain ⟨_, hfile⟩ := guard_ok hrest
  obtain ⟨rest, hname⟩ : ∃ rest, frozenPath role index source =
      ⟨false, ["components", role, String.ofList (zeroFilled 5 index ++ '.' :: rest)]⟩ := by
    unfold frozenPath PurePath.join
    rw [hrole.1]
    rcases suffix_cases (source.getLast?.getD "") with hnone | ⟨rest, hsome⟩
    · refine ⟨['b', 'i', 'n'], ?_⟩
      rw [hnone]
      simp [Paper.lower, String.ofList_append]
    · refine ⟨(Paper.lower rest).toList, ?_⟩
      rw [hsome]
      simp [Paper.lower, String.ofList_append]
  rw [← Except.ok.inj hfile, hname]
  have hdigits : (zeroFilled 5 index ++ '.' :: rest).takeWhile Char.isDigit = zeroFilled 5 index :=
    (span_digits (fun c hc => isDigit_zeroFilled hc) (by simp)).1
  have hlong : String.ofList (zeroFilled 5 index ++ '.' :: rest) ≠ ".." := by
    intro h
    have hlength := congrArg (fun name => name.toList.length) h
    simp [zeroFilled] at hlength
    omega
  refine ⟨⟨role, _, rfl, ?_⟩, ?_, rfl⟩
  · simp only [PurePath.steps, List.map_cons, List.map_nil, hrole.2, hlong, if_false]
    rfl
  · simp [numberOf, hdigits, readNat_zeroFilled]

theorem prepareComponent_placed
    (hrole : IsName raw.role) (h : prepareComponent digests root disk raw = .ok component) :
    (∀ file ∈ component.files,
      Placed file.frozen ∧ file.frozen.path.parts[1]? = some component.role) ∧
    (component.files.map (fun file => file.frozen.path)).Nodup := by
  obtain ⟨hsame, hfiles⟩ := prepareComponent_files h
  refine ⟨fun file hfile => ?_, ?_⟩
  · obtain ⟨item, _, hitem⟩ := exists_of_mapM hfiles hfile
    obtain ⟨hplaced, _, hpart⟩ := prepareFile_placed hrole hitem
    rw [hsame]
    exact ⟨hplaced, hpart⟩
  · -- the numbers of the files differ
    have hnumbers : component.files.map (fun file => numberOf file.frozen.path) =
        raw.files.zipIdx.map Prod.snd :=
      map_of_mapM_ok (fun item file hfile => (prepareFile_placed hrole hfile).2.1) hfiles
    refine List.Nodup.of_map numberOf ?_
    rw [List.map_map]
    exact hnumbers ▸ List.zipIdx_map_snd 0 raw.files ▸ List.nodup_range'

/-- A spec whose roles are names has a plain release. -/
theorem prepareRelease_plain (h : prepareRelease digests root disk spec = .ok release)
    (hnames : ∀ component ∈ spec.components, IsName component.role) :
    Plain (release.identity digests) := by
  obtain ⟨hroles, prepared, hprepared, hsorted⟩ := prepareRelease_components h
  have hcomponent : ∀ component ∈ release.components,
      (∀ file ∈ component.files,
        Placed file.frozen ∧ file.frozen.path.parts[1]? = some component.role) ∧
      (component.files.map (fun file => file.frozen.path)).Nodup := by
    intro component hmem
    rw [hsorted, Tables.mem_orderBy] at hmem
    obtain ⟨raw, hraw, hprepare⟩ := exists_of_mapM hprepared hmem
    exact prepareComponent_placed (hnames raw hraw) hprepare
  have hdistinct : (release.components.map PreparedComponent.role).Nodup := by
    have hsame : prepared.map PreparedComponent.role = spec.components.map SpecComponent.role :=
      map_of_mapM_ok (fun raw component hraw => (prepareComponent_files hraw).1) hprepared
    rw [hsorted, ((Tables.orderBy_perm _ _).map _).nodup_iff, hsame]
    exact hroles
  refine plain_of_placed (fun file hfile => ?_) ?_
  · rw [identity_files] at hfile
    obtain ⟨source, hsource, rfl⟩ := List.mem_map.mp hfile
    obtain ⟨component, hmem, hsource⟩ := List.mem_flatMap.mp hsource
    exact ((hcomponent component hmem).1 source hsource).1
  · rw [identity_files, List.map_map]
    unfold Release.files
    rw [List.map_flatMap]
    refine nodup_flatMap_of_reads hdistinct.of_map (fun component hmem => (hcomponent component hmem).2)
      (fun first hfirst second hsecond path hpath hpath' => ?_)
    obtain ⟨file, hfile, rfl⟩ := List.mem_map.mp hpath
    obtain ⟨other, hother, hsame⟩ := List.mem_map.mp hpath'
    have hfile' := ((hcomponent first hfirst).1 file hfile).2
    have hother' := ((hcomponent second hsecond).1 other hother).2
    have hpaths : other.frozen.path = file.frozen.path := hsame
    rw [hpaths, hfile'] at hother'
    exact List.inj_on_of_nodup_map hdistinct hfirst hsecond (Option.some.inj hother')

end Prepared

/-! ## Where the directories are -/

section Directories

variable {digests : Digests} {root : List String} {identity : Identity} {name other : String}

theorem releaseId_ne : releaseId digests identity ≠ ".staging" := by
  intro h
  have hchars := congrArg String.toList h
  simp [releaseId, String.toList_append] at hchars

theorem target_apart (rest : List String) : ¬ target digests root identity <+: stagingRoot root ++ rest := by
  unfold target stagingRoot
  rw [List.append_assoc, List.prefix_append_right_inj, List.singleton_append, List.cons_prefix_cons]
  exact fun h => releaseId_ne h.1

theorem target_staging_apart (rest : List String) :
    ¬ target digests root identity <+: stagingOf root name ++ rest := by
  unfold stagingOf
  rw [List.append_assoc]
  exact target_apart _

theorem stagingRoot_apart (rest : List String) : ¬ stagingRoot root <+: target digests root identity ++ rest := by
  unfold target stagingRoot
  rw [List.append_assoc, List.prefix_append_right_inj, List.singleton_append, List.cons_prefix_cons]
  exact fun h => releaseId_ne h.1.symm

theorem staging_target_apart (rest : List String) :
    ¬ stagingOf root name <+: target digests root identity ++ rest :=
  fun h => stagingRoot_apart rest ((List.prefix_append _ _).trans h)

theorem staging_apart (h : name ≠ other) (rest : List String) :
    ¬ stagingOf root name <+: stagingOf root other ++ rest := by
  unfold stagingOf
  rw [List.append_assoc, List.prefix_append_right_inj, List.singleton_append, List.cons_prefix_cons]
  exact fun heq => h heq.1

end Directories

/-! ## What a step leaves alone -/

section Frames

variable {digests : Digests} {root : List String} {identity : Identity} {name : String}
  {disk disk' : Disk} {manifest : Manifest}

def Outside (directory : List String) (disk disk' : Disk) : Prop :=
  ∀ path, ¬ directory <+: path → get disk' path = get disk path

/-- Nothing changes but the staging directory, and the directory of a release that is not there. -/
def Frames (digests : Digests) (root : List String) (identity : Identity) (name : String)
    (disk disk' : Disk) : Prop :=
  ∀ path, ¬ stagingOf root name <+: path →
    (target digests root identity <+: path → occupied disk (target digests root identity) = true) →
      get disk' path = get disk path

theorem Outside.frames (h : Outside (stagingOf root name) disk disk') :
    Frames digests root identity name disk disk' := fun path hpath _ => h path hpath

theorem Released.occupied (h : Released digests root identity disk manifest) :
    occupied disk (target digests root identity) = true := by
  rw [occupied_iff]
  refine ⟨_, List.prefix_append _ ["manifest.json"], ?_⟩
  rw [h.complete.documents ("manifest.json", .manifest manifest) List.mem_cons_self]
  rfl

theorem Released.unique {manifest' : Manifest} (h : Released digests root identity disk manifest)
    (h' : Released digests root identity disk manifest') : manifest = manifest' := by
  have hfirst := h.complete.documents ("manifest.json", .manifest manifest) List.mem_cons_self
  have hsecond := h'.complete.documents ("manifest.json", .manifest manifest') List.mem_cons_self
  have hsame := hfirst.symm.trans hsecond
  simpa using hsame

theorem Frames.target (h : Frames digests root identity name disk disk')
    (hoccupied : FileTrees.occupied disk (Releases.target digests root identity) = true)
    (rest : List String) :
    get disk' (Releases.target digests root identity ++ rest) =
      get disk (Releases.target digests root identity ++ rest) :=
  h _ (staging_target_apart rest) (fun _ => hoccupied)

theorem Frames.released (h : Frames digests root identity name disk disk')
    (hreleased : Released digests root identity disk manifest) :
    Released digests root identity disk' manifest where
  complete :=
    { documents := by
        intro document hdocument
        rw [h.target hreleased.occupied]
        exact hreleased.complete.documents document hdocument
      files := by
        intro file hfile
        obtain ⟨hinside, content, hget, hdigest⟩ := hreleased.complete.files file hfile
        refine ⟨hinside, content, ?_, hdigest⟩
        obtain ⟨rest, hrest⟩ := hinside
        rw [← hrest, h.target hreleased.occupied, hrest]
        exact hget
      distinct := hreleased.complete.distinct }
  made := hreleased.made

theorem Frames.clear (h : Frames digests root identity name disk disk')
    (hclear : blocked disk (stagingRoot root) = false) : blocked disk' (stagingRoot root) = false := by
  rw [← Bool.not_eq_true, blocked_iff] at hclear ⊢
  rintro ⟨above, habove, hfile⟩
  apply hclear
  refine ⟨above, habove, ?_⟩
  obtain ⟨content, hget⟩ := isFile_iff.mp hfile
  rw [isFile_iff]
  refine ⟨content, ?_⟩
  rw [← hget]
  symm
  apply h
  · intro hbelow
    have hlength := (hbelow.trans habove).length_le
    simp [stagingOf] at hlength
  · intro hbelow
    have hroot := hbelow.trans habove
    rw [← List.append_nil (stagingRoot root)] at hroot
    exact absurd hroot (target_apart [])

theorem Outside.occupied_target (h : Outside (stagingOf root name) disk disk')
    (hfree : FileTrees.occupied disk (Releases.target digests root identity) = false) :
    FileTrees.occupied disk' (Releases.target digests root identity) = false := by
  rw [occupied_eq_false_iff] at hfree ⊢
  rintro path ⟨rest, rfl⟩
  rw [h _ (staging_target_apart rest)]
  exact hfree _ (List.prefix_append _ rest)

end Frames

/-! ## A staging directory -/

section Staging

variable {digests : Digests} {root : List String} {identity : Identity} {name : String}
  {disk disk' : Disk} {directory : List String} {files : List FrozenFile}
  {documents : List (String × Document)}

/-- A directory holds the files and the documents, and nothing that is in their way. -/
structure Staged (digests : Digests) (identity : Identity) (directory : List String)
    (files : List FrozenFile) (documents : List (String × Document)) (disk : Disk) : Prop where
  within : Slot.Within disk directory (slots identity)
  files : ∀ file ∈ files, ∃ content,
    get disk (directory ++ file.slot.place) = some (.file content) ∧
      digests.file content = file.sha256
  documents : ∀ document ∈ documents, get disk (directory ++ [document.1]) = some (.file document.2)

theorem staged_of_free (h : occupied disk directory = false) :
    Staged digests identity directory [] [] disk :=
  ⟨Slot.within_of_free h, by simp, by simp⟩

theorem Staged.congr (h : Staged digests identity directory files documents disk)
    (hsame : ∀ rest, get disk' (directory ++ rest) = get disk (directory ++ rest)) :
    Staged digests identity directory files documents disk' where
  within :=
    { file := fun path content hget => h.within.file path content (hsame path ▸ hget)
      directory := fun path hget => h.within.directory path (hsame path ▸ hget) }
  files := by
    intro file hfile
    obtain ⟨content, hget, hdigest⟩ := h.files file hfile
    exact ⟨content, (hsame _).trans hget, hdigest⟩
  documents := fun document hdocument => (hsame _).trans (h.documents document hdocument)

section Write

variable (hplain : Plain identity) (hclear : blocked disk (stagingRoot root) = false)

include hplain hclear

theorem Staged.copy (h : Staged digests identity (stagingOf root name) files [] disk)
    {file : FrozenFile} {content : Document} (hfiles : files ⊆ identity.files)
    (hfile : file ∈ identity.files) (hdigest : digests.file content = file.sha256) :
    ∃ disk', copyFrozen disk (stagingOf root name) file.path content = some disk' ∧
      Staged digests identity (stagingOf root name) (files ++ [file]) [] disk' ∧
        Outside (stagingOf root name) disk disk' := by
  obtain ⟨disk', hplace, hplaced⟩ := h.within.placed hplain.clear hclear (slot_mem hfile) content
  refine ⟨disk', ?_, ⟨hplaced.within, ?_, by simp⟩, hplaced.outside⟩
  · unfold copyFrozen
    rw [hplain.resolve hfile, hplain.parents hfile]
    exact hplace
  · intro other hother
    have hother' : other ∈ identity.files := by
      rcases List.mem_append.mp hother with hdone | hlast
      · exact hfiles hdone
      · rw [List.mem_singleton.mp hlast]
        exact hfile
    by_cases hsame : other.slot.place = file.slot.place
    · refine ⟨content, hsame ▸ hplaced.placed, ?_⟩
      rw [hdigest, hplain.agree other hother' file hfile hsame]
    · have hdone : other ∈ files := by
        rcases List.mem_append.mp hother with hdone | hlast
        · exact hdone
        · rw [List.mem_singleton.mp hlast] at hsame
          exact absurd rfl hsame
      obtain ⟨content', hget, hdigest'⟩ := h.files other hdone
      exact ⟨content', hplaced.kept _ _ (fun heq => hsame (List.append_cancel_left heq)) hget,
        hdigest'⟩

theorem Staged.enter (h : Staged digests identity (stagingOf root name) files [] disk) :
    ∃ disk', makeDirectories disk [stagingOf root name] = some disk' ∧
      Staged digests identity (stagingOf root name) files [] disk' ∧
        Outside (stagingOf root name) disk disk' := by
  have hslot : Slot.ofParts [some "manifest.json"] ∈ slots identity :=
    documentSlot_mem (by decide)
  obtain ⟨disk', hmake, hmade⟩ := h.within.made hplain.clear hclear hslot
  have hdirectories : (Slot.ofParts [some "manifest.json"]).directories.map
      (stagingOf root name ++ ·) = [stagingOf root name] := by
    simp [Slot.ofParts, visited]
  refine ⟨disk', hdirectories ▸ hmake, ⟨hmade.within, ?_, by simp⟩, hmade.outside⟩
  intro file hfile
  obtain ⟨content, hget, hdigest⟩ := h.files file hfile
  exact ⟨content, (hmade.file _ _).mpr hget, hdigest⟩

theorem Staged.write (h : Staged digests identity (stagingOf root name) identity.files documents disk)
    {document : String × Document} (hname : document.1 ∈ documentNames)
    (hfresh : document.1 ∉ documents.map Prod.fst) :
    ∃ disk', writeFile disk (stagingOf root name ++ [document.1]) document.2 = some disk' ∧
      Staged digests identity (stagingOf root name) identity.files (documents ++ [document]) disk' ∧
        Outside (stagingOf root name) disk disk' := by
  obtain ⟨disk', hwrite, hplaced⟩ :=
    h.within.written hplain.clear hclear (documentSlot_mem hname) document.2
  refine ⟨disk', hwrite, ⟨hplaced.within, ?_, ?_⟩, hplaced.outside⟩
  · intro file hfile
    obtain ⟨content, hget, hdigest⟩ := h.files file hfile
    refine ⟨content, hplaced.kept _ _ ?_ hget, hdigest⟩
    intro heq
    exact hplain.documents file hfile document.1 hname (List.append_cancel_left heq)
  · intro other hother
    rcases List.mem_append.mp hother with hbefore | hlast
    · apply hplaced.kept _ _ _ (h.documents other hbefore)
      intro heq
      have hsame : other.1 = document.1 := List.singleton_inj.mp (List.append_cancel_left heq)
      exact hfresh (hsame ▸ List.mem_map_of_mem hbefore)
    · rw [List.mem_singleton.mp hlast]
      exact hplaced.placed

omit hclear in
theorem Staged.released {manifest : Manifest}
    (h : Staged digests identity directory identity.files (documentsOf manifest) disk)
    (hmade : ∃ publishedAt, manifest = manifestOf digests identity publishedAt)
    (hfree : occupied disk (target digests root identity) = false) :
    Released digests root identity (rename disk directory (target digests root identity)) manifest := by
  have hidentity : manifest.identity = identity := by
    obtain ⟨publishedAt, rfl⟩ := hmade
    rfl
  refine ⟨⟨?_, ?_, ?_⟩, hmade⟩
  · intro document hdocument
    rw [get_rename_target hfree]
    exact h.documents document hdocument
  · rw [hidentity]
    intro file hfile
    constructor
    · rw [hplain.resolve hfile]
      exact List.prefix_append _ _
    · rw [hplain.resolve hfile, get_rename_target hfree]
      exact h.files file hfile
  · rw [hidentity]
    exact hplain.distinct

end Write

end Staging

/-! ## What the steps keep -/

section Sound

variable (digests : Digests) (root : List String) (identity : Identity)

/-- What holds in a phase of a publisher with the staging directory. -/
def PhaseSound (disk : Disk) (release : Release) (directory : List String) : Phase → Prop
  | .checking => occupied disk directory = false
  | .reading => ∃ manifest, Released digests root identity disk manifest
  | .verifying manifest rest =>
    Released digests root identity disk manifest ∧ rest ⊆ manifest.identity.files
  | .copying rest => ∃ done, release.files = done ++ rest ∧
    Staged digests identity directory (done.map SourceFile.frozen) [] disk
  | .hashing file rest => ∃ done, release.files = done ++ file :: rest ∧
    Staged digests identity directory ((done ++ [file]).map SourceFile.frozen) [] disk
  | .writing manifest rest => (∃ publishedAt, manifest = manifestOf digests identity publishedAt) ∧
    ∃ done, documentsOf manifest = done ++ rest ∧
      Staged digests identity directory identity.files done disk
  | .replacing manifest => (∃ publishedAt, manifest = manifestOf digests identity publishedAt) ∧
    Staged digests identity directory identity.files (documentsOf manifest) disk
  | .selecting manifest | .inserting manifest | .returned manifest =>
    Released digests root identity disk manifest
  | .raised _ => False
  | .crashed => True

structure Sound (disk : Disk) (publisher : Publisher) : Prop where
  same : publisher.release.identity digests = identity
  outside : ∀ file ∈ publisher.release.files, ¬ stagingRoot root <+: file.sourcePath
  sourced : ∀ file ∈ publisher.release.files, Sourced digests disk file
  phase : PhaseSound digests root identity disk publisher.release
    (stagingOf root publisher.staging) publisher.phase

/-- What holds of the tree and the table. -/
structure Shared (disk : Disk) (rows : List Row) : Prop where
  clear : blocked disk (stagingRoot root) = false
  released : occupied disk (target digests root identity) = false ∨
    ∃ manifest, Released digests root identity disk manifest
  rows : ∀ row ∈ rows, row.id = releaseId digests identity →
    ∃ manifest, Released digests root identity disk manifest ∧
      row.manifestSha256 = manifest.manifestSha256

/-- What a step of a publisher leaves. -/
structure Advanced (publisher : Publisher) (disk : Disk) (turn : Turn) : Prop where
  frames : Frames digests root identity publisher.staging disk turn.disk
  shared : Shared digests root identity turn.disk turn.rows
  sound : PhaseSound digests root identity turn.disk publisher.release
    (stagingOf root publisher.staging) turn.phase
  fewer : turn.phase.stepsLeft identity.files.length <
    publisher.phase.stepsLeft identity.files.length

end Sound

section Kept

variable {digests : Digests} {root : List String} {identity : Identity} {name : String}
  {disk disk' : Disk} {rows : List Row} {publisher : Publisher}

theorem Frames.sourced (h : Frames digests root identity name disk disk') {file : SourceFile}
    (houtside : ¬ stagingRoot root <+: file.sourcePath) (hfile : Sourced digests disk file) :
    Sourced digests disk' file := by
  obtain ⟨content, hget, hdigest⟩ := hfile
  refine ⟨content, ?_, hdigest⟩
  rw [← hget]
  apply h
  · exact fun hbelow => houtside ((List.prefix_append _ _).trans hbelow)
  · intro hbelow
    rw [occupied_iff]
    exact ⟨_, hbelow, by rw [hget]; rfl⟩

theorem Frames.sound (h : Frames digests root identity name disk disk')
    (hname : name ≠ publisher.staging) (hsound : Sound digests root identity disk publisher) :
    Sound digests root identity disk' publisher where
  same := hsound.same
  outside := hsound.outside
  sourced := fun file hfile => h.sourced (hsound.outside file hfile) (hsound.sourced file hfile)
  phase := by
    have hsame : ∀ rest, get disk' (stagingOf root publisher.staging ++ rest) =
        get disk (stagingOf root publisher.staging ++ rest) := fun rest =>
      h _ (staging_apart hname rest) (fun hbelow => absurd hbelow (target_staging_apart rest))
    have hphase := hsound.phase
    cases hcase : publisher.phase with
    | checking =>
      rw [hcase] at hphase
      have hfree : occupied disk (stagingOf root publisher.staging) = false := hphase
      show occupied disk' (stagingOf root publisher.staging) = false
      rw [occupied_eq_false_iff] at hfree ⊢
      rintro path ⟨rest, rfl⟩
      rw [hsame rest]
      exact hfree _ (List.prefix_append _ rest)
    | reading =>
      rw [hcase] at hphase
      obtain ⟨manifest, hreleased⟩ := hphase
      exact ⟨manifest, h.released hreleased⟩
    | verifying manifest rest =>
      rw [hcase] at hphase
      exact ⟨h.released hphase.1, hphase.2⟩
    | copying rest =>
      rw [hcase] at hphase
      obtain ⟨done, hfiles, hstaged⟩ := hphase
      exact ⟨done, hfiles, hstaged.congr hsame⟩
    | hashing file rest =>
      rw [hcase] at hphase
      obtain ⟨done, hfiles, hstaged⟩ := hphase
      exact ⟨done, hfiles, hstaged.congr hsame⟩
    | writing manifest rest =>
      rw [hcase] at hphase
      obtain ⟨hmade, done, hdocuments, hstaged⟩ := hphase
      exact ⟨hmade, done, hdocuments, hstaged.congr hsame⟩
    | replacing manifest =>
      rw [hcase] at hphase
      exact ⟨hphase.1, hphase.2.congr hsame⟩
    | selecting manifest =>
      rw [hcase] at hphase
      exact h.released hphase
    | inserting manifest =>
      rw [hcase] at hphase
      exact h.released hphase
    | returned manifest =>
      rw [hcase] at hphase
      exact h.released hphase
    | raised error =>
      rw [hcase] at hphase
      exact hphase
    | crashed => trivial

theorem Shared.outside (h : Shared digests root identity disk rows)
    (houtside : Outside (stagingOf root name) disk disk') : Shared digests root identity disk' rows where
  clear := by
    have hframes : Frames digests root identity name disk disk' := houtside.frames
    exact hframes.clear h.clear
  released := by
    rcases h.released with hfree | ⟨manifest, hreleased⟩
    · exact Or.inl (houtside.occupied_target hfree)
    · exact Or.inr ⟨manifest, houtside.frames.released hreleased⟩
  rows := by
    intro row hrow hid
    obtain ⟨manifest, hreleased, hsame⟩ := h.rows row hrow hid
    exact ⟨manifest, houtside.frames.released hreleased, hsame⟩

end Kept

/-! ## One step of a publisher -/

section Step

variable {digests : Digests} {root : List String} {identity : Identity} {disk : Disk}
  {rows : List Row} {publisher : Publisher} {now : ℕ}

theorem Shared.advanced {turn : Turn} (h : Shared digests root identity disk rows)
    (houtside : Outside (stagingOf root publisher.staging) disk turn.disk) (hrows : turn.rows = rows)
    (hsound : PhaseSound digests root identity turn.disk publisher.release
      (stagingOf root publisher.staging) turn.phase)
    (hfewer : turn.phase.stepsLeft identity.files.length <
      publisher.phase.stepsLeft identity.files.length) :
    Advanced digests root identity publisher disk turn where
  frames := houtside.frames
  shared := hrows ▸ h.outside houtside
  sound := hsound
  fewer := hfewer

variable {manifest : Manifest}

theorem persisting_sound {persist : Bool} {release : Release} {directory : List String}
    (h : Released digests root identity disk manifest) :
    PhaseSound digests root identity disk release directory (persisting persist manifest) := by
  cases persist with
  | true => exact h
  | false => exact h

theorem persisting_stepsLeft (files : ℕ) (persist : Bool) (manifest : Manifest) :
    (persisting persist manifest).stepsLeft files ≤ 2 := by
  cases persist with
  | true => exact le_rfl
  | false => exact Nat.zero_le 2

theorem verifyFile_ok {directory : List String} {file : FrozenFile}
    (h : Frozen digests disk directory file) : verifyFile digests disk directory file = .ok () := by
  obtain ⟨hinside, content, hget, hdigest⟩ := h
  unfold verifyFile
  simp only [hinside, not_true_eq_false, if_false, hget, hdigest, ne_eq]

variable (hplain : Plain identity) (hshared : Shared digests root identity disk rows)
  (hsound : Sound digests root identity disk publisher)

include hsound in
theorem release_files_eq : identity.files = publisher.release.files.map SourceFile.frozen := by
  rw [← hsound.same]
  exact identity_files publisher.release

include hshared hsound in
theorem checking_advanced (hphase : publisher.phase = .checking) :
    Advanced digests root identity publisher disk (publisher.step digests root now disk rows) := by
  have hfree : occupied disk (stagingOf root publisher.staging) = false := by
    have h := hsound.phase
    rw [hphase] at h
    exact h
  have hlength := congrArg List.length (release_files_eq hsound)
  rw [List.length_map] at hlength
  unfold Publisher.step
  simp only [hphase, hsound.same]
  split
  · next htarget =>
    apply hshared.advanced (fun _ _ => rfl) rfl
    · rcases hshared.released with hnone | hreleased
      · rw [hnone] at htarget
        cases htarget
      · exact hreleased
    · rw [hphase]
      show identity.files.length + 4 < 2 * identity.files.length + 9
      omega
  · apply hshared.advanced (fun _ _ => rfl) rfl
    · exact ⟨[], rfl, staged_of_free hfree⟩
    · rw [hphase]
      show 2 * publisher.release.files.length + 8 < 2 * identity.files.length + 9
      omega

include hshared hsound in
theorem reading_advanced (hphase : publisher.phase = .reading) :
    Advanced digests root identity publisher disk (publisher.step digests root now disk rows) := by
  have h := hsound.phase
  rw [hphase] at h
  obtain ⟨manifest, hreleased⟩ := h
  obtain ⟨publishedAt, hmade⟩ := hreleased.made
  have hget := hreleased.complete.documents ("manifest.json", .manifest manifest) List.mem_cons_self
  have hsame : manifest.identitySha256 = digests.identity identity := by
    rw [hmade]
    rfl
  have hfiles : manifest.identity.files = identity.files := by
    rw [hmade]
    rfl
  unfold Publisher.step
  simp only [hphase, hsound.same, hget, hsame, ne_eq, not_true_eq_false, if_false]
  apply hshared.advanced (fun _ _ => rfl) rfl
  · exact ⟨hreleased, List.Subset.refl _⟩
  · rw [hphase, hfiles]
    exact Nat.lt_succ_self _

include hshared hsound in
theorem verifying_advanced {rest : List FrozenFile}
    (hphase : publisher.phase = .verifying manifest rest) :
    Advanced digests root identity publisher disk (publisher.step digests root now disk rows) := by
  have h := hsound.phase
  rw [hphase] at h
  obtain ⟨hreleased, hrest⟩ := h
  cases rest with
  | nil =>
    unfold Publisher.step
    simp only [hphase]
    apply hshared.advanced (fun _ _ => rfl) rfl (persisting_sound hreleased)
    rw [hphase]
    have hleft := persisting_stepsLeft identity.files.length publisher.persist manifest
    show _ < 0 + 3
    dsimp only
    omega
  | cons file rest =>
    have hok := verifyFile_ok (hreleased.complete.files file (hrest List.mem_cons_self))
    unfold Publisher.step
    simp only [hphase, hsound.same, hok]
    apply hshared.advanced (fun _ _ => rfl) rfl
    · exact ⟨hreleased, List.Subset.trans (List.subset_cons_self _ _) hrest⟩
    · rw [hphase]
      exact Nat.lt_succ_self _

include hplain hshared hsound in
theorem copying_advanced {rest : List SourceFile} (hphase : publisher.phase = .copying rest) :
    Advanced digests root identity publisher disk (publisher.step digests root now disk rows) := by
  have h := hsound.phase
  rw [hphase] at h
  obtain ⟨done, hdone, hstaged⟩ := h
  cases rest with
  | nil =>
    obtain ⟨made, hmake, hmade, houtside⟩ := hstaged.enter hplain hshared.clear
    have hall : done.map SourceFile.frozen = identity.files := by
      rw [release_files_eq hsound, hdone, List.append_nil]
    rw [hall] at hmade
    unfold Publisher.step
    simp only [hphase, hsound.same, hmake]
    apply hshared.advanced houtside rfl
    · exact ⟨⟨now, rfl⟩, [], rfl, hmade⟩
    · rw [hphase]
      show 3 + 4 < 2 * 0 + 8
      decide
  | cons file rest =>
    have hfile : file ∈ publisher.release.files := by
      rw [hdone]
      exact List.mem_append_right _ List.mem_cons_self
    have hfrozen : file.frozen ∈ identity.files := by
      rw [release_files_eq hsound]
      exact List.mem_map_of_mem hfile
    have hsubset : done.map SourceFile.frozen ⊆ identity.files := by
      rw [release_files_eq hsound, hdone, List.map_append]
      exact List.subset_append_left _ _
    obtain ⟨content, hget, hdigest⟩ := hsound.sourced file hfile
    obtain ⟨copied, hcopy, hcopied, houtside⟩ :=
      hstaged.copy hplain hshared.clear hsubset hfrozen hdigest
    unfold Publisher.step
    simp only [hphase, hget, hcopy]
    apply hshared.advanced houtside rfl
    · refine ⟨done, hdone, ?_⟩
      rw [List.map_append]
      exact hcopied
    · rw [hphase]
      show 2 * rest.length + 9 < 2 * (rest.length + 1) + 8
      omega

include hplain hshared hsound in
theorem hashing_advanced {file : SourceFile} {rest : List SourceFile}
    (hphase : publisher.phase = .hashing file rest) :
    Advanced digests root identity publisher disk (publisher.step digests root now disk rows) := by
  have h := hsound.phase
  rw [hphase] at h
  obtain ⟨done, hdone, hstaged⟩ := h
  have hfrozen : file.frozen ∈ identity.files := by
    rw [release_files_eq hsound, hdone]
    exact List.mem_map_of_mem (List.mem_append_right _ List.mem_cons_self)
  obtain ⟨content, hget, hdigest⟩ := hstaged.files file.frozen (by simp)
  rw [← hplain.resolve hfrozen] at hget
  unfold Publisher.step
  simp only [hphase, hget, hdigest, ne_eq, not_true_eq_false, if_false]
  apply hshared.advanced (fun _ _ => rfl) rfl
  · exact ⟨done ++ [file], by rw [hdone, List.append_assoc]; rfl, hstaged⟩
  · rw [hphase]
    exact Nat.lt_succ_self _

include hplain hshared hsound in
theorem writing_advanced {rest : List (String × Document)}
    (hphase : publisher.phase = .writing manifest rest) :
    Advanced digests root identity publisher disk (publisher.step digests root now disk rows) := by
  have h := hsound.phase
  rw [hphase] at h
  obtain ⟨hmade, done, hdone, hstaged⟩ := h
  cases rest with
  | nil =>
    rw [List.append_nil] at hdone
    unfold Publisher.step
    simp only [hphase]
    apply hshared.advanced (fun _ _ => rfl) rfl
    · exact ⟨hmade, hdone ▸ hstaged⟩
    · rw [hphase]
      exact Nat.lt_succ_self 3
  | cons document rest =>
    have hnames : (done ++ document :: rest).map Prod.fst = documentNames := by
      rw [← hdone]
      rfl
    have hname : document.1 ∈ documentNames := by
      rw [← hnames]
      simp
    have hfresh : document.1 ∉ done.map Prod.fst := by
      have hnodup : ((done ++ document :: rest).map Prod.fst).Nodup := by
        rw [hnames]
        decide
      rw [List.map_append, List.nodup_append] at hnodup
      intro hmem
      exact hnodup.2.2 _ hmem _ (by simp) rfl
    obtain ⟨written, hwrite, hwritten, houtside⟩ :=
      hstaged.write hplain hshared.clear hname hfresh
    unfold Publisher.step
    simp only [hphase, hwrite]
    apply hshared.advanced houtside rfl
    · exact ⟨hmade, done ++ [document], by rw [hdone, List.append_assoc]; rfl, hwritten⟩
    · rw [hphase]
      exact Nat.lt_succ_self _

include hplain hshared hsound in
theorem replacing_advanced (hphase : publisher.phase = .replacing manifest)
    (hfree : occupied disk (target digests root identity) = false) :
    Advanced digests root identity publisher disk (publisher.step digests root now disk rows) := by
  have h := hsound.phase
  rw [hphase] at h
  obtain ⟨hmade, hstaged⟩ := h
  have hstaging : occupied disk (stagingOf root publisher.staging) = true := by
    rw [occupied_iff]
    refine ⟨_, List.prefix_append _ ["manifest.json"], ?_⟩
    rw [hstaged.documents ("manifest.json", .manifest manifest) List.mem_cons_self]
    rfl
  have hreleased : Released digests root identity
      (rename disk (stagingOf root publisher.staging) (target digests root identity)) manifest :=
    hstaged.released hplain hmade hfree
  have hframes : Frames digests root identity publisher.staging disk
      (rename disk (stagingOf root publisher.staging) (target digests root identity)) := by
    intro path hpath htarget
    apply get_rename_of_apart hpath
    intro hbelow
    rw [htarget hbelow] at hfree
    cases hfree
  unfold Publisher.step
  simp only [hphase, hsound.same, hfree, hstaging, Bool.false_eq_true, not_true_eq_false, or_self,
    if_false]
  refine ⟨hframes, ⟨hframes.clear hshared.clear, Or.inr ⟨manifest, hreleased⟩, ?_⟩,
    persisting_sound hreleased, ?_⟩
  · intro row hrow hid
    obtain ⟨old, hold, _⟩ := hshared.rows row hrow hid
    rw [hold.occupied] at hfree
    cases hfree
  · rw [hphase]
    have hleft := persisting_stepsLeft identity.files.length publisher.persist manifest
    show _ < 3
    dsimp only
    omega

include hshared hsound in
theorem selecting_advanced (hphase : publisher.phase = .selecting manifest) :
    Advanced digests root identity publisher disk (publisher.step digests root now disk rows) := by
  have hreleased := hsound.phase
  rw [hphase] at hreleased
  have hid : manifest.dataReleaseId = releaseId digests identity := by
    obtain ⟨publishedAt, hmade⟩ := Released.made hreleased
    rw [hmade]
    rfl
  unfold Publisher.step
  simp only [hphase]
  split
  · next row hrow =>
    have hmatch : row.id = manifest.dataReleaseId := by simpa using List.find?_some hrow
    obtain ⟨old, hold, hsame⟩ :=
      hshared.rows row (List.mem_of_find?_eq_some hrow) (hmatch.trans hid)
    rw [Released.unique hold hreleased] at hsame
    simp only [hsame, ne_eq, not_true_eq_false, if_false]
    apply hshared.advanced (fun _ _ => rfl) rfl hreleased
    rw [hphase]
    exact Nat.two_pos
  · apply hshared.advanced (fun _ _ => rfl) rfl hreleased
    rw [hphase]
    exact Nat.one_lt_two

include hshared hsound in
theorem inserting_advanced (hphase : publisher.phase = .inserting manifest)
    (hnone : ∀ row ∈ rows, row.id ≠ manifest.dataReleaseId) :
    Advanced digests root identity publisher disk (publisher.step digests root now disk rows) := by
  have hreleased := hsound.phase
  rw [hphase] at hreleased
  have hfresh : rows.any (fun row => decide (row.id = manifest.dataReleaseId)) = false := by
    rw [← Bool.not_eq_true, List.any_eq_true]
    rintro ⟨row, hrow, hid⟩
    exact hnone row hrow (of_decide_eq_true hid)
  unfold Publisher.step
  simp only [hphase, hfresh, Bool.false_eq_true, if_false]
  refine ⟨fun _ _ _ => rfl, ⟨hshared.clear, hshared.released, ?_⟩, hreleased, ?_⟩
  · intro row hrow hid
    rcases List.mem_append.mp hrow with hold | hnew
    · exact hshared.rows row hold hid
    · rw [List.mem_singleton.mp hnew]
      exact ⟨manifest, hreleased, rfl⟩
  · rw [hphase]
    exact Nat.one_pos

include hplain hshared hsound in
theorem torn_outside (left : Document) :
    Outside (stagingOf root publisher.staging) disk (publisher.torn root disk left) := by
  have h := hsound.phase
  unfold Publisher.torn
  dsimp only
  split
  · next file rest hphase =>
    rw [hphase] at h
    obtain ⟨done, hdone, hstaged⟩ := h
    have hfrozen : file.frozen ∈ identity.files := by
      rw [release_files_eq hsound, hdone]
      exact List.mem_map_of_mem (List.mem_append_right _ List.mem_cons_self)
    obtain ⟨torn, hplace, hplaced⟩ :=
      hstaged.within.placed hplain.clear hshared.clear (slot_mem hfrozen) left
    have hcopy : copyFrozen disk (stagingOf root publisher.staging) file.frozen.path left =
        some torn := by
      unfold copyFrozen
      rw [hplain.resolve hfrozen, hplain.parents hfrozen]
      exact hplace
    rw [hcopy]
    exact hplaced.outside
  · next manifest document rest hphase =>
    rw [hphase] at h
    obtain ⟨_, done, hdone, hstaged⟩ := h
    have hname : document.1 ∈ documentNames := by
      have hnames : (done ++ document :: rest).map Prod.fst = documentNames := by
        rw [← hdone]
        rfl
      rw [← hnames]
      simp
    obtain ⟨torn, hwrite, hplaced⟩ :=
      hstaged.within.written hplain.clear hshared.clear (documentSlot_mem hname) left
    have hwritten : writeFile disk (stagingOf root publisher.staging ++ [document.1]) left =
        some torn := hwrite
    rw [hwritten]
    exact hplaced.outside
  · exact fun _ _ => rfl

end Step

/-! ## Runs -/

section Runs

variable {digests : Digests} {root : List String} {identity : Identity} {world : World}

structure Invariant (digests : Digests) (root : List String) (identity : Identity) (world : World) :
    Prop where
  shared : Shared digests root identity world.disk world.rows
  names : (world.publishers.map Publisher.staging).Nodup
  sound : ∀ publisher ∈ world.publishers, Sound digests root identity world.disk publisher

variable {publisher : Publisher}

theorem Invariant.advanced (h : Invariant digests root identity world) (hplain : Plain identity)
    {index now : ℕ} (hindex : world.publishers[index]? = some publisher)
    (hrunning : publisher.phase.running)
    (hrace : unraced digests root identity world (.step index now)) :
    Advanced digests root identity publisher world.disk
      (publisher.step digests root now world.disk world.rows) := by
  have hsound := h.sound publisher (List.mem_of_getElem? hindex)
  cases hphase : publisher.phase with
  | checking => exact checking_advanced h.shared hsound hphase
  | reading => exact reading_advanced h.shared hsound hphase
  | verifying manifest rest => exact verifying_advanced h.shared hsound hphase
  | copying rest => exact copying_advanced hplain h.shared hsound hphase
  | hashing file rest => exact hashing_advanced hplain h.shared hsound hphase
  | writing manifest rest => exact writing_advanced hplain h.shared hsound hphase
  | replacing manifest =>
    apply replacing_advanced hplain h.shared hsound hphase
    simpa [unraced, hindex, hphase] using hrace
  | selecting manifest => exact selecting_advanced h.shared hsound hphase
  | inserting manifest =>
    apply inserting_advanced h.shared hsound hphase
    simpa [unraced, hindex, hphase] using hrace
  | returned manifest =>
    rw [hphase] at hrunning
    cases hrunning
  | raised error =>
    rw [hphase] at hrunning
    cases hrunning
  | crashed =>
    rw [hphase] at hrunning
    cases hrunning

theorem Invariant.set (h : Invariant digests root identity world) {index : ℕ}
    (hindex : world.publishers[index]? = some publisher) {disk : Disk} {rows : List Row}
    {phase : Phase} (hframes : Frames digests root identity publisher.staging world.disk disk)
    (hshared : Shared digests root identity disk rows)
    (hphase : PhaseSound digests root identity disk publisher.release
      (stagingOf root publisher.staging) phase) :
    Invariant digests root identity
      { disk := disk
        rows := rows
        publishers := world.publishers.set index { publisher with phase := phase } } := by
  obtain ⟨hlt, hget⟩ := List.getElem?_eq_some_iff.mp hindex
  obtain ⟨before, after, hsplit, _, hset⟩ :=
    @List.exists_of_set _ _ { publisher with phase := phase } _ hlt
  rw [hget] at hsplit
  have hnames := h.names
  rw [hsplit, List.map_append, List.map_cons, List.nodup_middle, List.nodup_cons] at hnames
  have hother : ∀ other ∈ before ++ after, Sound digests root identity disk other := by
    intro other hmem
    apply hframes.sound
    · intro heq
      apply hnames.1
      rw [← List.map_append, heq]
      exact List.mem_map_of_mem hmem
    · apply h.sound
      rw [hsplit]
      rcases List.mem_append.mp hmem with hbefore | hafter
      · exact List.mem_append_left _ hbefore
      · exact List.mem_append_right _ (List.mem_cons_of_mem _ hafter)
  have hold := h.sound publisher (List.mem_of_getElem? hindex)
  have hown : Sound digests root identity disk { publisher with phase := phase } :=
    { same := hold.same
      outside := hold.outside
      sourced := fun file hfile => hframes.sourced (hold.outside file hfile) (hold.sourced file hfile)
      phase := hphase }
  refine ⟨hshared, ?_, ?_⟩
  · show ((world.publishers.set index { publisher with phase := phase }).map
      Publisher.staging).Nodup
    rw [hset, List.map_append, List.map_cons, List.nodup_middle, List.nodup_cons]
    exact hnames
  · intro other hmem
    have hmem' : other ∈ before ++ { publisher with phase := phase } :: after := hset ▸ hmem
    rcases List.mem_append.mp hmem' with hbefore | hrest
    · exact hother other (List.mem_append_left _ hbefore)
    · rcases List.mem_cons.mp hrest with heq | hafter
      · exact heq ▸ hown
      · exact hother other (List.mem_append_right _ hafter)

theorem Invariant.start (h : Invariant digests root identity world) {spec : Spec} {staging : String}
    {persist : Bool} (hstarts : world.starts digests root identity spec staging persist)
    (hrace : unraced digests root identity world (.start spec staging persist)) :
    Invariant digests root identity (world.next digests root (.start spec staging persist)) := by
  obtain ⟨hsome, hfree, hfresh⟩ := hstarts
  unfold unraced at hrace
  dsimp only at hrace
  unfold World.next
  cases hprepared : prepareRelease digests root world.disk spec with
  | error error => simp [publisherOf, hprepared] at hsome
  | ok release =>
    have hpublisher : publisherOf digests root world spec staging persist =
        some { release, staging, persist, phase := .checking } := by
      simp only [publisherOf, hprepared]
    rw [hpublisher] at hsome hrace
    simp only [Option.any_some, decide_eq_true_eq] at hsome
    simp only [Option.all_some, List.all_eq_true, decide_eq_true_eq] at hrace
    simp only [hpublisher, Option.toList_some]
    refine ⟨h.shared, ?_, ?_⟩
    · rw [List.map_append, List.nodup_append]
      refine ⟨h.names, List.nodup_singleton _, ?_⟩
      rintro name hname other hother rfl
      rw [List.mem_singleton.mp hother] at hname
      exact hfresh hname
    · intro publisher hmem
      rcases List.mem_append.mp hmem with hold | hnew
      · exact h.sound publisher hold
      · rw [List.mem_singleton.mp hnew]
        exact ⟨hsome, hrace, prepareRelease_sourced hprepared, hfree⟩

theorem World.next_step {index now : ℕ} (h : world.publishers[index]? = some publisher) :
    world.next digests root (.step index now) =
      { disk := (publisher.step digests root now world.disk world.rows).disk
        rows := (publisher.step digests root now world.disk world.rows).rows
        publishers := world.publishers.set index
          { publisher with
            phase := (publisher.step digests root now world.disk world.rows).phase } } := by
  simp only [World.next, h]

theorem World.next_crash {index : ℕ} {left : Option Document}
    (h : world.publishers[index]? = some publisher) :
    world.next digests root (.crash index left) =
      if publisher.phase.running then
        { disk := (left.map (publisher.torn root world.disk)).getD world.disk
          rows := world.rows
          publishers := world.publishers.set index { publisher with phase := .crashed } }
      else world := by
  simp only [World.next, h]

theorem Invariant.step (h : Invariant digests root identity world) (hplain : Plain identity)
    {index now : ℕ} (hrace : unraced digests root identity world (.step index now)) :
    Invariant digests root identity (world.next digests root (.step index now)) := by
  cases hindex : world.publishers[index]? with
  | none => simpa only [World.next, hindex] using h
  | some publisher =>
    have hsound := h.sound publisher (List.mem_of_getElem? hindex)
    have hphase := hsound.phase
    rw [World.next_step hindex]
    by_cases hrunning : publisher.phase.running
    · have hadvanced := h.advanced hplain hindex hrunning hrace
      exact h.set hindex hadvanced.frames hadvanced.shared hadvanced.sound
    · have hsame : publisher.step digests root now world.disk world.rows =
          { disk := world.disk, rows := world.rows, phase := publisher.phase } := by
        unfold Publisher.step
        cases hcase : publisher.phase with
        | returned manifest => rfl
        | raised error => rfl
        | crashed => rfl
        | _ =>
          rw [hcase] at hrunning
          exact absurd rfl hrunning
      rw [hsame]
      exact h.set hindex (fun _ _ _ => rfl) h.shared hphase

theorem Invariant.crash (h : Invariant digests root identity world) (hplain : Plain identity)
    (index : ℕ) (left : Option Document) :
    Invariant digests root identity (world.next digests root (.crash index left)) := by
  cases hindex : world.publishers[index]? with
  | none => simpa only [World.next, hindex] using h
  | some publisher =>
    rw [World.next_crash hindex]
    split
    · have hsound := h.sound publisher (List.mem_of_getElem? hindex)
      have houtside : Outside (stagingOf root publisher.staging) world.disk
          ((left.map (publisher.torn root world.disk)).getD world.disk) := by
        cases left with
        | none => exact fun _ _ => rfl
        | some left => exact torn_outside hplain h.shared hsound left
      have hcrashed : PhaseSound digests root identity
          ((left.map (publisher.torn root world.disk)).getD world.disk) publisher.release
          (stagingOf root publisher.staging) .crashed := trivial
      exact h.set hindex houtside.frames (h.shared.outside houtside) hcrashed
    · exact h

theorem Invariant.next (h : Invariant digests root identity world) (hplain : Plain identity)
    {action : Action} (hallowed : (publications digests root identity).allowed world action)
    (hrace : unraced digests root identity world action) :
    Invariant digests root identity ((publications digests root identity).next world action) := by
  cases action with
  | start spec staging persist => exact h.start hallowed hrace
  | step index now => exact h.step hplain hrace
  | crash index left => exact h.crash hplain index left

theorem Invariant.published (h : Invariant digests root identity world) (hplain : Plain identity) :
    Published digests root identity world := by
  have hreturned : ∀ publisher ∈ world.publishers, ∀ manifest, publisher.phase = .returned manifest →
      Released digests root identity world.disk manifest := by
    intro publisher hmem manifest hphase
    have hsound := (h.sound publisher hmem).phase
    rw [hphase] at hsound
    exact hsound
  refine ⟨?_, ?_, hreturned, h.shared.released, h.shared.rows, ?_⟩
  · intro publisher hmem error hphase
    have hsound := (h.sound publisher hmem).phase
    rw [hphase] at hsound
    exact hsound
  · intro publisher hmem other hother manifest manifest' hphase hphase'
    exact (hreturned publisher hmem manifest hphase).unique
      (hreturned other hother manifest' hphase')
  · intro index now publisher hindex hrunning hrace
    exact (h.advanced hplain hindex hrunning hrace).fewer

/-- A tree and a table from before any of the publishers: the release is complete if it is there,
and no file is where the directories of the releases would be. -/
structure Settled (digests : Digests) (root : List String) (identity : Identity) (world : World) :
    Prop where
  idle : world.publishers = []
  shared : Shared digests root identity world.disk world.rows

/-- Publishers that are not raced publish the one release. -/
theorem publications_published (hplain : Plain identity)
    (hsettled : Settled digests root identity world) (actions : List Action)
    (haccepts : ((publications digests root identity).restrict
      (fun world action => unraced digests root identity world action)).Accepts world actions) :
    Published digests root identity ((publications digests root identity).after world actions) := by
  have hstart : Invariant digests root identity world :=
    { shared := hsettled.shared
      names := by
        rw [hsettled.idle]
        exact List.nodup_nil
      sound := by
        rw [hsettled.idle]
        simp }
  have hstep : ∀ before action, Invariant digests root identity before →
      ((publications digests root identity).restrict
        (fun world action => unraced digests root identity world action)).allowed before action →
          Invariant digests root identity ((publications digests root identity).next before action) :=
    fun _ _ h hallowed => h.next hplain hallowed.1 hallowed.2
  exact (Machine.invariant hstep actions world hstart haccepts).published hplain

end Runs

/-! ## Two publishers -/

/-- The digests of the one file and of the values that are made of it. -/
def sampleDigests : Digests where
  file := fun _ => "4bf5122f344554c53bde2ebb8cd2b7e3d1600ad631c385a5d7cce23c7785459a"
  size := fun _ => 1
  component := fun component => "c-" ++ component.role
  identity := fun _ => "1b4f0e98"
  manifest := fun _ publishedAt => if publishedAt = 0 then "60303ae2" else "fd61a03a"

def sampleScope : Scope where
  profile := usEtfCertificationProfile
  assetClass := "equity"
  market := "usa"
  universeName := "us-etf"
  benchmark := "SPY"
  asOfTime := "2024-01-02T00:00:00Z"

def sampleCoverage : Coverage := ⟨"2020-01-02", "2023-12-29"⟩

def sampleSpec : Spec where
  scope := sampleScope
  coverage := sampleCoverage
  components := usEtfCertificationComponents.map (fun role =>
    { role := role
      componentReleaseId := "r1"
      datasetKey := role
      schemaVersion := "1"
      coverage := sampleCoverage
      files := [⟨"staged/bars.csv", "", 250⟩] })
  policies := "{}"
  lineage := "{}"

def sampleRoles : List String :=
  ["adjustment_factors", "bars", "benchmark", "corporate_actions", "security_master",
    "trading_calendar"]

def sampleIdentity : Identity where
  schemaVersion := "2.0"
  scope := sampleScope
  coverage := sampleCoverage
  requiredComponents := sampleRoles
  components := sampleRoles.map (fun role =>
    { role := role
      componentReleaseId := "r1"
      datasetKey := role
      schemaVersion := "1"
      coverage := sampleCoverage
      files :=
        [{ path := { absolute := false, parts := ["components", role, "00000.csv"] }
           sha256 := "4bf5122f344554c53bde2ebb8cd2b7e3d1600ad631c385a5d7cce23c7785459a"
           sizeBytes := 1
           rowCount := 250 }]
      componentSha256 := "c-" ++ role })
  policies := "{}"
  lineage := "{}"

def sampleRoot : List String := ["data"]

def sampleWorld : World where
  disk := [(["data", "staged", "bars.csv"], .file (.data [1]))]
  rows := []
  publishers := []

theorem sampleIdentity_plain : Plain sampleIdentity := by
  have hidentity : (prepareRelease sampleDigests sampleRoot sampleWorld.disk sampleSpec).map
      (Release.identity sampleDigests) = .ok sampleIdentity := by decide +kernel
  obtain ⟨release, hrelease, hsame⟩ := map_ok hidentity
  rw [← hsame]
  exact prepareRelease_plain hrelease (by decide +kernel)

theorem sampleWorld_settled : Settled sampleDigests sampleRoot sampleIdentity sampleWorld where
  idle := rfl
  shared :=
    { clear := by decide +kernel
      released := Or.inl (by decide +kernel)
      rows := by simp [sampleWorld] }

/-- A publisher crashes between the steps of another one, and a third finds the release. -/
def turnRun : List Action :=
  [.start sampleSpec "3f1c" true, .start sampleSpec "9ab0" true, .step 0 0, .step 1 1, .step 0 0,
    .step 1 1, .crash 1 (some (.data []))] ++ List.replicate 19 (.step 0 0) ++
    .start sampleSpec "77e2" true :: List.replicate 10 (.step 2 1)

theorem turnRun_published : Published sampleDigests sampleRoot sampleIdentity
    ((publications sampleDigests sampleRoot sampleIdentity).after sampleWorld turnRun) :=
  publications_published sampleIdentity_plain sampleWorld_settled turnRun (by decide +kernel)

/-- Both publishers look for the release before one of them renames. -/
def raceRun : List Action :=
  [.start sampleSpec "3f1c" true, .start sampleSpec "9ab0" true, .step 0 0, .step 1 1] ++
    List.replicate 20 (.step 0 0) ++ List.replicate 18 (.step 1 1)

theorem raceRun_raises : Plain sampleIdentity ∧
    Settled sampleDigests sampleRoot sampleIdentity sampleWorld ∧
    (publications sampleDigests sampleRoot sampleIdentity).Accepts sampleWorld raceRun ∧
    ¬ Published sampleDigests sampleRoot sampleIdentity
      ((publications sampleDigests sampleRoot sampleIdentity).after sampleWorld raceRun) := by
  refine ⟨sampleIdentity_plain, sampleWorld_settled, by decide +kernel, fun h => ?_⟩
  have hraised : (((publications sampleDigests sampleRoot sampleIdentity).after sampleWorld
      raceRun).publishers[1]?).map Publisher.phase = some (.raised .notReplaced) := by
    decide +kernel
  obtain ⟨publisher, hpublisher, hphase⟩ := Option.map_eq_some_iff.mp hraised
  exact h.noError publisher (List.mem_of_getElem? hpublisher) _ hphase

end LocalPlatform.Releases
