import LocalPlatform.Artifacts.Imports
import Mathlib.Data.List.Dedup

/-!
# The lineage of artifacts

* `Sound` is the invariant: the lineage is acyclic, and each edge joins registered artifacts of one
  DataRelease and one UniverseRelease.
* `Frozen` says what a call does not change: a registered artifact, its parents, and an import.
* A bundle is `Clean` if what is stored and compared of its identifiers is what was checked of them.
  `validate_payload` checks them without their surrounding blanks, the registry has them as they are.
* `validatePayload_ok` and `preflightQlibArtifacts_iff` say what an accepted bundle is.
-/

namespace LocalPlatform.Qlib

open Paper Tables Results Dags

/-! ## The promise and the condition -/

/-- The UniverseRelease of a row, of which an empty one is none. -/
def Registered.universe (row : Registered) : Option String :=
  textOrNone (row.universeReleaseId.getD "")

/-- An edge joins registered artifacts of one DataRelease and one UniverseRelease. -/
def Joined (db : Db) (edge : String × String) : Prop :=
  ∃ parent child, db.artifact edge.1 = some parent ∧ db.artifact edge.2 = some child ∧
    parent.dataReleaseId = child.dataReleaseId ∧ parent.universe = child.universe

/-- The signal of an import: its import is there, and its target is of the import's DataRelease. -/
def OfImport (db : Db) (signal : SignalRow) : Prop :=
  ∃ imported, find ImportRow.id db.imports signal.importId = some imported ∧
    imported.researchRunId = signal.researchRunId ∧
    ∀ target ∈ signal.targetArtifactId, ∃ row, db.artifact target = some row ∧
      row.dataReleaseId = imported.dataReleaseId

structure Sound (db : Db) : Prop where
  keyed : Tables.Unique Registered.artifactId db.registry
  joined : ∀ edge ∈ db.edges, Joined db edge
  acyclic : Acyclic (fun parent child => (parent, child) ∈ db.edges)
  signals : ∀ signal ∈ db.signals, OfImport db signal

/-- What may not change of a registered artifact. -/
def Registered.frozen (row : Registered) : Registered :=
  { row with promotionStatus := .candidate }

/-- A call keeps the registered artifacts with their parents, and the imports with their signals. -/
structure Frozen (db next : Db) : Prop where
  artifact : ∀ id row, db.artifact id = some row →
    ∃ kept, next.artifact id = some kept ∧ kept.frozen = row.frozen
  parents : ∀ id, (db.artifact id).isSome →
    ∀ parent, (parent, id) ∈ next.edges ↔ (parent, id) ∈ db.edges
  imports : ∀ externalRunId row, find ImportRow.externalRunId db.imports externalRunId = some row →
    find ImportRow.externalRunId next.imports externalRunId = some row
  importIds : ∀ id row, find ImportRow.id db.imports id = some row →
    find ImportRow.id next.imports id = some row
  runs : ∀ run ∈ db.imports.map ImportRow.researchRunId,
    run ∈ next.imports.map ImportRow.researchRunId ∧
      next.signals.filter (fun row => row.researchRunId = run) =
        db.signals.filter (fun row => row.researchRunId = run)
  releases : next.releases.map (fun row => (row.id, row.pitUniverses)) =
    db.releases.map (fun row => (row.id, row.pitUniverses))

/-- What is stored of a value in a column, and what is compared of it, is what was checked. -/
def CleanColumn (value : ParamValue) : Prop :=
  textOrNone (rawText value) = checkedText value ∧
    OnOk (fun stored => textOrNone (stored.getD "") = checkedText value) (column value)

instance (value : ParamValue) : Decidable (CleanColumn value) :=
  inferInstanceAs (Decidable (_ ∧ _))

/-- What is compared of a value is what was checked of it. -/
def CleanText (value : ParamValue) : Prop := textOrNone (rawText value) = checkedText value

instance (value : ParamValue) : Decidable (CleanText value) :=
  inferInstanceAs (Decidable (_ = _))

/-- The digest of the source manifest, if there is one. -/
def RawMetadata.source : RawMetadata → ParamValue
  | .object fields => fields.get "sourceManifestSha256"
  | _ => .null

structure RawArtifact.Clean (raw : RawArtifact) : Prop where
  artifactId : CleanText (raw.fields.get "artifactId")
  dataReleaseId : CleanColumn (raw.fields.get "dataReleaseId")
  universeReleaseId : CleanColumn (raw.fields.get "universeReleaseId")
  source : CleanText raw.metadata.source

/-- The identifiers of a bundle have no surrounding blanks. -/
def Payload.Clean (payload : Payload) : Prop :=
  ∀ raw, some raw ∈ payload.artifacts → raw.Clean

/-- The condition on a call: a bundle that is accepted is clean. -/
def Call.Clean : Call → Prop
  | .importRun _ payload => OnOk (fun _ => payload.Clean) (validatePayload payload)
  | _ => True

/-! ## What a bundle is -/

section Bundles

/-- What was checked of an artifact. -/
structure CheckedOf (raw : RawArtifact) (checked : Checked) : Prop where
  fields : checked.artifact.fields = raw.fields
  metadata : metadataOf checked.artifactId raw.metadata = .ok checked.artifact.metadata
  artifactId : checkedText (raw.fields.get "artifactId") = some checked.artifactId
  dataReleaseId : checkedText (raw.fields.get "dataReleaseId") = some checked.dataReleaseId
  universeReleaseId : checkedText (raw.fields.get "universeReleaseId") = checked.universeReleaseId

theorem requiredString_ok {item : Parameters} {key owner value : String}
    (h : requiredString item key owner = .ok value) : checkedText (item.get key) = some value :=
  orThrow_ok.mp h

theorem checkArtifact_ok {ids : List String} {raw : RawArtifact} {checked : Checked}
    (h : checkArtifact ids raw = .ok checked) : CheckedOf raw checked := by
  unfold checkArtifact at h
  dsimp only at h
  obtain ⟨artifactId, hid, h⟩ := bind_ok h
  obtain ⟨_, -, h⟩ := bind_ok h
  obtain ⟨_, -, h⟩ := bind_ok h
  obtain ⟨typeText, -, h⟩ := bind_ok h
  obtain ⟨statusText, -, h⟩ := bind_ok h
  obtain ⟨kind, -, h⟩ := bind_ok h
  obtain ⟨_, -, h⟩ := bind_ok h
  obtain ⟨dataReleaseId, hrelease, h⟩ := bind_ok h
  obtain ⟨_, -, h⟩ := bind_ok h
  obtain ⟨_, -, h⟩ := bind_ok h
  obtain ⟨_, -, h⟩ := bind_ok h
  obtain ⟨payloadSha, -, h⟩ := bind_ok h
  obtain ⟨objectKey, -, h⟩ := bind_ok h
  obtain ⟨refSha, -, h⟩ := bind_ok h
  obtain ⟨_, -, h⟩ := bind_ok h
  obtain ⟨_, -, h⟩ := bind_ok h
  obtain ⟨_, -, h⟩ := bind_ok h
  obtain ⟨metadata, hmetadata, h⟩ := bind_ok h
  obtain ⟨_, -, h⟩ := bind_ok h
  obtain ⟨_, -, h⟩ := bind_ok h
  obtain ⟨modelReleaseId, -, h⟩ := bind_ok h
  have hartifactId := requiredString_ok hid
  have hdataReleaseId := requiredString_ok hrelease
  obtain rfl := Except.ok.inj h
  constructor
  · rfl
  · exact hmetadata
  · exact hartifactId
  · exact hdataReleaseId
  · dsimp only

theorem checkArtifacts_ok {ids : List String} {raws : List (Option RawArtifact)}
    {items : List Checked} (h : checkArtifacts ids raws = .ok items) :
    ∀ checked ∈ items, ∃ raw, some raw ∈ raws ∧ CheckedOf raw checked := by
  induction raws generalizing ids items with
  | nil =>
    rw [← Except.ok.inj h]
    simp
  | cons first raws ih =>
    cases first with
    | none => cases h
    | some raw =>
      unfold checkArtifacts at h
      obtain ⟨checked, hchecked, h⟩ := bind_ok h
      obtain ⟨others, hothers, h⟩ := bind_ok h
      rw [← Except.ok.inj h]
      intro other hother
      cases List.mem_cons.mp hother with
      | inl heq => exact ⟨raw, List.mem_cons_self, heq ▸ checkArtifact_ok hchecked⟩
      | inr hmem =>
        obtain ⟨source, hsource, hof⟩ := ih hothers other hmem
        exact ⟨source, List.mem_cons_of_mem _ hsource, hof⟩

theorem single_ok {α : Type} {values : List α} {value : α} (h : single values = some value) :
    values = [value] := by
  unfold single at h
  split at h
  · rw [Option.some.inj h]
  · cases h

theorem oneOptionalBinding_ok {values : List (Option String)} {name : String}
    {value : Option String} (h : oneOptionalBinding values name = .ok value) :
    ∀ other ∈ values, other = value := by
  unfold oneOptionalBinding at h
  split_ifs at h with hnone hall hone
  · intro other hother
    rw [← Except.ok.inj h]
    have hother' := List.any_eq_false.mp hnone other hother
    simpa using hother'
  · intro other hother
    rw [← Except.ok.inj h]
    obtain ⟨only, honly⟩ := List.length_eq_one_iff.mp (not_not.mp hone)
    have hmem : ∀ entry ∈ values, entry = only := by
      intro entry hentry
      have hdedup := List.mem_dedup.mpr hentry
      rw [honly] at hdedup
      exact List.mem_singleton.mp hdedup
    cases values with
    | nil => cases hother
    | cons first values =>
      rw [hmem other hother]
      exact (hmem first List.mem_cons_self).symm

/-- What holds of the artifacts of an accepted bundle. -/
structure Accepted (validated : Validated) (ids : List String) (artifact : Artifact) : Prop where
  artifactId : ∃ id ∈ ids, checkedText (artifact.fields.get "artifactId") = some id
  dataReleaseId : checkedText (artifact.fields.get "dataReleaseId") = some validated.dataReleaseId
  universeReleaseId :
    checkedText (artifact.fields.get "universeReleaseId") = validated.universeReleaseId
  parents : artifact.parents ⊆ ids

theorem validatePayload_ok {payload : Payload} {validated : Validated}
    (h : validatePayload payload = .ok validated) :
    ∃ items : List Checked, validated.artifacts = items.map Checked.artifact ∧
      (∀ checked ∈ items, ∃ raw, some raw ∈ payload.artifacts ∧ CheckedOf raw checked) ∧
      ∀ checked ∈ items, Accepted validated (items.map Checked.artifactId) checked.artifact := by
  unfold validatePayload at h
  obtain ⟨_, -, h⟩ := bind_ok h
  obtain ⟨_, -, h⟩ := bind_ok h
  obtain ⟨externalRunId, -, h⟩ := bind_ok h
  obtain ⟨runKind, -, h⟩ := bind_ok h
  obtain ⟨_, -, h⟩ := bind_ok h
  obtain ⟨items, hitems, h⟩ := bind_ok h
  obtain ⟨dataReleaseId, hrelease, h⟩ := bind_ok h
  obtain ⟨universeReleaseId, huniverse, h⟩ := bind_ok h
  obtain ⟨source, -, h⟩ := bind_ok h
  obtain ⟨model, -, h⟩ := bind_ok h
  obtain ⟨_, -, h⟩ := bind_ok h
  obtain ⟨_, hparents, h⟩ := bind_ok h
  obtain ⟨_, -, h⟩ := bind_ok h
  rw [← Except.ok.inj h]
  have hof := checkArtifacts_ok hitems
  have hreleases := single_ok (orThrow_ok.mp hrelease)
  have hknown := require_ok.mp hparents
  refine ⟨items, rfl, hof, fun checked hchecked => ?_⟩
  obtain ⟨raw, -, hraw⟩ := hof checked hchecked
  refine ⟨⟨checked.artifactId, List.mem_map_of_mem hchecked, ?_⟩, ?_, ?_, ?_⟩
  · rw [hraw.fields]
    exact hraw.artifactId
  · have hmem := List.mem_dedup.mpr (List.mem_map_of_mem (f := Checked.dataReleaseId) hchecked)
    rw [hreleases] at hmem
    rw [hraw.fields, hraw.dataReleaseId, List.mem_singleton.mp hmem]
  · rw [hraw.fields, hraw.universeReleaseId]
    exact oneOptionalBinding_ok huniverse _ (List.mem_map_of_mem hchecked)
  · intro parent hparent
    by_contra hunknown
    have hmem : parent ∈ (items.flatMap (fun item => item.artifact.parents)).filter
        (· ∉ items.map Checked.artifactId) :=
      List.mem_filter.mpr ⟨List.mem_flatMap.mpr ⟨checked, hchecked, hparent⟩, by simpa using hunknown⟩
    rw [hknown] at hmem
    cases hmem

end Bundles

/-! ## The preflight -/

section Preflight

variable {db : Db} {artifacts : List Artifact} {items : List RegistryItem}

/-- What the preflight finds of the graph. -/
structure GraphChecked (artifacts : List Artifact) (items : List RegistryItem) : Prop where
  same : items.map RegistryItem.artifact = artifacts
  ids : (artifacts.map Artifact.id).Nodup
  truthy : ∀ artifact ∈ artifacts, rawText (artifact.fields.get "artifactId") ≠ ""
  acyclic : Acyclic (fun parent id => ∃ artifact ∈ artifacts, artifact.id = id ∧
    parent ∈ artifact.parents ∧ parent ∈ artifacts.map Artifact.id)

theorem assertAcyclic_ok {u : Unit} (h : assertAcyclic artifacts = .ok u)
    (hids : (artifacts.map Artifact.id).Nodup) :
    Acyclic (fun parent id => ∃ artifact ∈ artifacts, artifact.id = id ∧
      parent ∈ artifact.parents ∧ parent ∈ artifacts.map Artifact.id) := by
  unfold assertAcyclic at h
  cases hcheck : checkAcyclic (artifacts.map (fun artifact => (artifact.id, artifact.parents))) with
  | error e =>
    rw [hcheck] at h
    cases e <;> cases h
  | ok visited =>
    have hacyclic := acyclic_of_check hcheck
    have hnodes : nodes (artifacts.map (fun artifact => (artifact.id, artifact.parents))) =
        artifacts.map Artifact.id := by
      unfold nodes
      rw [List.map_map]
      rfl
    refine hacyclic.mono (fun parent id hedge => ?_)
    obtain ⟨artifact, hmem, rfl, hparent, hknown⟩ := hedge
    have hentry : (artifact.id, artifact.parents) ∈
        artifacts.map (fun artifact => (artifact.id, artifact.parents)) :=
      List.mem_map_of_mem (f := fun artifact => (artifact.id, artifact.parents)) hmem
    have hlookup := lookup_of_nodup (by rw [← nodes, hnodes]; exact hids) hentry
    unfold parentsIn
    rw [hlookup, hnodes]
    exact ⟨List.mem_map_of_mem hmem, List.mem_filter.mpr ⟨hparent, by simpa using hknown⟩⟩

theorem preflightItem_ok {artifact : Artifact} {item : RegistryItem}
    (h : preflightItem artifact = .ok item) : item.artifact = artifact := by
  unfold preflightItem at h
  obtain ⟨kind, -, h⟩ := bind_ok h
  obtain ⟨status, -, h⟩ := bind_ok h
  obtain ⟨_, -, h⟩ := bind_ok h
  obtain ⟨_, -, h⟩ := bind_ok h
  obtain ⟨_, -, h⟩ := bind_ok h
  rw [← Except.ok.inj h]

theorem preflightGraph_ok (h : preflightGraph artifacts = .ok items) :
    GraphChecked artifacts items := by
  unfold preflightGraph at h
  obtain ⟨_, -, h⟩ := bind_ok h
  obtain ⟨_, htruthy, h⟩ := bind_ok h
  obtain ⟨_, hids, h⟩ := bind_ok h
  obtain ⟨checked, hitems, h⟩ := bind_ok h
  obtain ⟨_, -, h⟩ := bind_ok h
  obtain ⟨_, -, h⟩ := bind_ok h
  obtain ⟨_, -, h⟩ := bind_ok h
  obtain ⟨_, hacyclic, h⟩ := bind_ok h
  obtain rfl := Except.ok.inj h
  have hnodup := require_ok.mp hids
  have hsame := map_of_mapM_ok (fun _ _ hitem => preflightItem_ok hitem) hitems
  exact ⟨hsame.trans (List.map_id _), hnodup, require_ok.mp htruthy,
    assertAcyclic_ok hacyclic hnodup⟩

/-- An item that may be registered: its parents are known, and what is registered under its
identifier is the same artifact with the same parents. -/
structure Fits (db : Db) (ids : List String) (item : RegistryItem) : Prop where
  parents : ∀ parent ∈ item.artifact.parents, parent ∈ ids ∨ (db.artifact parent).isSome
  identity : ∀ row ∈ db.artifact item.artifact.id, row.identity = item.identity
  sameParents : (db.artifact item.artifact.id).isSome → ∀ parent,
    (parent, item.artifact.id) ∈ db.edges ↔ parent ∈ item.artifact.parents

theorem mem_parentsOf {parent child : String} :
    parent ∈ db.parentsOf child ↔ (parent, child) ∈ db.edges := by
  unfold Db.parentsOf
  constructor
  · intro h
    obtain ⟨edge, hedge, rfl⟩ := List.mem_map.mp h
    obtain ⟨hmem, hchild⟩ := List.mem_filter.mp hedge
    have hsame : edge.2 = child := by simpa using hchild
    rw [← hsame]
    exact hmem
  · intro h
    exact List.mem_map.mpr ⟨(parent, child), List.mem_filter.mpr ⟨h, by simp⟩, rfl⟩

theorem preflightAgainst_iff {ids : List String} {item : RegistryItem} {u : Unit} :
    preflightAgainst db ids item = .ok u ↔ Fits db ids item := by
  have hparents : item.artifact.parents.find? (fun parent =>
      decide (parent ∉ ids) && (db.artifact parent).isNone) = none ↔
      ∀ parent ∈ item.artifact.parents, parent ∈ ids ∨ (db.artifact parent).isSome := by
    rw [List.find?_eq_none]
    refine forall₂_congr (fun parent _ => ?_)
    cases db.artifact parent <;> simp
  unfold preflightAgainst
  by_cases hknown : ∀ parent ∈ item.artifact.parents, parent ∈ ids ∨ (db.artifact parent).isSome
  · have hnone := hparents.mpr hknown
    have hfirst : require (item.artifact.parents.find? (fun parent =>
        decide (parent ∉ ids) && (db.artifact parent).isNone) = none)
        ("Artifact parent does not exist: " ++ (item.artifact.parents.find? (fun parent =>
          decide (parent ∉ ids) && (db.artifact parent).isNone)).getD "") = .ok () :=
      require_ok.mpr hnone
    dsimp only
    rw [hfirst]
    cases hrow : db.artifact item.artifact.id with
    | none =>
      refine ⟨fun _ => ⟨hknown, by simp [hrow], by simp [hrow]⟩, fun _ => rfl⟩
    | some existing =>
      constructor
      · intro h
        obtain ⟨_, -, h⟩ := bind_ok h
        obtain ⟨_, hidentity, h⟩ := bind_ok h
        have hsame := require_ok.mp h
        refine ⟨hknown, ?_, fun _ parent => ?_⟩
        · intro row hrow'
          rw [hrow] at hrow'
          rw [← Option.some.inj hrow']
          exact require_ok.mp hidentity
        · rw [← mem_parentsOf]
          exact ⟨fun hmem => hsame.1 hmem, fun hmem => hsame.2 hmem⟩
      · intro h
        have hidentity : require (existing.identity = item.identity)
            ("Artifact ID already exists with different content or lineage: " ++
              item.artifact.id) = .ok () := require_ok.mpr (h.identity existing hrow)
        have hsame : db.parentsOf item.artifact.id ⊆ item.artifact.parents ∧
            item.artifact.parents ⊆ db.parentsOf item.artifact.id := by
          have hiff := h.sameParents (by simp [hrow])
          exact ⟨fun parent hmem => (hiff parent).mp (mem_parentsOf.mp hmem),
            fun parent hmem => mem_parentsOf.mpr ((hiff parent).mpr hmem)⟩
        show (require _ _).bind _ = _
        rw [hidentity]
        exact require_ok.mpr hsame
  · constructor
    · intro h
      obtain ⟨_, hfirst, -⟩ := bind_ok h
      exact absurd (hparents.mp (require_ok.mp hfirst)) hknown
    · intro h
      exact absurd h.parents hknown

theorem exists_ok_of_mapM {α β : Type} {f : α → Except String β} {values : List α}
    {results : List β} (h : values.mapM f = .ok results) {value : α} (hvalue : value ∈ values) :
    ∃ result, f value = .ok result := by
  have hread := forall₂_of_mapM h
  clear h
  induction hread with
  | nil => cases hvalue
  | cons hfirst _ ih =>
    cases List.mem_cons.mp hvalue with
    | inl heq => exact ⟨_, heq ▸ hfirst⟩
    | inr hmem => exact ih hmem

theorem mapM_unit_ok {α : Type} {f : α → Except String Unit} {values : List α}
    (h : ∀ value ∈ values, f value = .ok ()) : ∃ units, values.mapM f = .ok units := by
  induction values with
  | nil => exact ⟨[], rfl⟩
  | cons value values ih =>
    obtain ⟨units, hunits⟩ := ih (fun other hother => h other (List.mem_cons_of_mem _ hother))
    refine ⟨() :: units, ?_⟩
    rw [List.mapM_cons, h value List.mem_cons_self, hunits]
    rfl

theorem preflightQlibArtifacts_iff :
    preflightQlibArtifacts artifacts db = .ok items ↔ preflightGraph artifacts = .ok items ∧
      ∀ item ∈ items, Fits db (artifacts.map Artifact.id) item := by
  unfold preflightQlibArtifacts
  constructor
  · intro h
    obtain ⟨checked, hgraph, h⟩ := bind_ok h
    obtain ⟨units, hunits, h⟩ := bind_ok h
    obtain rfl := Except.ok.inj h
    refine ⟨hgraph, fun item hitem => ?_⟩
    obtain ⟨u, hok⟩ := exists_ok_of_mapM hunits hitem
    exact preflightAgainst_iff.mp hok
  · intro h
    obtain ⟨units, hunits⟩ := mapM_unit_ok
      (fun item hitem => (preflightAgainst_iff (u := ())).mpr (h.2 item hitem))
    show (preflightGraph artifacts).bind _ = _
    rw [h.1]
    show (items.mapM (preflightAgainst db (artifacts.map Artifact.id))).bind _ = _
    rw [hunits]
    rfl

end Preflight

end LocalPlatform.Qlib
