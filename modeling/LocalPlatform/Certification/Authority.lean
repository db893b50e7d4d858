import LocalPlatform.Lib.Results
import LocalPlatform.Certification.Datasets

/-!
# One authority for a scope

* `Sole`: of the releases of a scope at most one is active.  Every call keeps it.
* `Current` is what a call of `certify_parquet_dataset` promises when it returns.  A release that
  was superseded or revoked before stays so, and `releases_sound_iff` says that nothing else breaks
  the promise.
* `Closed`: nothing that a gate covers is certified.  An invalidation brings this about, and only
  certifying a dataset behind the gate ends it.
-/

namespace LocalPlatform.Certification

open Tables Machines Results

/-! ## The promise -/

def Sole (db : Db) : Prop :=
  ∀ release ∈ db.releases, ∀ other ∈ db.releases, release.status = .active →
    other.status = .active → release.scope.same other.scope → release.id = other.id

/-- The primary keys of the tables. -/
structure Keyed (db : Db) : Prop where
  datasets : Unique Dataset.id db.datasets
  releases : Unique Release.id db.releases

/-- The release of the call is active, recorded on the dataset, and alone in its scope. -/
structure Current (db : Db) (call : CertifyCall) : Prop where
  recorded : (find Dataset.id db.datasets call.datasetId).map Dataset.datasetReleaseId =
    some (some call.releaseId)
  active : ∃ release, find Release.id db.releases call.releaseId = some release ∧
    release.status = .active ∧ ∀ other ∈ db.releases, other.status = .active →
      other.scope.same release.scope → other.id = call.releaseId

def Returns (db : Db) (call : CertifyCall) : Prop :=
  (certifyParquetDataset db call).toOption.isSome

instance (db : Db) (call : CertifyCall) : Decidable (Returns db call) :=
  inferInstanceAs (Decidable (_ = true))

/-- What holds along a list of calls. -/
structure ReleasesSound (db : Db) (actions : List Action) : Prop where
  sole : ∀ before after, actions = before ++ after → Sole (authority.after db before)
  certified : ∀ before call after, actions = before ++ .certify call :: after →
    Returns (authority.after db before) call →
      Current (authority.after db (before ++ [.certify call])) call
  /-- After an invalidation, until a dataset of the scope is certified. -/
  revoked : ∀ before request now during after,
    actions = before ++ .invalidate request now :: during ++ after →
      request.gate.source ∈ productionSources →
        (∀ call, .certify call ∈ during → ∀ item ∈ db.datasets, item.id = call.datasetId →
          ¬ request.gate.covers item.scope) →
          ∀ release ∈ (authority.after db (before ++ .invalidate request now :: during)).releases,
            request.gate.covers release.scope → release.status ≠ .active

/-- A call that returns does not meet its release superseded or revoked. -/
def Unretired (db : Db) : Action → Prop
  | .certify call => Returns db call → ∀ release ∈ find Release.id db.releases call.releaseId,
      release.status = .active
  | .invalidate _ _ | .read _ _ _ _ => True

instance (db : Db) (action : Action) : Decidable (Unretired db action) :=
  match action with
  | .certify call => inferInstanceAs (Decidable (Returns db call →
      ∀ release ∈ find Release.id db.releases call.releaseId, release.status = .active))
  | .invalidate _ _ | .read _ _ _ _ => .isTrue trivial

instance (db : Db) (action : Action) : Decidable (authority.allowed db action) := .isTrue trivial

/-! ## One certification -/

section Certify

variable {db db' : Db} {call : CertifyCall} {scope : Scope} {id : String} {now : ℕ}
  {release : Release}

@[simp] theorem supersede_id : (supersede scope id now release).id = release.id := by
  unfold supersede
  split <;> rfl

@[simp] theorem supersede_scope : (supersede scope id now release).scope = release.scope := by
  unfold supersede
  split <;> rfl

theorem supersede_active : (supersede scope id now release).status = .active ↔
    release.status = .active ∧ (release.scope.same scope → release.id = id) := by
  unfold supersede
  split
  · next h =>
    simp only [reduceCtorEq, false_iff, not_and]
    intro _ hid
    exact h.2.2 (hid h.2.1)
  · next h =>
    constructor
    · intro hactive
      refine ⟨hactive, fun hsame => ?_⟩
      by_contra hne
      exact h ⟨hactive, hsame, hne⟩
    · exact And.left

theorem supersede_of_id (h : release.id = id) : supersede scope id now release = release := by
  unfold supersede
  rw [if_neg (fun hall => hall.2.2 h)]

theorem find_supersede (releases : List Release) :
    find Release.id (releases.map (supersede scope id now)) id = find Release.id releases id := by
  rw [find_map releases (fun row _ => supersede_id)]
  cases hfind : find Release.id releases id with
  | none => rfl
  | some row => rw [Option.map_some, supersede_of_id (find_key hfind)]

variable {found : Option Release}

theorem certify_cases (h : certifyParquetDataset db call = .ok (db', found)) :
    ∃ item, find Dataset.id db.datasets call.datasetId = some item ∧
      db'.datasets = db.datasets.map (recordRelease call.datasetId call.releaseId) ∧
      (((find Release.id db.releases call.releaseId).isSome ∧
          db'.releases = db.releases.map (supersede item.scope call.releaseId call.at)) ∨
        (find Release.id db.releases call.releaseId = none ∧
          db'.releases = db.releases.map (supersede item.scope call.releaseId call.at) ++
            [newRelease item call])) := by
  unfold certifyParquetDataset at h
  cases hitem : find Dataset.id db.datasets call.datasetId with
  | none =>
    rw [hitem] at h
    cases h
  | some item =>
    rw [hitem] at h
    dsimp only at h
    cases hinsert : insertRelease (db.releases.map (supersede item.scope call.releaseId call.at))
        (newRelease item call) with
    | none =>
      rw [hinsert] at h
      cases h
    | some releases =>
      rw [hinsert] at h
      obtain ⟨rfl, _⟩ := Prod.mk.inj (Except.ok.inj h)
      refine ⟨item, rfl, rfl, ?_⟩
      unfold insertRelease at hinsert
      have hfind : find Release.id
          (db.releases.map (supersede item.scope call.releaseId call.at)) call.releaseId =
            find Release.id db.releases call.releaseId := find_supersede db.releases
      have hid : (newRelease item call).id = call.releaseId := rfl
      rw [hid, hfind] at hinsert
      split at hinsert
      · next hsome => exact Or.inl ⟨hsome, (Option.some.inj hinsert).symm⟩
      · next hnone =>
        split at hinsert
        · cases hinsert
        · exact Or.inr ⟨by simpa using hnone, (Option.some.inj hinsert).symm⟩

theorem Sole.supersede (h : Sole db) (datasets : List Dataset) :
    Sole { datasets := datasets, releases := db.releases.map (supersede scope id now) } := by
  intro first hfirst second hsecond hactive hactive' hsame
  obtain ⟨old, hold, rfl⟩ := List.mem_map.mp hfirst
  obtain ⟨old', hold', rfl⟩ := List.mem_map.mp hsecond
  rw [supersede_scope, supersede_scope] at hsame
  rw [supersede_id, supersede_id]
  exact h old hold old' hold' (supersede_active.mp hactive).1 (supersede_active.mp hactive').1 hsame

theorem Scope.same_symm {first second : Scope} (h : first.same second) : second.same first :=
  Eq.symm h

theorem id_of_superseded {other : Release} (hmem : other ∈ db.releases.map (supersede scope id now))
    (hactive : other.status = .active) (hsame : other.scope.same scope) : other.id = id := by
  obtain ⟨old, _, rfl⟩ := List.mem_map.mp hmem
  rw [supersede_scope] at hsame
  rw [supersede_id]
  exact (supersede_active.mp hactive).2 hsame

theorem Sole.certify (h : Sole db) (hcall : certifyParquetDataset db call = .ok (db', found)) :
    Sole db' := by
  obtain ⟨item, _, hdatasets, ⟨_, hreleases⟩ | ⟨_, hreleases⟩⟩ := certify_cases hcall
  · have hsole : Sole ⟨db'.datasets, db.releases.map
        (Certification.supersede item.scope call.releaseId call.at)⟩ := h.supersede db'.datasets
    rw [← hreleases] at hsole
    exact hsole
  · have hold : Sole ⟨db.datasets, db.releases.map
        (Certification.supersede item.scope call.releaseId call.at)⟩ := h.supersede db.datasets
    intro first hfirst second hsecond hactive hactive' hsame
    rw [hreleases] at hfirst hsecond
    rcases List.mem_append.mp hfirst with hfirst | hfirst
    · rcases List.mem_append.mp hsecond with hsecond | hsecond
      · exact hold first hfirst second hsecond hactive hactive' hsame
      · rw [List.mem_singleton.mp hsecond] at hsame ⊢
        exact id_of_superseded hfirst hactive hsame
    · rw [List.mem_singleton.mp hfirst] at hsame ⊢
      rcases List.mem_append.mp hsecond with hsecond | hsecond
      · exact (id_of_superseded hsecond hactive' (Scope.same_symm hsame)).symm
      · rw [List.mem_singleton.mp hsecond]

@[simp] theorem recordRelease_id {datasetId : String} {item : Dataset} :
    (recordRelease datasetId id item).id = item.id := by
  unfold recordRelease
  split <;> rfl

@[simp] theorem recordRelease_scope {datasetId : String} {item : Dataset} :
    (recordRelease datasetId id item).scope = item.scope := by
  unfold recordRelease
  split <;> rfl

theorem Keyed.certify (h : Keyed db) (hcall : certifyParquetDataset db call = .ok (db', found)) :
    Keyed db' := by
  obtain ⟨item, _, hdatasets, hreleases⟩ := certify_cases hcall
  constructor
  · rw [hdatasets]
    exact h.datasets.map (fun _ _ => recordRelease_id)
  · have hsuperseded : Unique Release.id
        (db.releases.map (supersede item.scope call.releaseId call.at)) :=
      h.releases.map (fun _ _ => supersede_id)
    rcases hreleases with ⟨_, hreleases⟩ | ⟨hnone, hreleases⟩
    · rw [hreleases]
      exact hsuperseded
    · rw [hreleases]
      apply hsuperseded.append_singleton
      show find Release.id _ call.releaseId = none
      rw [find_supersede]
      exact hnone

theorem certify_current_iff (hsole : Sole db)
    (hcall : certifyParquetDataset db call = .ok (db', found)) :
    Current db' call ↔
      ∀ release ∈ find Release.id db.releases call.releaseId, release.status = .active := by
  have hsole' := hsole.certify hcall
  obtain ⟨item, hitem, hdatasets, hreleases⟩ := certify_cases hcall
  have hrecorded : (find Dataset.id db'.datasets call.datasetId).map Dataset.datasetReleaseId =
      some (some call.releaseId) := by
    rw [hdatasets, find_map _ (fun _ _ => recordRelease_id), hitem]
    simp [recordRelease, find_key hitem]
  -- The release that is found after the call.
  have hfound : ∀ release, find Release.id db'.releases call.releaseId = some release →
      release.status = .active → Current db' call := by
    intro release hfind hactive
    refine ⟨hrecorded, release, hfind, hactive, ?_⟩
    intro other hother hother' hsame
    rw [hsole' other hother release (mem_of_find hfind) hother' hactive hsame]
    exact find_key hfind
  rcases hreleases with ⟨hsome, hreleases⟩ | ⟨hnone, hreleases⟩
  · have hfind : find Release.id db'.releases call.releaseId =
        find Release.id db.releases call.releaseId := by
      rw [hreleases]
      exact find_supersede db.releases
    constructor
    · intro hcurrent release hrelease
      obtain ⟨row, hrow, hactive, _⟩ := hcurrent.active
      rw [hfind, Option.mem_def.mp hrelease] at hrow
      rw [Option.some.inj hrow]
      exact hactive
    · intro hactive
      obtain ⟨release, hrelease⟩ := Option.isSome_iff_exists.mp hsome
      exact hfound release (hfind.trans hrelease) (hactive release hrelease)
  · constructor
    · intro _ release hrelease
      rw [hnone] at hrelease
      exact absurd hrelease (Option.not_mem_none release)
    · intro _
      apply hfound (newRelease item call) _ rfl
      have hfind : find Release.id
          (db.releases.map (supersede item.scope call.releaseId call.at)) call.releaseId =
            none := by
        rw [find_supersede]
        exact hnone
      have happend : find Release.id
          (db.releases.map (supersede item.scope call.releaseId call.at) ++ [newRelease item call])
          call.releaseId = if call.releaseId = (newRelease item call).id then
            some (newRelease item call) else find Release.id
              (db.releases.map (supersede item.scope call.releaseId call.at)) call.releaseId :=
        find_append_singleton hfind call.releaseId
      rw [hreleases, happend]
      exact if_pos rfl

end Certify

/-! ## Invalidations and reads -/

section Gates

variable {db db' : Db} {gate : Gate} {now : ℕ}

@[simp] theorem revoke_id {release : Release} : (revoke gate now release).id = release.id := by
  unfold revoke
  split <;> rfl

@[simp] theorem revoke_scope {release : Release} :
    (revoke gate now release).scope = release.scope := by
  unfold revoke
  split <;> rfl

theorem revoke_active {release : Release} : (revoke gate now release).status = .active ↔
    release.status = .active ∧ ¬ gate.covers release.scope := by
  unfold revoke
  split
  · next h => simp [h.2]
  · next h =>
    constructor
    · intro hactive
      exact ⟨hactive, fun hcovers => h ⟨hactive, hcovers⟩⟩
    · exact And.left

variable {item : Dataset}

@[simp] theorem invalidateDataset_id : (invalidateDataset gate item).id = item.id := by
  unfold invalidateDataset
  split <;> rfl

@[simp] theorem invalidateDataset_scope : (invalidateDataset gate item).scope = item.scope := by
  unfold invalidateDataset
  split <;> rfl

theorem invalidateDataset_certified (h : (invalidateDataset gate item).isCertified) :
    item.isCertified ∧ ¬ gate.covers item.scope := by
  unfold invalidateDataset at h
  split at h
  · cases h
  · next hneither => exact ⟨h, fun hcovers => hneither ⟨hcovers, Or.inr h⟩⟩

theorem Sole.invalidate (h : Sole db) (request : Request) :
    Sole (invalidateSourceCertification db request now) := by
  unfold invalidateSourceCertification
  split
  · intro first hfirst second hsecond hactive hactive' hsame
    obtain ⟨old, hold, rfl⟩ := List.mem_map.mp hfirst
    obtain ⟨old', hold', rfl⟩ := List.mem_map.mp hsecond
    rw [revoke_scope, revoke_scope] at hsame
    rw [revoke_id, revoke_id]
    exact h old hold old' hold' (revoke_active.mp hactive).1 (revoke_active.mp hactive').1 hsame
  · exact h

theorem Keyed.invalidate (h : Keyed db) (request : Request) :
    Keyed (invalidateSourceCertification db request now) := by
  unfold invalidateSourceCertification
  split
  · exact ⟨h.datasets.map (fun _ _ => invalidateDataset_id),
      h.releases.map (fun _ _ => revoke_id)⟩
  · exact h

theorem datasetFor_mem (h : datasetFor db gate = some item) :
    item ∈ db.datasets ∧ gate.covers item.scope := by
  have hfirst := List.mem_of_head? h
  rw [mem_orderBy, List.mem_filter] at hfirst
  exact ⟨hfirst.1, of_decide_eq_true hfirst.2⟩

theorem certified_of_valid {source : String} (h : certificationValid source item) :
    item.isCertified := by
  unfold certificationValid at h
  exact (of_decide_eq_true h).2.1

theorem read_cases {config : Config} {lake : Bool} {request : Request}
    {report : CertificationReport}
    (h : sourceCertification config lake db request now = .ok (db', report)) :
    db' = db ∨ ∃ item ∈ db.datasets, item.isCertified ∧ ∃ call found,
      call.datasetId = item.id ∧ certifyParquetDataset db call = .ok (db', found) := by
  unfold sourceCertification at h
  split at h
  · exact Or.inl (Prod.mk.inj (Except.ok.inj h)).1.symm
  · cases hitem : datasetFor db request.gate with
    | none =>
      rw [hitem] at h
      exact Or.inl (Prod.mk.inj (Except.ok.inj h)).1.symm
    | some item =>
      rw [hitem] at h
      dsimp only at h
      have hmem := (datasetFor_mem hitem).1
      split at h
      · next hvalid =>
        split at h
        · exact Or.inl (Prod.mk.inj (Except.ok.inj h)).1.symm
        · obtain ⟨ensured, hensured, heq⟩ := map_ok h
          have hdb : ensured.1 = db' := (Prod.mk.inj heq).1
          unfold ensureReleaseForCertifiedDataset at hensured
          split at hensured
          · rw [← Except.ok.inj hensured] at hdb
            exact Or.inl hdb.symm
          · split at hensured
            · rw [← Except.ok.inj hensured] at hdb
              exact Or.inl hdb.symm
            · have hcertified := certified_of_valid hvalid
              rw [← hdb]
              exact Or.inr ⟨item, hmem, hcertified, _, ensured.2, by rfl, hensured⟩
      · exact Or.inl (Prod.mk.inj (Except.ok.inj h)).1.symm

/-- Nothing behind the gate is certified. -/
structure Closed (gate : Gate) (db : Db) : Prop where
  datasets : ∀ item ∈ db.datasets, gate.covers item.scope → item.isCertified = false
  releases : ∀ release ∈ db.releases, gate.covers release.scope → release.status ≠ .active

theorem closed_invalidate {request : Request} (h : request.gate.source ∈ productionSources) :
    Closed request.gate (invalidateSourceCertification db request now) := by
  unfold invalidateSourceCertification
  rw [if_pos h]
  constructor
  · intro item hitem hcovers
    obtain ⟨old, _, rfl⟩ := List.mem_map.mp hitem
    rw [← Bool.not_eq_true]
    intro hcertified
    rw [invalidateDataset_scope] at hcovers
    exact (invalidateDataset_certified hcertified).2 hcovers
  · intro release hrelease hcovers hactive
    obtain ⟨old, _, rfl⟩ := List.mem_map.mp hrelease
    rw [revoke_scope] at hcovers
    exact (revoke_active.mp hactive).2 hcovers

theorem Closed.certify (h : Closed gate db) {call : CertifyCall} {found : Option Release}
    (hcall : certifyParquetDataset db call = .ok (db', found))
    (hscope : ∀ item ∈ db.datasets, item.id = call.datasetId → ¬ gate.covers item.scope) :
    Closed gate db' := by
  obtain ⟨item, hitem, hdatasets, hreleases⟩ := certify_cases hcall
  constructor
  · rw [hdatasets]
    intro row hrow hcovers
    obtain ⟨old, hold, rfl⟩ := List.mem_map.mp hrow
    rw [recordRelease_scope] at hcovers
    have hcertified := h.datasets old hold hcovers
    unfold recordRelease
    split <;> exact hcertified
  · have hsuperseded : ∀ release ∈ db.releases.map (supersede item.scope call.releaseId call.at),
        gate.covers release.scope → release.status ≠ .active := by
      intro release hrelease hcovers hactive
      obtain ⟨old, hold, rfl⟩ := List.mem_map.mp hrelease
      rw [supersede_scope] at hcovers
      exact h.releases old hold hcovers (supersede_active.mp hactive).1
    rcases hreleases with ⟨_, hreleases⟩ | ⟨_, hreleases⟩
    · rw [hreleases]
      exact hsuperseded
    · rw [hreleases]
      intro release hrelease hcovers
      rcases List.mem_append.mp hrelease with hold | hnew
      · exact hsuperseded release hold hcovers
      · rw [List.mem_singleton.mp hnew] at hcovers
        exact absurd hcovers (hscope item (mem_of_find hitem) (find_key hitem))

theorem Closed.invalidate (h : Closed gate db) (request : Request) :
    Closed gate (invalidateSourceCertification db request now) := by
  unfold invalidateSourceCertification
  split
  · constructor
    · intro item hitem hcovers
      obtain ⟨old, hold, rfl⟩ := List.mem_map.mp hitem
      rw [invalidateDataset_scope] at hcovers
      rw [← Bool.not_eq_true]
      intro hcertified
      have hold' := (invalidateDataset_certified hcertified).1
      rw [h.datasets old hold hcovers] at hold'
      cases hold'
    · intro release hrelease hcovers hactive
      obtain ⟨old, hold, rfl⟩ := List.mem_map.mp hrelease
      rw [revoke_scope] at hcovers
      exact h.releases old hold hcovers (revoke_active.mp hactive).1
  · exact h

end Gates

/-! ## Runs -/

section Runs

variable {db db' : Db} {gate : Gate} {action : Action}

@[simp] theorem authority_next (db : Db) (action : Action) :
    authority.next db action = db.next action := by
  unfold authority
  rfl

theorem next_invalidate (db : Db) (request : Request) (now : ℕ) :
    db.next (.invalidate request now) = invalidateSourceCertification db request now := by
  simp only [Db.next]

theorem next_cases (db : Db) (action : Action) :
    db.next action = db ∨
      (∃ request now, action = .invalidate request now ∧
        db.next action = invalidateSourceCertification db request now) ∨
      ∃ call found, certifyParquetDataset db call = .ok (db.next action, found) ∧
        (action = .certify call ∨
          ∃ item ∈ db.datasets, item.isCertified ∧ call.datasetId = item.id) := by
  cases action with
  | certify call =>
    unfold Db.next
    dsimp only
    cases hcall : certifyParquetDataset db call with
    | error error => exact Or.inl rfl
    | ok result => exact Or.inr (Or.inr ⟨call, result.2, hcall, Or.inl rfl⟩)
  | invalidate request now =>
    exact Or.inr (Or.inl ⟨request, now, rfl, next_invalidate db request now⟩)
  | read config lake request now =>
    unfold Db.next
    dsimp only
    cases hread : sourceCertification config lake db request now with
    | error error => exact Or.inl rfl
    | ok result =>
      obtain ⟨after, report⟩ := result
      rcases read_cases hread with hsame | hcertified
      · exact Or.inl hsame
      · obtain ⟨item, hitem, hvalid, call, found, hid, hcall⟩ := hcertified
        exact Or.inr (Or.inr ⟨call, found, hcall, Or.inr ⟨item, hitem, hvalid, hid⟩⟩)

theorem after_induction {Inv : Db → Prop} (hstep : ∀ db action, Inv db → Inv (db.next action))
    (actions : List Action) (db : Db) (h : Inv db) : Inv (authority.after db actions) :=
  Machine.invariant (fun db action h _ => hstep db action h) actions db h
    ((Machine.accepts_iff actions db).mpr fun _ _ _ _ => trivial)

theorem Sole.next (h : Sole db) (action : Action) : Sole (db.next action) := by
  rcases next_cases db action with hsame | ⟨request, now, _, hnext⟩ | ⟨call, found, hcall, _⟩
  · rw [hsame]
    exact h
  · rw [hnext]
    exact h.invalidate request
  · exact h.certify hcall

theorem Keyed.next (h : Keyed db) (action : Action) : Keyed (db.next action) := by
  rcases next_cases db action with hsame | ⟨request, now, _, hnext⟩ | ⟨call, found, hcall, _⟩
  · rw [hsame]
    exact h
  · rw [hnext]
    exact h.invalidate request
  · exact h.certify hcall

def SameScopes (db db' : Db) : Prop :=
  ∀ item ∈ db'.datasets, ∃ old ∈ db.datasets, old.id = item.id ∧ old.scope = item.scope

theorem SameScopes.next (h : SameScopes db db') (action : Action) :
    SameScopes db (db'.next action) := by
  rcases next_cases db' action with hsame | ⟨request, now, _, hnext⟩ | ⟨call, found, hcall, _⟩
  · rw [hsame]
    exact h
  · rw [hnext]
    unfold invalidateSourceCertification
    split
    · intro item hitem
      obtain ⟨old, hold, rfl⟩ := List.mem_map.mp hitem
      rw [invalidateDataset_id, invalidateDataset_scope]
      exact h old hold
    · exact h
  · obtain ⟨item, _, hdatasets, _⟩ := certify_cases hcall
    intro row hrow
    rw [hdatasets] at hrow
    obtain ⟨old, hold, rfl⟩ := List.mem_map.mp hrow
    rw [recordRelease_id, recordRelease_scope]
    exact h old hold

theorem Closed.next (h : Closed gate db) (hkeyed : Keyed db)
    (hscope : ∀ call, action = .certify call → ∀ item ∈ db.datasets, item.id = call.datasetId →
      ¬ gate.covers item.scope) : Closed gate (db.next action) := by
  rcases next_cases db action with hsame | ⟨request, now, _, hnext⟩ | ⟨call, found, hcall, hwhy⟩
  · rw [hsame]
    exact h
  · rw [hnext]
    exact h.invalidate request
  · apply h.certify hcall
    rcases hwhy with haction | ⟨item, hitem, hcertified, hid⟩
    · exact hscope call haction
    · intro other hother hother' hcovers
      have hsame := Unique.eq hkeyed.datasets hother hitem (hother'.trans hid)
      rw [hsame] at hcovers
      rw [h.datasets item hitem hcovers] at hcertified
      cases hcertified

theorem Sole.after (h : Sole db) (actions : List Action) : Sole (authority.after db actions) :=
  after_induction (fun _ action hsole => hsole.next action) actions db h

theorem Keyed.after (h : Keyed db) (actions : List Action) : Keyed (authority.after db actions) :=
  after_induction (fun _ action hkeyed => hkeyed.next action) actions db h

theorem SameScopes.refl (db : Db) : SameScopes db db := by
  intro item hitem
  exact ⟨item, hitem, rfl, rfl⟩

theorem sameScopes_after (db : Db) (actions : List Action) :
    SameScopes db (authority.after db actions) := by
  have hstep : ∀ db' action, SameScopes db db' → SameScopes db (Db.next db' action) :=
    fun _ action hsame => hsame.next action
  exact after_induction hstep actions db (SameScopes.refl db)

theorem Closed.after (actions : List Action) : ∀ {db : Db}, Closed gate db → Keyed db →
    (∀ call, .certify call ∈ actions → ∀ item ∈ db.datasets, item.id = call.datasetId →
      ¬ gate.covers item.scope) → Closed gate (authority.after db actions) := by
  induction actions with
  | nil => exact fun h _ _ => h
  | cons action actions ih =>
    intro db h hkeyed hscope
    rw [Machine.after_cons, authority_next]
    apply ih (h.next hkeyed _) (hkeyed.next action)
    · intro call hcall item hitem hid
      obtain ⟨old, hold, hsame, hscope'⟩ := (SameScopes.refl db).next action item hitem
      rw [← hscope']
      exact hscope call (List.mem_cons_of_mem action hcall) old hold (hsame.trans hid)
    · intro call hcall
      exact hscope call (hcall ▸ List.mem_cons_self)

/-- The promise is kept if and only if nothing is certified that was retired before. -/
theorem releases_sound_iff (db : Db) (hkeyed : Keyed db) (hsole : Sole db) (actions : List Action) :
    ReleasesSound db actions ↔ (authority.restrict Unretired).Accepts db actions := by
  have hcurrent : ∀ before call, Returns (authority.after db before) call →
      (Current (authority.after db (before ++ [.certify call])) call ↔
        ∀ release ∈ find Release.id (authority.after db before).releases call.releaseId,
          release.status = .active) := by
    intro before call hreturns
    unfold Returns at hreturns
    cases hcall : certifyParquetDataset (authority.after db before) call with
    | error error =>
      rw [hcall] at hreturns
      cases hreturns
    | ok result =>
      have hnext : authority.after db (before ++ [.certify call]) = result.1 := by
        rw [Machine.after_append, Machine.after_cons, Machine.after_nil, authority_next]
        simp only [Db.next, hcall]
      rw [hnext]
      exact certify_current_iff (hsole.after before) hcall
  rw [Machine.accepts_iff]
  constructor
  · intro h before action after hactions
    refine ⟨trivial, ?_⟩
    cases action with
    | certify call =>
      intro hreturns
      exact (hcurrent before call hreturns).mp (h.certified before call after hactions hreturns)
    | invalidate request now => trivial
    | read config lake request now => trivial
  · intro h
    refine ⟨fun before after _ => hsole.after before, ?_, ?_⟩
    · intro before call after hactions hreturns
      exact (hcurrent before call hreturns).mpr ((h before _ after hactions).2 hreturns)
    · intro before request now during after _ hproduction hscope
      have hclosed : Closed request.gate (authority.after
          ((authority.after db before).next (.invalidate request now)) during) := by
        apply Closed.after during _ ((hkeyed.after before).next (.invalidate request now))
        · intro call hcall item hitem hid
          obtain ⟨old, hold, hsame, hscope'⟩ :=
            (sameScopes_after db before).next (.invalidate request now) item hitem
          rw [← hscope']
          exact hscope call hcall old hold (hsame.trans hid)
        · rw [next_invalidate]
          exact closed_invalidate hproduction
      rw [Machine.after_append, Machine.after_cons, authority_next]
      exact hclosed.releases

/-- In every run, also where a retired release is certified again, a scope has at most one active
release, and an invalidation closes its gate until a dataset behind it is certified. -/
theorem authority_kept {db : Db} (hkeyed : Keyed db) (hsole : Sole db) {request : Request}
    (hproduction : request.gate.source ∈ productionSources) (before : List Action) (now : ℕ)
    (during : List Action) (hscope : ∀ call, .certify call ∈ during → ∀ item ∈ db.datasets,
      item.id = call.datasetId → ¬ request.gate.covers item.scope) :
    Sole (authority.after db (before ++ .invalidate request now :: during)) ∧
      Closed request.gate (authority.after db (before ++ .invalidate request now :: during)) := by
  refine ⟨hsole.after _, ?_⟩
  rw [Machine.after_append, Machine.after_cons, authority_next]
  apply Closed.after during _ ((hkeyed.after before).next (.invalidate request now))
  · intro call hcall item hitem hid
    obtain ⟨old, hold, hsame, hold'⟩ :=
      (sameScopes_after db before).next (.invalidate request now) item hitem
    rw [← hold']
    exact hscope call hcall old hold (hsame.trans hid)
  · rw [next_invalidate]
    exact closed_invalidate hproduction

end Runs

/-! ## A release that is certified again -/

def sampleScope : Scope where
  source := "tushare"
  assetClass := "equity"
  market := "china"
  venue := some "china"
  resolution := "daily"
  dataType := "trade"
  adjust := "raw"

def sampleDataset : Dataset where
  id := "parquet-p1"
  datasetKey := "daily-p1"
  scope := sampleScope
  datasetVersion := some "tushare-parquet-p1-1f3a"
  fileManifestSha256 := some "1f3a"
  environment := some "production"
  isProduction := true
  isCertified := true
  certifiedAt := some 1
  qaStatus := some "ok"
  qaReportId := some "qa-p1"
  updatedAt := 1
  datasetReleaseId := none

def sampleDb : Db := ⟨[sampleDataset], []⟩

def sampleCall (version manifest : String) (now : ℕ) : CertifyCall :=
  ⟨"parquet-p1", version, manifest, "qa-p1", none, now⟩

def sampleRequest : Request := ⟨some "tushare", "equity", "china", some "china"⟩

theorem sampleDb_keyed : Keyed sampleDb := ⟨by decide, by decide⟩

theorem sampleDb_sole : Sole sampleDb := by
  intro release hrelease
  exact absurd hrelease List.not_mem_nil

/-- After an invalidation the changed files are certified. -/
def renewedRun : List Action :=
  [.certify (sampleCall "v1" "1f3a" 2), .invalidate sampleRequest 3,
    .certify (sampleCall "v2" "77c0" 4), .certify (sampleCall "v2" "77c0" 5)]

theorem renewedRun_sound : ReleasesSound sampleDb renewedRun :=
  (releases_sound_iff sampleDb sampleDb_keyed sampleDb_sole renewedRun).mpr (by decide +kernel)

/-- After an invalidation the same files are certified again. -/
def revokedRun : List Action :=
  [.certify (sampleCall "v1" "1f3a" 2), .invalidate sampleRequest 3,
    .certify (sampleCall "v1" "1f3a" 4)]

theorem revokedRun_unsound :
    Keyed sampleDb ∧ Sole sampleDb ∧ ¬ ReleasesSound sampleDb revokedRun := by
  refine ⟨sampleDb_keyed, sampleDb_sole, fun h => ?_⟩
  have hcurrent := h.certified [.certify (sampleCall "v1" "1f3a" 2), .invalidate sampleRequest 3]
    (sampleCall "v1" "1f3a" 4) [] rfl (by decide +kernel)
  obtain ⟨release, hfind, hactive, _⟩ := hcurrent.active
  have hrevoked : (find Release.id (authority.after sampleDb revokedRun).releases
      (sampleCall "v1" "1f3a" 4).releaseId).map Release.status = some .revoked := by
    decide +kernel
  have hstatus := congrArg (Option.map Release.status) hfind
  rw [Option.map_some, hactive] at hstatus
  have hboth := hrevoked.symm.trans hstatus
  cases hboth

/-- A dataset that no call on the equities covers. -/
def indexDataset : Dataset :=
  { sampleDataset with
    id := "parquet-i1"
    datasetKey := "daily-i1"
    scope := { sampleScope with assetClass := "index" } }

theorem authority_kept_sample :
    let during := [.certify { sampleCall "v2" "77c0" 4 with datasetId := "parquet-i1" },
      .read ⟨true, true⟩ true sampleRequest 5]
    let db := authority.after ⟨[sampleDataset, indexDataset], []⟩
      ([.certify (sampleCall "v1" "1f3a" 2)] ++ .invalidate sampleRequest 3 :: during)
    Sole db ∧ Closed sampleRequest.gate db :=
  @authority_kept ⟨[sampleDataset, indexDataset], []⟩ ⟨by decide, by decide⟩
    (fun _ hrelease => absurd hrelease List.not_mem_nil) sampleRequest (by decide)
    [.certify (sampleCall "v1" "1f3a" 2)] 3 _ (by
      intro call hcall
      simp only [List.mem_cons, Action.certify.injEq, reduceCtorEq, List.not_mem_nil,
        or_false] at hcall
      subst hcall
      decide)

end LocalPlatform.Certification
