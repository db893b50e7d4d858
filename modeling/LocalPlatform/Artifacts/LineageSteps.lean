import LocalPlatform.Artifacts.Registration

/-!
# What a call does to the lineage

* `Sound.importRun` and `Frozen.importRun`: an import of a clean bundle.
* `Sound.recordLeanValidation` and `Frozen.recordLeanValidation`: a validation adds one edge, from
  its target to its evidence.
* `importRun_raised`: an import that raises has changed nothing.
-/

namespace LocalPlatform.Qlib

open Paper Tables Results Dags

variable {env : Environment} {db middle next : Db}

/-! ## States that agree -/

theorem Frozen.refl (db : Db) : Frozen db db :=
  ⟨fun _ row hrow => ⟨row, hrow, rfl⟩, fun _ _ _ => Iff.rfl, fun _ _ h => h, fun _ _ h => h,
    fun _ hrun => ⟨hrun, rfl⟩, rfl⟩

theorem Frozen.trans (h : Frozen db middle) (h' : Frozen middle next) : Frozen db next where
  artifact := by
    intro id row hrow
    obtain ⟨kept, hkept, hsame⟩ := h.artifact id row hrow
    obtain ⟨last, hlast, hsame'⟩ := h'.artifact id kept hkept
    exact ⟨last, hlast, hsame'.trans hsame⟩
  parents := by
    intro id hid parent
    obtain ⟨row, hrow⟩ := Option.isSome_iff_exists.mp hid
    obtain ⟨kept, hkept, -⟩ := h.artifact id row hrow
    rw [h'.parents id (by rw [hkept]; rfl), h.parents id hid]
  imports := fun id row hrow => h'.imports id row (h.imports id row hrow)
  importIds := fun id row hrow => h'.importIds id row (h.importIds id row hrow)
  runs := by
    intro run hrun
    obtain ⟨hmiddle, hsignals⟩ := h.runs run hrun
    obtain ⟨hnext, hsignals'⟩ := h'.runs run hmiddle
    exact ⟨hnext, hsignals'.trans hsignals⟩
  releases := h'.releases.trans h.releases

/-- What both properties are about. -/
structure SameLineage (db next : Db) : Prop where
  registry : next.registry = db.registry
  edges : next.edges = db.edges
  imports : next.imports = db.imports
  signals : next.signals = db.signals

theorem SameLineage.sound (h : SameLineage db next) (hdb : Sound db) : Sound next := by
  obtain ⟨hregistry, hedges, himports, hsignals⟩ := h
  cases db
  cases next
  dsimp only at hregistry hedges himports hsignals
  subst hregistry hedges himports hsignals
  exact ⟨hdb.keyed, hdb.joined, hdb.acyclic, hdb.signals⟩

theorem SameLineage.frozen (h : SameLineage db next)
    (hreleases : next.releases.map (fun row => (row.id, row.pitUniverses)) =
      db.releases.map (fun row => (row.id, row.pitUniverses))) : Frozen db next := by
  have hartifact : ∀ id, next.artifact id = db.artifact id := by
    intro id
    unfold Db.artifact
    rw [h.registry]
  refine ⟨fun id row hrow => ⟨row, by rw [hartifact, hrow], rfl⟩, fun id _ parent => ?_,
    fun id row hrow => ?_, fun id row hrow => ?_, fun run hrun => ?_, hreleases⟩
  · rw [h.edges]
  · rw [h.imports, hrow]
  · rw [h.imports, hrow]
  · rw [h.imports, h.signals]
    exact ⟨hrun, rfl⟩

/-! ## Transactions -/

theorem transact_ok {fault : Option ℕ} {statements : List (Db → Except String Db)}
    (h : transact fault statements db = .ok next) :
    statements.foldlM (fun db statement => statement db) db = .ok next := by
  have hfrom : ∀ (statements : List (Db → Except String Db)) (n : ℕ) (db : Db),
      (statements.zipIdx n).foldlM (fun db statement =>
        if fault = some statement.2 then .error "the statement failed" else statement.1 db) db =
        .ok next → statements.foldlM (fun db statement => statement db) db = .ok next := by
    intro statements
    induction statements with
    | nil => exact fun _ _ h => h
    | cons statement statements ih =>
      intro n db h
      rw [List.zipIdx_cons, List.foldlM_cons] at h
      obtain ⟨middle, hfirst, hrest⟩ := bind_ok h
      dsimp only at hfirst
      split_ifs at hfirst
      rw [List.foldlM_cons]
      show (statement db).bind _ = _
      rw [hfirst]
      exact ih (n + 1) middle hrest
  exact hfrom statements 0 db h

/-! ## An import -/

/-- The database after the import's own rows. -/
def begun (env : Environment) (input : Input) (payload : Payload) (validated : Validated)
    (db : Db) : Db :=
  { db with
    researchRuns := db.researchRuns ++ [input.researchRunId]
    imports := db.imports ++ [importRow env input payload validated] }

/-- The signal of the latest target is inserted, if there is a target. -/
inductive Signalled (input : Input) (validated : Validated) :
    Option (Artifact × String) → Db → Db → Prop where
  | none (db : Db) : Signalled input validated none db db
  | some {db : Db} {target : Artifact × String} {row : SignalRow}
      (h : signalRow input validated target = .ok row) :
      Signalled input validated (some target) db { db with signals := db.signals ++ [row] }

/-- What the transaction of an import has done when it commits. -/
structure ImportDone (env : Environment) (input : Input) (payload : Payload)
    (validated : Validated) (latest : Option (Artifact × String)) (items : List RegistryItem)
    (db middle linked next : Db) : Prop where
  freshId : input.importId ∉ db.imports.map ImportRow.id
  freshRun : input.researchRunId ∉ db.imports.map ImportRow.researchRunId
  freshExternal : validated.externalRunId ∉ db.imports.map ImportRow.externalRunId
  registration : Registration validated.artifacts items (begun env input payload validated db)
    middle linked
  signalled : Signalled input validated latest linked next

variable {input : Input} {payload : Payload}

theorem importStatements_ok {validated : Validated} {latest : Option (Artifact × String)}
    (h : transact input.fault (importStatements env input payload validated latest) db = .ok next) :
    ∃ items middle linked,
      ImportDone env input payload validated latest items db middle linked next := by
  have hdone := transact_ok h
  unfold importStatements at hdone
  rw [List.foldlM_append] at hdone
  obtain ⟨linked, hfirst, hsignal⟩ := bind_ok hdone
  simp only [List.foldlM_cons, List.foldlM_nil] at hfirst
  obtain ⟨same, hpreflight, hfirst⟩ := bind_ok hfirst
  obtain ⟨run, hrun, hfirst⟩ := bind_ok hfirst
  obtain ⟨imported, himport, hfirst⟩ := bind_ok hfirst
  obtain ⟨registered, hregister, hfirst⟩ := bind_ok hfirst
  obtain rfl := Except.ok.inj hfirst
  obtain ⟨_, -, rfl⟩ := map_ok hpreflight
  unfold insertResearchRun at hrun
  obtain ⟨_, -, hrun⟩ := bind_ok hrun
  obtain rfl := Except.ok.inj hrun
  unfold insertImport at himport
  obtain ⟨_, hid, himport⟩ := bind_ok himport
  obtain ⟨_, hresearch, himport⟩ := bind_ok himport
  obtain ⟨_, hexternal, himport⟩ := bind_ok himport
  obtain rfl := Except.ok.inj himport
  obtain ⟨items, middle, hregistration⟩ := registerQlibArtifacts_ok hregister
  refine ⟨items, middle, registered, require_ok.mp hid, require_ok.mp hresearch,
    require_ok.mp hexternal, hregistration, ?_⟩
  cases latest with
  | none =>
    obtain rfl := Except.ok.inj hsignal
    exact .none _
  | some target =>
    simp only [List.foldlM_cons, List.foldlM_nil] at hsignal
    obtain ⟨inserted, hinsert, hsignal⟩ := bind_ok hsignal
    obtain rfl := Except.ok.inj hsignal
    obtain ⟨row, hrow, hinsert⟩ := bind_ok hinsert
    unfold insertSignal at hinsert
    obtain ⟨_, -, hinsert⟩ := bind_ok hinsert
    obtain ⟨_, -, hinsert⟩ := bind_ok hinsert
    obtain rfl := Except.ok.inj hinsert
    exact .some hrow

theorem Registration.others {artifacts : List Artifact} {items : List RegistryItem}
    (h : Registration artifacts items db middle next) :
    next.imports = db.imports ∧ next.signals = db.signals ∧ next.releases = db.releases := by
  rw [h.edges.others, h.rows.others]
  exact ⟨rfl, rfl, rfl⟩

theorem signalRow_ok {validated : Validated} {target : Artifact × String} {row : SignalRow}
    (h : signalRow input validated target = .ok row) :
    row.id = input.signalId ∧ row.importId = input.importId ∧
      row.researchRunId = input.researchRunId ∧
      column (target.1.fields.get "artifactId") = .ok row.targetArtifactId := by
  unfold signalRow at h
  obtain ⟨_, -, h⟩ := bind_ok h
  obtain ⟨_, -, h⟩ := bind_ok h
  obtain ⟨targetArtifactId, htarget, h⟩ := bind_ok h
  rw [← Except.ok.inj h]
  exact ⟨rfl, rfl, rfl, htarget⟩

theorem find_none_of_not_mem {ρ κ : Type} [DecidableEq κ] {key : ρ → κ} {rows : List ρ} {k : κ}
    (h : k ∉ rows.map key) : find key rows k = none :=
  find_eq_none_iff.mpr h

theorem find_append_of_some {ρ κ : Type} [DecidableEq κ] {key : ρ → κ} {rows more : List ρ} {k : κ}
    {row : ρ} (h : find key rows k = some row) : find key (rows ++ more) k = some row := by
  rw [find_append, h]
  rfl

section Import

variable {input : Input} {payload : Payload} {validated : Validated}
  {latest : Option (Artifact × String)} {items : List RegistryItem} {linked : Db}

theorem Signalled.same (h : Signalled input validated latest linked next) :
    next.registry = linked.registry ∧ next.edges = linked.edges ∧ next.imports = linked.imports ∧
      next.releases = linked.releases := by
  cases h <;> exact ⟨rfl, rfl, rfl, rfl⟩

theorem Signalled.artifact (h : Signalled input validated latest linked next) (id : String) :
    next.artifact id = linked.artifact id := by
  unfold Db.artifact
  rw [h.same.1]

theorem ImportDone.imports
    (h : ImportDone env input payload validated latest items db middle linked next) :
    next.imports = db.imports ++ [importRow env input payload validated] := by
  rw [h.signalled.same.2.2.1, h.registration.others.1]
  rfl

theorem ImportDone.find_import
    (h : ImportDone env input payload validated latest items db middle linked next) :
    find ImportRow.id next.imports input.importId =
      some (importRow env input payload validated) := by
  rw [h.imports, find_append, find_none_of_not_mem h.freshId]
  simp [find, importRow]

theorem ImportDone.mem_signals
    (h : ImportDone env input payload validated latest items db middle linked next)
    {signal : SignalRow} (hsignal : signal ∈ next.signals) :
    signal ∈ db.signals ∨ ∃ target ∈ latest, signalRow input validated target = .ok signal := by
  have hold : linked.signals = db.signals := h.registration.others.2.1
  cases h.signalled with
  | none =>
    rw [hold] at hsignal
    exact .inl hsignal
  | some hrow =>
    cases List.mem_append.mp hsignal with
    | inl hmem => exact .inl (hold ▸ hmem)
    | inr hmem => exact .inr ⟨_, rfl, List.mem_singleton.mp hmem ▸ hrow⟩

theorem ImportDone.sound
    (h : ImportDone env input payload validated latest items db middle linked next)
    (hclean : ∀ artifact ∈ validated.artifacts, CleanArtifact validated artifact)
    (hlatest : ∀ target ∈ latest, target.1 ∈ validated.artifacts) (hdb : Sound db) :
    Sound next := by
  have hregistration := h.registration
  have hsame := h.signalled.same
  have hartifact := h.signalled.artifact
  have hjoined : ∀ edge ∈ (begun env input payload validated db).edges,
      Joined (begun env input payload validated db) edge := hdb.joined
  refine ⟨?_, ?_, ?_, fun signal hsignal => ?_⟩
  · rw [hsame.1, hregistration.edges.others]
    exact hregistration.rows.keyed hdb.keyed
  · intro edge hedge
    rw [hsame.2.1] at hedge
    obtain ⟨parent, child, hparent, hchild, hrest⟩ := hregistration.joined hclean hjoined edge hedge
    exact ⟨parent, child, by rw [hartifact, hparent], by rw [hartifact, hchild], hrest⟩
  · rw [hsame.2.1]
    exact hregistration.acyclic hjoined hdb.acyclic
  · cases h.mem_signals hsignal with
    | inl hold =>
      obtain ⟨imported, hfind, hrun, htarget⟩ := hdb.signals signal hold
      refine ⟨imported, ?_, hrun, fun target ht => ?_⟩
      · rw [h.imports]
        exact find_append_of_some hfind
      · obtain ⟨row, hrow, hrelease⟩ := htarget target ht
        refine ⟨row, ?_, hrelease⟩
        rw [hartifact]
        exact hregistration.kept hrow
    | inr hnew =>
      obtain ⟨target, htarget, hrow⟩ := hnew
      obtain ⟨-, himport, hrun, hcolumn⟩ := signalRow_ok hrow
      refine ⟨importRow env input payload validated, ?_, hrun.symm, fun id hid => ?_⟩
      · rw [himport]
        exact h.find_import
      · have hid' : signal.targetArtifactId = some id := hid
        rw [hid'] at hcolumn
        have hmem : id ∈ validated.artifacts.map Artifact.id :=
          List.mem_map.mpr ⟨target.1, hlatest target htarget, column_ok hcolumn⟩
        obtain ⟨row, hfound, hrelease, -⟩ := hregistration.releases hclean hmem
        exact ⟨row, by rw [hartifact, hfound], hrelease⟩

theorem ImportDone.frozen
    (h : ImportDone env input payload validated latest items db middle linked next) :
    Frozen db next := by
  have hregistration := h.registration
  have hsame := h.signalled.same
  have hartifact := h.signalled.artifact
  refine ⟨fun id row hrow => ⟨row, ?_, rfl⟩, fun id hid parent => ?_, fun id row hrow => ?_,
    fun id row hrow => ?_, fun run hrun => ⟨?_, ?_⟩, ?_⟩
  · rw [hartifact]
    exact hregistration.kept hrow
  · rw [hsame.2.1]
    exact hregistration.sameParents hid parent
  · rw [h.imports]
    exact find_append_of_some hrow
  · rw [h.imports]
    exact find_append_of_some hrow
  · rw [h.imports, List.map_append]
    exact List.mem_append_left _ hrun
  · have hold : linked.signals = db.signals := hregistration.others.2.1
    cases h.signalled with
    | none => rw [hold]
    | @some _ _ row hrow =>
      have hne : row.researchRunId ≠ run := by
        intro heq
        rw [(signalRow_ok hrow).2.2.1] at heq
        exact h.freshRun (heq ▸ hrun)
      show (linked.signals ++ [row]).filter _ = _
      rw [List.filter_append, hold]
      simp [hne]
  · rw [hsame.2.2.2, hregistration.others.2.2]
    rfl

end Import

/-! ## The call of an import -/

/-- What `import_run` has found out before it writes. -/
structure PreparedOf (env : Environment) (payload : Payload) (db : Db) (prepared : Prepared) :
    Prop where
  validated : validatePayload payload = .ok prepared.validated
  existing : prepared.existing =
    find ImportRow.externalRunId db.imports prepared.validated.externalRunId
  same : ∀ row ∈ prepared.existing, row.manifestSha256 = env.manifestSha256 payload
  latest : ∀ target ∈ prepared.latest, target.1 ∈ prepared.validated.artifacts

theorem verifiedPayloads_ok {artifacts : List Artifact}
    {payloads : List (Artifact × Option PayloadJson)}
    (h : verifiedPayloads env artifacts = .ok payloads) : payloads.map Prod.fst = artifacts := by
  refine (map_of_mapM_ok (fun artifact payload hpayload => ?_) h).trans (List.map_id _)
  obtain ⟨stored, -, hpayload⟩ := bind_ok hpayload
  obtain ⟨_, -, hpayload⟩ := bind_ok hpayload
  split_ifs at hpayload
  · obtain ⟨json, -, hpayload⟩ := bind_ok hpayload
    rw [← Except.ok.inj hpayload]
    rfl
  · rw [← Except.ok.inj hpayload]
    rfl

theorem latestTarget_ok {payloads : List (Artifact × Option PayloadJson)}
    {latest : Option (Artifact × String)} (h : latestTarget env payloads = .ok latest) :
    ∀ target ∈ latest, target.1 ∈ payloads.map Prod.fst := by
  unfold latestTarget at h
  obtain ⟨projections, hprojections, h⟩ := bind_ok h
  obtain rfl := Except.ok.inj h
  intro target htarget
  have hmem := mem_orderBy.mp (List.mem_of_getLast? htarget)
  obtain ⟨source, hsource, hprojection⟩ := exists_of_mapM hprojections hmem
  unfold targetProjection at hprojection
  obtain ⟨targets, -, hprojection⟩ := bind_ok hprojection
  obtain ⟨_, -, hprojection⟩ := bind_ok hprojection
  rw [← Except.ok.inj hprojection]
  obtain ⟨payload, hpayload, hjson⟩ := List.mem_filterMap.mp hsource
  split_ifs at hjson
  obtain ⟨json, -, rfl⟩ := Option.map_eq_some_iff.mp hjson
  exact List.mem_map_of_mem hpayload

theorem prepareImport_ok {prepared : Prepared} (h : prepareImport env payload db = .ok prepared) :
    PreparedOf env payload db prepared := by
  unfold prepareImport at h
  obtain ⟨validated, hvalidated, h⟩ := bind_ok h
  obtain ⟨_, -, h⟩ := bind_ok h
  obtain ⟨_, hsame, h⟩ := bind_ok h
  obtain ⟨_, -, h⟩ := bind_ok h
  obtain ⟨payloads, hpayloads, h⟩ := bind_ok h
  obtain ⟨_, -, h⟩ := bind_ok h
  obtain ⟨latest, hlatest, h⟩ := bind_ok h
  obtain ⟨_, -, h⟩ := bind_ok h
  obtain rfl := Except.ok.inj h
  refine ⟨hvalidated, rfl, fun row hrow => ?_, fun target htarget => ?_⟩
  · have hall := require_ok.mp hsame
    have hrow' : find ImportRow.externalRunId db.imports validated.externalRunId = some row := hrow
    rw [hrow'] at hall
    simpa using hall
  · show target.1 ∈ validated.artifacts
    rw [← verifiedPayloads_ok hpayloads]
    exact latestTarget_ok hlatest target htarget

theorem importRun_raised {message : String}
    (h : (importRun env input payload db).1 = .error message) :
    (importRun env input payload db).2 = db := by
  unfold importRun at h ⊢
  split
  · rfl
  · split
    · rfl
    · split
      · rfl
      · simp_all

theorem importRun_cases (input : Input) (payload : Payload) :
    (importRun env input payload db).2 = db ∨ ∃ prepared,
      prepareImport env payload db = .ok prepared ∧ prepared.existing = none ∧
        transact input.fault
          (importStatements env input payload prepared.validated prepared.latest) db =
          .ok (importRun env input payload db).2 := by
  unfold importRun
  cases hprepared : prepareImport env payload db with
  | error message => exact .inl rfl
  | ok prepared =>
    dsimp only
    cases hexisting : prepared.existing with
    | some row => exact .inl rfl
    | none =>
      dsimp only
      cases hnext : transact input.fault
          (importStatements env input payload prepared.validated prepared.latest) db with
      | error message => exact .inl rfl
      | ok next => exact .inr ⟨prepared, rfl, hexisting, hnext⟩

theorem Frozen.importRun (input : Input) (payload : Payload) :
    Frozen db (Qlib.importRun env input payload db).2 := by
  cases importRun_cases input payload with
  | inl hsame =>
    rw [hsame]
    exact Frozen.refl db
  | inr hdone =>
    obtain ⟨prepared, -, -, hnext⟩ := hdone
    obtain ⟨items, middle, linked, hnext⟩ := importStatements_ok hnext
    exact hnext.frozen

theorem Sound.importRun (hdb : Sound db) (input : Input) (payload : Payload)
    (hclean : OnOk (fun _ => payload.Clean) (validatePayload payload)) :
    Sound (Qlib.importRun env input payload db).2 := by
  cases importRun_cases input payload with
  | inl hsame =>
    rw [hsame]
    exact hdb
  | inr hdone =>
    obtain ⟨prepared, hprepared, -, hnext⟩ := hdone
    have hof := prepareImport_ok hprepared
    rw [hof.validated] at hclean
    obtain ⟨items, middle, linked, hnext⟩ := importStatements_ok hnext
    exact hnext.sound (cleanArtifacts hof.validated hclean) hof.latest hdb

/-! ## A validation -/

theorem targetContext_ok {researchRunId : String} {target : TargetContext}
    (h : targetContext db researchRunId = .ok target) :
    ∃ signal imported row, signal ∈ db.signals ∧
      find ImportRow.id db.imports signal.importId = some imported ∧
      signal.targetArtifactId = some target.targetArtifactId ∧
      target.dataReleaseId = imported.dataReleaseId ∧
      target.targetsSha256 = signal.targetsSha256 ∧
      db.artifact target.targetArtifactId = some row ∧
      target.universeReleaseId = row.universeReleaseId := by
  unfold targetContext at h
  dsimp only at h
  obtain ⟨found, hfound, h⟩ := bind_ok h
  obtain ⟨targetId, htarget, h⟩ := bind_ok h
  obtain ⟨row, hrow, h⟩ := bind_ok h
  have hmem := mem_orderBy.mp (List.mem_of_getLast? (orThrow_ok.mp hfound))
  obtain ⟨signal, hsignal, hjoin⟩ := List.mem_filterMap.mp hmem
  obtain ⟨imported, himported, rfl⟩ := Option.map_eq_some_iff.mp hjoin
  obtain ⟨id, hid, htext⟩ := Option.bind_eq_some_iff.mp (orThrow_ok.mp htarget)
  obtain ⟨rfl, -⟩ := textOrNone_eq_some.mp htext
  rw [← Except.ok.inj h]
  exact ⟨signal, imported, row, (List.mem_filter.mp hsignal).1, himported, hid, rfl, rfl,
    orThrow_ok.mp hrow, rfl⟩

theorem registerPlatformArtifact_ok {artifact : PlatformArtifact}
    (h : registerPlatformArtifact artifact db = .ok next) :
    next = db ∨ (db.artifact artifact.artifactId = none ∧
      next.registry = db.registry ++ [artifact.row] ∧ next.imports = db.imports ∧
      next.signals = db.signals ∧ next.releases = db.releases ∧
      ∀ edge, edge ∈ next.edges ↔ edge ∈ db.edges ∨ edge = (artifact.parent, artifact.artifactId)) := by
  unfold registerPlatformArtifact at h
  cases hfind : db.artifact artifact.artifactId with
  | some existing =>
    rw [hfind] at h
    obtain ⟨_, -, h⟩ := bind_ok h
    exact .inl (Except.ok.inj h).symm
  | none =>
    rw [hfind] at h
    obtain ⟨inserted, hinsert, h⟩ := bind_ok h
    obtain ⟨_, -, h⟩ := bind_ok h
    obtain ⟨-, rfl⟩ := insertRegistered_ok hinsert
    obtain ⟨hnext, -, -, hedges⟩ := insertEdge_ok h
    refine .inr ⟨rfl, ?_, ?_, ?_, ?_, hedges⟩ <;>
    · rw [hnext]
      rfl

theorem artifact_of_append (row : Registered) (hfresh : db.artifact row.artifactId = none)
    (hregistry : next.registry = db.registry ++ [row]) (id : String) :
    next.artifact id = if id = row.artifactId then some row else db.artifact id := by
  unfold Db.artifact
  rw [hregistry]
  exact find_append_singleton hfresh id

theorem Frozen.evidence {artifact : PlatformArtifact}
    (h : registerPlatformArtifact artifact db = .ok next) : Frozen db next := by
  cases registerPlatformArtifact_ok h with
  | inl hsame => exact hsame ▸ Frozen.refl db
  | inr hnew =>
    obtain ⟨hfresh, hregistry, himports, hsignals, hreleases, hedges⟩ := hnew
    have hartifact := artifact_of_append artifact.row hfresh hregistry
    have hother : ∀ id, (db.artifact id).isSome → id ≠ artifact.artifactId := by
      rintro id hid rfl
      rw [hfresh] at hid
      cases hid
    refine ⟨fun id row hrow => ⟨row, ?_, rfl⟩, fun id hid parent => ?_, fun id row hrow => ?_,
      fun id row hrow => ?_, fun run hrun => ?_, by rw [hreleases]⟩
    · have hne : id ≠ artifact.row.artifactId := hother id (by rw [hrow]; rfl)
      rw [hartifact, if_neg hne, hrow]
    · rw [hedges]
      have hne : (parent, id) ≠ (artifact.parent, artifact.artifactId) :=
        fun heq => hother id hid (Prod.mk.inj heq).2
      simp [hne]
    · rw [himports, hrow]
    · rw [himports, hrow]
    · rw [himports, hsignals]
      exact ⟨hrun, rfl⟩

/-- The evidence of a target is of the target's releases, and nothing has it as a parent. -/
theorem Sound.evidence (hdb : Sound db) {input : ValidationInput} {researchRunId : String}
    {target : TargetContext} (htarget : targetContext db researchRunId = .ok target)
    (h : registerPlatformArtifact (evidenceArtifact input target) db = .ok next) : Sound next := by
  cases registerPlatformArtifact_ok h with
  | inl hsame => exact hsame ▸ hdb
  | inr hnew =>
    obtain ⟨hfresh, hregistry, himports, hsignals, -, hedges⟩ := hnew
    have hartifact := artifact_of_append (evidenceArtifact input target).row hfresh
      hregistry
    have hkept : ∀ id row, db.artifact id = some row → next.artifact id = some row := by
      intro id row hrow
      rw [hartifact, if_neg]
      · exact hrow
      · rintro rfl
        have hfresh' : db.artifact (evidenceArtifact input target).row.artifactId = none := hfresh
        rw [hfresh'] at hrow
        cases hrow
    obtain ⟨signal, imported, row, hsignal, himported, hid, hrelease, -, hrow, huniverse⟩ :=
      targetContext_ok htarget
    obtain ⟨imported', himported', -, hbound⟩ := hdb.signals signal hsignal
    obtain rfl : imported = imported' := Option.some.inj (himported.symm.trans himported')
    obtain ⟨row', hrow', hrelease'⟩ := hbound _ hid
    obtain rfl : row = row' := Option.some.inj (hrow.symm.trans hrow')
    have hold : ∀ edge ∈ db.edges, (db.artifact edge.1).isSome ∧ (db.artifact edge.2).isSome := by
      intro edge hedge
      obtain ⟨a, b, ha, hb, -⟩ := hdb.joined edge hedge
      exact ⟨by rw [ha]; rfl, by rw [hb]; rfl⟩
    refine ⟨?_, fun edge hedge => ?_, ?_, fun other hother => ?_⟩
    · rw [hregistry]
      exact hdb.keyed.append_singleton hfresh
    · cases (hedges edge).mp hedge with
      | inl hmem =>
        obtain ⟨a, b, ha, hb, hrest⟩ := hdb.joined edge hmem
        exact ⟨a, b, hkept _ a ha, hkept _ b hb, hrest⟩
      | inr heq =>
        rw [heq]
        refine ⟨row, (evidenceArtifact input target).row, hkept _ row hrow, ?_, ?_, ?_⟩
        · show next.artifact (evidenceArtifact input target).row.artifactId = _
          rw [hartifact, if_pos rfl]
        · exact hrelease'.trans hrelease.symm
        · show textOrNone (row.universeReleaseId.getD "") =
            textOrNone (target.universeReleaseId.getD "")
          rw [huniverse]
    · refine Acyclic.extend (fun id => (db.artifact id).isSome) hdb.acyclic ?_ ?_
      · intro parent child hedge hchild
        cases (hedges _).mp hedge with
        | inl hmem => exact ⟨hmem, (hold _ hmem).1⟩
        | inr heq =>
          obtain ⟨-, rfl⟩ := Prod.mk.inj heq
          rw [hfresh] at hchild
          cases hchild
      · -- an old edge runs between old artifacts, the new one comes from an old target
        refine acyclic_of_rank (fun _ => 0) ?_
        rintro parent child ⟨hedge, hparent, -⟩
        cases (hedges _).mp hedge with
        | inl hmem => exact absurd (hold _ hmem).1 hparent
        | inr heq =>
          obtain ⟨rfl, -⟩ := Prod.mk.inj heq
          have htargetRow : (db.artifact (evidenceArtifact input target).parent).isSome := by
            show (db.artifact target.targetArtifactId).isSome
            rw [hrow]
            rfl
          exact absurd htargetRow hparent
    · rw [hsignals] at hother
      obtain ⟨imported', hfind, hrun, hbound'⟩ := hdb.signals other hother
      refine ⟨imported', by rw [himports, hfind], hrun, fun id hid' => ?_⟩
      obtain ⟨found, hfound, hsame⟩ := hbound' id hid'
      exact ⟨found, hkept _ found hfound, hsame⟩

variable {stage : Stage}

theorem promoteTarget_ok {artifactId reason : String}
    (h : promoteTarget artifactId stage reason db = .ok next) :
    next = db ∨ next = insertEvent (promotionEvent artifactId stage reason)
      (setStatus artifactId stage.status db) := by
  unfold promoteTarget at h
  obtain ⟨moves, -, h⟩ := bind_ok h
  obtain rfl := Except.ok.inj h
  cases moves
  · exact .inl rfl
  · exact .inr rfl

theorem artifact_setStatus (artifactId : String) (status : PromotionStatus) (id : String) :
    (setStatus artifactId status db).artifact id = (db.artifact id).map (fun row =>
      if row.artifactId = artifactId then { row with promotionStatus := status } else row) := by
  unfold setStatus Db.artifact
  refine find_map _ (fun row _ => ?_) id
  split_ifs <;> rfl

theorem artifact_setStatus_some (artifactId : String) (status : PromotionStatus) {id : String}
    {row : Registered} (hrow : db.artifact id = some row) :
    ∃ kept, (setStatus artifactId status db).artifact id = some kept ∧
      kept.frozen = row.frozen := by
  rw [artifact_setStatus, hrow]
  refine ⟨_, rfl, ?_⟩
  dsimp only
  split_ifs <;> rfl

theorem Frozen.promote {artifactId reason : String}
    (h : promoteTarget artifactId stage reason db = .ok next) : Frozen db next := by
  cases promoteTarget_ok h with
  | inl hsame => exact hsame ▸ Frozen.refl db
  | inr hmoved =>
    rw [hmoved]
    exact ⟨fun id row hrow => artifact_setStatus_some artifactId stage.status hrow,
      fun _ _ _ => Iff.rfl, fun _ _ h => h, fun _ _ h => h, fun _ hrun => ⟨hrun, rfl⟩, rfl⟩

theorem Sound.promote (hdb : Sound db) {artifactId reason : String}
    (h : promoteTarget artifactId stage reason db = .ok next) : Sound next := by
  cases promoteTarget_ok h with
  | inl hsame => exact hsame ▸ hdb
  | inr hmoved =>
    have hkept : ∀ id row, db.artifact id = some row → ∃ kept, next.artifact id = some kept ∧
        kept.dataReleaseId = row.dataReleaseId ∧ kept.universe = row.universe := by
      intro id row hrow
      rw [hmoved]
      obtain ⟨kept, hkept, hfrozen⟩ := artifact_setStatus_some artifactId stage.status hrow
      have hrelease : kept.frozen.dataReleaseId = row.frozen.dataReleaseId := by rw [hfrozen]
      have huniverse : kept.frozen.universe = row.frozen.universe := by rw [hfrozen]
      exact ⟨kept, hkept, hrelease, huniverse⟩
    refine ⟨?_, fun edge hedge => ?_, ?_, fun signal hsignal => ?_⟩
    · rw [hmoved]
      refine hdb.keyed.map (fun row _ => ?_)
      split_ifs <;> rfl
    · rw [hmoved] at hedge
      obtain ⟨a, b, ha, hb, hrelease, huniverse⟩ := hdb.joined edge hedge
      obtain ⟨a', ha', harelease, hauniverse⟩ := hkept _ a ha
      obtain ⟨b', hb', hbrelease, hbuniverse⟩ := hkept _ b hb
      refine ⟨a', b', ha', hb', ?_, ?_⟩
      · rw [harelease, hbrelease, hrelease]
      · rw [hauniverse, hbuniverse, huniverse]
    · rw [hmoved]
      exact hdb.acyclic
    · rw [hmoved] at hsignal
      obtain ⟨imported, hfind, hrun, hbound⟩ := hdb.signals signal hsignal
      refine ⟨imported, by rw [hmoved]; exact hfind, hrun, fun id hid => ?_⟩
      obtain ⟨row, hrow, hrelease⟩ := hbound id hid
      obtain ⟨kept, hkept', hkeptRelease, -⟩ := hkept id row hrow
      exact ⟨kept, hkept', hkeptRelease.trans hrelease⟩

theorem insertValidation_ok {row : ValidationRow} (h : insertValidation row db = .ok next) :
    next = { db with validations := db.validations ++ [row] } := by
  unfold insertValidation at h
  obtain ⟨_, -, h⟩ := bind_ok h
  obtain ⟨_, -, h⟩ := bind_ok h
  obtain ⟨_, -, h⟩ := bind_ok h
  obtain ⟨_, -, h⟩ := bind_ok h
  exact (Except.ok.inj h).symm

theorem recordLeanValidation_cases (input : ValidationInput) :
    (recordLeanValidation input db).2 = db ∨ ∃ target registered promoted,
      targetContext db input.researchRunId = .ok target ∧
      registerPlatformArtifact (evidenceArtifact input target) db = .ok registered ∧
      promoteTarget target.targetArtifactId .leanValidated "authoritative_lean_validation"
        registered = .ok promoted ∧ SameLineage promoted (recordLeanValidation input db).2 ∧
      (recordLeanValidation input db).2.releases = promoted.releases := by
  unfold recordLeanValidation
  cases htarget : targetContext db input.researchRunId with
  | error message => exact .inl rfl
  | ok target =>
    dsimp only
    split
    · exact .inl rfl
    · split
      · exact .inl rfl
      · rename_i backtest _
        cases hnext : transact input.fault (validationStatements input target backtest) db with
        | error message => exact .inl rfl
        | ok next =>
          have hdone := transact_ok hnext
          unfold validationStatements at hdone
          simp only [List.foldlM_cons, List.foldlM_nil] at hdone
          obtain ⟨registered, hregistered, hdone⟩ := bind_ok hdone
          obtain ⟨promoted, hpromoted, hdone⟩ := bind_ok hdone
          obtain ⟨inserted, hinserted, hdone⟩ := bind_ok hdone
          obtain rfl := Except.ok.inj hdone
          rw [insertValidation_ok hinserted]
          exact .inr ⟨target, registered, promoted, rfl, hregistered, hpromoted,
            ⟨rfl, rfl, rfl, rfl⟩, rfl⟩

theorem Frozen.recordLeanValidation (input : ValidationInput) :
    Frozen db (Qlib.recordLeanValidation input db).2 := by
  cases recordLeanValidation_cases input with
  | inl hsame =>
    rw [hsame]
    exact Frozen.refl db
  | inr hdone =>
    obtain ⟨target, registered, promoted, -, hregistered, hpromoted, hlast, hreleases⟩ := hdone
    exact ((Frozen.evidence hregistered).trans (Frozen.promote hpromoted)).trans
      (hlast.frozen (by rw [hreleases]))

theorem Sound.recordLeanValidation (hdb : Sound db) (input : ValidationInput) :
    Sound (Qlib.recordLeanValidation input db).2 := by
  cases recordLeanValidation_cases input with
  | inl hsame =>
    rw [hsame]
    exact hdb
  | inr hdone =>
    obtain ⟨target, registered, promoted, htarget, hregistered, hpromoted, hlast, -⟩ := hdone
    exact hlast.sound ((hdb.evidence htarget hregistered).promote hpromoted)

/-! ## A call -/

theorem Frozen.after (env : Environment) (db : Db) (call : Call) : Frozen db (db.after env call) := by
  cases call with
  | importRun input payload => exact Frozen.importRun input payload
  | recordLeanValidation input => exact Frozen.recordLeanValidation input
  | setReleaseStatus releaseId status =>
    have hsame : SameLineage db (db.after env (.setReleaseStatus releaseId status)) :=
      ⟨rfl, rfl, rfl, rfl⟩
    refine hsame.frozen ?_
    unfold Db.after
    rw [List.map_map]
    refine List.map_congr_left (fun row _ => ?_)
    show (fun row : ReleaseRow => (row.id, row.pitUniverses))
      (if row.id = releaseId then { row with status := status } else row) = _
    split_ifs <;> rfl

theorem Sound.after {db : Db} (hdb : Sound db) (env : Environment) {call : Call}
    (hclean : call.Clean) : Sound (db.after env call) := by
  cases call with
  | importRun input payload => exact hdb.importRun input payload hclean
  | recordLeanValidation input => exact hdb.recordLeanValidation input
  | setReleaseStatus releaseId status =>
    have hsame : SameLineage db (db.after env (.setReleaseStatus releaseId status)) :=
      ⟨rfl, rfl, rfl, rfl⟩
    exact hsame.sound hdb

end LocalPlatform.Qlib
