import LocalPlatform.Artifacts.LineageSteps

/-!
# The lineage over runs

* `importRun_again`: a bundle that was imported is found again by every later import of it, as long
  as its DataRelease is active.
* `lineage_kept` is about every run of calls whose accepted bundles are clean.
* Without that, a bundle with a blank before an identifier joins two DataReleases.
-/

namespace LocalPlatform.Qlib

open Paper Tables Results Dags

variable {env : Environment} {db middle linked next later : Db}

/-! ## Runs of calls -/

theorem Db.afterAll_append (calls more : List Call) :
    db.afterAll env (calls ++ more) = (db.afterAll env calls).afterAll env more := by
  simp [Db.afterAll]

theorem Frozen.afterAll (env : Environment) (calls : List Call) :
    ∀ db : Db, Frozen db (db.afterAll env calls) := by
  induction calls with
  | nil => exact Frozen.refl
  | cons call calls ih => exact fun db => (Frozen.after env db call).trans (ih _)

/-- In every run, whatever bundles it imports, what was registered and imported stays. -/
theorem registry_frozen (env : Environment) (db : Db) (before after : List Call) :
    Frozen (db.afterAll env before) (db.afterAll env (before ++ after)) := by
  rw [Db.afterAll_append]
  exact Frozen.afterAll env after _

theorem Sound.afterAll (env : Environment) {calls : List Call} : ∀ {db : Db}, Sound db →
    (∀ call ∈ calls, call.Clean) → Sound (db.afterAll env calls) := by
  induction calls with
  | nil => exact fun hdb _ => hdb
  | cons call calls ih =>
    intro db hdb hclean
    exact ih (hdb.after env (hclean call List.mem_cons_self))
      (fun other hother => hclean other (List.mem_cons_of_mem _ hother))

/-! ## Importing again -/

theorem Fits.frozen {ids : List String} {item : RegistryItem} (h : Fits db ids item)
    (hthere : (db.artifact item.artifact.id).isSome) (hfrozen : Frozen db next) :
    Fits next ids item where
  parents := by
    intro parent hparent
    cases h.parents parent hparent with
    | inl hid => exact .inl hid
    | inr hregistered =>
      obtain ⟨row, hrow⟩ := Option.isSome_iff_exists.mp hregistered
      obtain ⟨kept, hkept, -⟩ := hfrozen.artifact parent row hrow
      exact .inr (by rw [hkept]; rfl)
  identity := by
    intro row hrow
    obtain ⟨old, hold⟩ := Option.isSome_iff_exists.mp hthere
    obtain ⟨kept, hkept, hsame⟩ := hfrozen.artifact _ old hold
    obtain rfl : kept = row := Option.some.inj (hkept.symm.trans hrow)
    have hidentity : kept.frozen.identity = old.frozen.identity := by rw [hsame]
    exact hidentity.trans (h.identity old hold)
  sameParents := by
    intro _ parent
    rw [hfrozen.parents _ hthere]
    exact h.sameParents hthere parent

section Again

variable {input : Input} {payload : Payload} {validated : Validated}
  {latest : Option (Artifact × String)} {items : List RegistryItem}

theorem ImportDone.fits
    (h : ImportDone env input payload validated latest items db middle linked next)
    (hclean : ∀ artifact ∈ validated.artifacts, CleanArtifact validated artifact) (hdb : Sound db)
    {item : RegistryItem} (hitem : item ∈ items) :
    Fits next (validated.artifacts.map Artifact.id) item ∧
      (next.artifact item.artifact.id).isSome := by
  have hregistration := h.registration
  have hjoined : ∀ edge ∈ (begun env input payload validated db).edges,
      Joined (begun env input payload validated db) edge := hdb.joined
  obtain ⟨row, hrow, hidentity⟩ := hregistration.identity hclean hitem
  rw [← h.signalled.artifact] at hrow
  have hmem : item.artifact ∈ validated.artifacts :=
    hregistration.graph.same ▸ List.mem_map_of_mem hitem
  refine ⟨⟨fun parent hparent => .inl ((hclean _ hmem).parents hparent), fun other hother => ?_,
    fun _ parent => ?_⟩, by rw [hrow]; rfl⟩
  · obtain rfl : row = other := Option.some.inj (hrow.symm.trans hother)
    exact hidentity
  · rw [h.signalled.same.2.1]
    exact hregistration.itemParents hjoined hitem parent

theorem ImportDone.find_external
    (h : ImportDone env input payload validated latest items db middle linked next) :
    find ImportRow.externalRunId next.imports validated.externalRunId =
      some (importRow env input payload validated) := by
  rw [h.imports, find_append, find_none_of_not_mem h.freshExternal]
  simp [find, importRow]

theorem ImportDone.latestSignal
    (h : ImportDone env input payload validated latest items db middle linked next)
    (hdb : Sound db) (hsignals : later.signals.filter
        (fun row => row.researchRunId = input.researchRunId) =
      next.signals.filter (fun row => row.researchRunId = input.researchRunId)) :
    (Qlib.latestSignal later input.researchRunId).map SignalRow.id =
      latest.map (fun _ => input.signalId) := by
  have hold : linked.signals = db.signals := h.registration.others.2.1
  have hnone : db.signals.filter (fun row => row.researchRunId = input.researchRunId) = [] := by
    refine List.filter_eq_nil_iff.mpr (fun signal hsignal hrun => ?_)
    obtain ⟨imported, hfind, hsame, -⟩ := hdb.signals signal hsignal
    have hrun' : signal.researchRunId = input.researchRunId := by simpa using hrun
    exact h.freshRun (hrun' ▸ hsame ▸ List.mem_map_of_mem (mem_of_find hfind))
  unfold Qlib.latestSignal
  rw [hsignals]
  cases h.signalled with
  | none =>
    rw [hold, hnone]
    simp [orderBy]
  | @some _ _ row hrow =>
    have hrun : row.researchRunId = input.researchRunId := (signalRow_ok hrow).2.2.1
    have hid : row.id = input.signalId := (signalRow_ok hrow).1
    rw [List.filter_append, hold, hnone]
    simp [orderBy, hrun, hid]

end Again

def ActiveRelease (db : Db) (payload : Payload) : Prop :=
  OnOk (fun validated => (find ReleaseRow.id db.releases validated.dataReleaseId).any
    (fun row => row.status = "active") = true) (validatePayload payload)

theorem Frozen.pitUniverses (h : Frozen db next) (releaseId : String) :
    (find ReleaseRow.id next.releases releaseId).map ReleaseRow.pitUniverses =
      (find ReleaseRow.id db.releases releaseId).map ReleaseRow.pitUniverses := by
  have hread : ∀ releases : List ReleaseRow,
      (find ReleaseRow.id releases releaseId).map ReleaseRow.pitUniverses =
        (find Prod.fst (releases.map (fun row => (row.id, row.pitUniverses))) releaseId).map
          Prod.snd := by
    intro releases
    unfold find
    rw [List.find?_map, Option.map_map]
    rfl
  rw [hread, hread, h.releases]

theorem prepareImport_again {payload : Payload} {prepared : Prepared} {row : ImportRow}
    {items : List RegistryItem} (h : prepareImport env payload db = .ok prepared)
    (hfrozen : Frozen db later)
    (hrow : find ImportRow.externalRunId later.imports prepared.validated.externalRunId = some row)
    (hsame : row.manifestSha256 = env.manifestSha256 payload)
    (hactive : ActiveRelease later payload)
    (hpreflight : preflightQlibArtifacts prepared.validated.artifacts later = .ok items) :
    prepareImport env payload later = .ok ⟨prepared.validated, prepared.latest, some row⟩ := by
  unfold prepareImport at h
  obtain ⟨validated, hvalidated, h⟩ := bind_ok h
  obtain ⟨u, huniverse, h⟩ := bind_ok h
  obtain ⟨_, -, h⟩ := bind_ok h
  obtain ⟨_, -, h⟩ := bind_ok h
  obtain ⟨payloads, hpayloads, h⟩ := bind_ok h
  obtain ⟨v, hsource, h⟩ := bind_ok h
  obtain ⟨latest, hlatest, h⟩ := bind_ok h
  obtain ⟨_, -, h⟩ := bind_ok h
  obtain rfl := Except.ok.inj h
  dsimp only at hrow hpreflight
  unfold ActiveRelease at hactive
  rw [hvalidated] at hactive
  have hrelease : (find ReleaseRow.id later.releases validated.dataReleaseId).any
      (fun row => row.status = "active") = true := hactive
  have huniverse' : checkUniverse (find ReleaseRow.id later.releases validated.dataReleaseId)
      validated.universeReleaseId = .ok u := by
    rw [← huniverse]
    unfold checkUniverse
    rw [hfrozen.pitUniverses]
  unfold prepareImport
  rw [hvalidated]
  show (checkUniverse (find ReleaseRow.id later.releases validated.dataReleaseId)
    validated.universeReleaseId).bind _ = _
  rw [huniverse']
  show (require _ _).bind _ = _
  rw [hrow, require_of (by simpa using hsame)]
  show (require _ _).bind _ = _
  rw [require_of hrelease]
  show (verifiedPayloads env validated.artifacts).bind _ = _
  rw [hpayloads]
  show (checkSourceManifest payloads validated.sourceManifestSha256).bind _ = _
  rw [hsource]
  show (latestTarget env payloads).bind _ = _
  rw [hlatest]
  show (preflightQlibArtifacts validated.artifacts later).bind _ = _
  rw [hpreflight]
  rfl

theorem importRun_again (hdb : Sound db) {input : Input} {payload : Payload} {result : ImportResult}
    (hclean : OnOk (fun _ => payload.Clean) (validatePayload payload))
    (h : (importRun env input payload db).1 = .ok result) (hnew : result.replayed = false)
    (hfrozen : Frozen (importRun env input payload db).2 later)
    (hactive : ActiveRelease later payload) (again : Input) :
    importRun env again payload later = (.ok { result with replayed := true }, later) := by
  unfold importRun at h hfrozen
  cases hprepared : prepareImport env payload db with
  | error message =>
    rw [hprepared] at h
    cases h
  | ok prepared =>
    rw [hprepared] at h hfrozen
    dsimp only at h hfrozen
    have hof := prepareImport_ok hprepared
    rw [hof.validated] at hclean
    cases hexisting : prepared.existing with
    | some row =>
      rw [hexisting] at h
      rw [← Except.ok.inj h] at hnew
      cases hnew
    | none =>
      rw [hexisting] at h hfrozen
      dsimp only at h hfrozen
      cases hnext : transact input.fault
          (importStatements env input payload prepared.validated prepared.latest) db with
      | error message =>
        rw [hnext] at h
        cases h
      | ok next =>
        rw [hnext] at h hfrozen
        dsimp only at h hfrozen
        obtain rfl := Except.ok.inj h
        obtain ⟨items, middle, linked, hdone⟩ := importStatements_ok hnext
        have hartifacts := cleanArtifacts hof.validated hclean
        have hpreflight : preflightQlibArtifacts prepared.validated.artifacts later = .ok items := by
          refine preflightQlibArtifacts_iff.mpr ⟨hdone.registration.checked, fun item hitem => ?_⟩
          obtain ⟨hfits, hthere⟩ := hdone.fits hartifacts hdb hitem
          exact hfits.frozen hthere hfrozen
        have hrow := hfrozen.imports _ _ hdone.find_external
        have hagain := prepareImport_again hprepared (hdone.frozen.trans hfrozen) hrow rfl hactive
          hpreflight
        have hrun : input.researchRunId ∈ next.imports.map ImportRow.researchRunId := by
          rw [hdone.imports, List.map_append]
          exact List.mem_append_right _ (List.mem_singleton_self _)
        have hsignal := hdone.latestSignal hdb (hfrozen.runs _ hrun).2
        unfold importRun
        rw [hagain]
        dsimp only
        rw [← hsignal]
        rfl

/-! ## Every run -/

/-- What a run of calls keeps. -/
structure LineageKept (env : Environment) (db : Db) (calls : List Call) : Prop where
  joined : ∀ before after, calls = before ++ after →
    ∀ edge ∈ (db.afterAll env before).edges, Joined (db.afterAll env before) edge
  acyclic : ∀ before after, calls = before ++ after →
    Acyclic (fun parent child => (parent, child) ∈ (db.afterAll env before).edges)
  frozen : ∀ before between after, calls = before ++ between ++ after →
    Frozen (db.afterAll env before) (db.afterAll env (before ++ between))
  raised : ∀ before input payload after message,
    calls = before ++ .importRun input payload :: after →
    (importRun env input payload (db.afterAll env before)).1 = .error message →
      db.afterAll env (before ++ [.importRun input payload]) = db.afterAll env before
  again : ∀ before input payload between after result again,
    calls = before ++ .importRun input payload :: between ++ after →
    (importRun env input payload (db.afterAll env before)).1 = .ok result →
    result.replayed = false →
    ActiveRelease (db.afterAll env (before ++ .importRun input payload :: between)) payload →
      importRun env again payload
          (db.afterAll env (before ++ .importRun input payload :: between)) =
        (.ok { result with replayed := true },
          db.afterAll env (before ++ .importRun input payload :: between))

/-- The lineage is kept in every run of calls whose accepted bundles are clean. -/
theorem lineage_kept (env : Environment) {db : Db} {calls : List Call} (hdb : Sound db)
    (hclean : ∀ call ∈ calls, call.Clean) : LineageKept env db calls := by
  have hsound : ∀ before after, calls = before ++ after → Sound (db.afterAll env before) := by
    intro before after hcalls
    refine hdb.afterAll env (fun call hcall => hclean call ?_)
    rw [hcalls]
    exact List.mem_append_left _ hcall
  refine ⟨fun before after hcalls => (hsound before after hcalls).joined,
    fun before after hcalls => (hsound before after hcalls).acyclic,
    fun before between after _ => ?_, fun before input payload after message _ hraised => ?_,
    fun before input payload between after result again hcalls hresult hnew hactive => ?_⟩
  · rw [Db.afterAll_append]
    exact Frozen.afterAll env between _
  · rw [Db.afterAll_append]
    exact importRun_raised hraised
  · rw [Db.afterAll_append] at hactive ⊢
    have hbefore := hsound before (.importRun input payload :: between ++ after)
      (by rw [hcalls, List.append_assoc])
    have hpayload : Call.Clean (.importRun input payload) := hclean _ (by rw [hcalls]; simp)
    exact importRun_again hbefore hpayload hresult hnew (Frozen.afterAll env between _) hactive
      again

/-! ## Samples -/

def sampleSha : String := String.ofList (List.replicate 64 '0')

def sampleRelease : String := "ds_" ++ sampleSha

def otherRelease : String := "ds_" ++ String.ofList (List.replicate 64 '1')

def sampleArtifact (artifactId typeText dataReleaseId : String) (parents : List String) :
    RawArtifact where
  fields := [("artifactId", .text artifactId), ("schemaVersion", .text "2.0"),
    ("artifactType", .text typeText), ("promotionStatus", .text "CANDIDATE"),
    ("dataReleaseId", .text dataReleaseId), ("gitCommit", .text "c0ffee"),
    ("containerDigest", .text "d1"), ("asOfTime", .text "2024-01-02T15:00:00"),
    ("timezone", .text "Asia/Shanghai"), ("currency", .text "CNY"),
    ("payloadSha256", .text sampleSha), ("parentArtifactIds", .list parents)]
  payloadRef := some [("objectKey", .text "objects/model.bin"), ("sha256", .text sampleSha),
    ("mediaType", .text "application/octet-stream")]
  metadata := .missing

def sampleBundle (externalRunId root : String) (artifacts : List RawArtifact) : Payload where
  fields := [("schemaVersion", .text "2.0"), ("importType", .text "QLIB_RESEARCH_BUNDLE"),
    ("externalRunId", .text externalRunId), ("runKind", .text "train")]
  artifacts := artifacts.map some
  rootArtifactIds := [root]

/-- A stored object for every key, which has one target. -/
def sampleEnvironment : Environment where
  manifestSha256 payload := rawText (payload.fields.get "externalRunId")
  targetsSha256 _ := sampleSha
  object _ := .ok ⟨sampleSha, some ⟨true, .null, [⟨.text "SH600000", .num (1 / 2), .null⟩]⟩⟩

def sampleDb : Db where
  registry := []
  edges := []
  events := []
  imports := []
  signals := []
  validations := []
  researchRuns := []
  releases := [⟨sampleRelease, "active", []⟩, ⟨otherRelease, "active", []⟩]

theorem sampleDb_sound : Sound sampleDb where
  keyed := List.nodup_nil
  joined := by simp [sampleDb]
  acyclic := acyclic_of_rank (fun _ => 0) (by simp [sampleDb])
  signals := by simp [sampleDb]

def sampleInput (n : String) : Input := ⟨"run" ++ n, "import" ++ n, "signal" ++ n, 0, none⟩

def modelBundle : Payload :=
  sampleBundle "mlflow-1" "A" [sampleArtifact "A" "MODEL_RELEASE" sampleRelease []]

/-- A promoted target of the model "A". -/
def targetArtifact : RawArtifact :=
  { sampleArtifact "T" "TARGET_PORTFOLIO" sampleRelease ["A"] with
    fields := [("promotionStatus", .text "RESEARCH_PROMOTED"), ("modelReleaseId", .text "A"),
      ("signalDate", .text "2024-01-02"), ("tradeDate", .text "2024-01-03")] ++
        (sampleArtifact "T" "TARGET_PORTFOLIO" sampleRelease ["A"]).fields }

def targetBundle : Payload :=
  sampleBundle "mlflow-1" "T" [sampleArtifact "A" "MODEL_RELEASE" sampleRelease [], targetArtifact]

def sampleBacktest : Backtest where
  status := "success"
  dataReleaseId := sampleRelease
  parameters := [("qlibTargetPortfolioArtifactId", .text "T"),
    ("qlibTargetsSha256", .text sampleSha)]
  validationPassed := true
  runtimeDigest := sampleSha

/-- A target is imported with its model, validated and imported again. -/
def validatedCalls : List Call :=
  [.importRun (sampleInput "1") targetBundle,
    .recordLeanValidation ⟨"run1", "backtest1", "v1", sampleSha, some sampleBacktest, none⟩,
    .importRun (sampleInput "2") targetBundle]

theorem clean_calls {calls : List Call}
    (h : ∀ input payload, Call.importRun input payload ∈ calls → payload.Clean) :
    ∀ call ∈ calls, call.Clean := by
  intro call hcall
  cases call with
  | importRun input payload =>
    show OnOk (fun _ => payload.Clean) (validatePayload payload)
    cases validatePayload payload with
    | error message => trivial
    | ok validated => exact h input payload hcall
  | recordLeanValidation input => trivial
  | setReleaseStatus releaseId status => trivial

theorem lineage_kept_sample : LineageKept sampleEnvironment sampleDb validatedCalls ∧
    (sampleDb.afterAll sampleEnvironment validatedCalls).edges =
      [("A", "T"), ("T", "lean_validation_v1")] := by
  have hclean : targetBundle.Clean := by
    have hmodel : (sampleArtifact "A" "MODEL_RELEASE" sampleRelease []).Clean :=
      ⟨by decide +kernel, by decide +kernel, by decide +kernel, by decide +kernel⟩
    have htarget : targetArtifact.Clean :=
      ⟨by decide +kernel, by decide +kernel, by decide +kernel, by decide +kernel⟩
    intro raw hraw
    have hcases : raw = sampleArtifact "A" "MODEL_RELEASE" sampleRelease [] ∨
        raw = targetArtifact := by
      simpa [targetBundle, sampleBundle] using hraw
    rcases hcases with rfl | rfl
    · exact hmodel
    · exact htarget
  have hbundle : ∀ input payload, Call.importRun input payload ∈ validatedCalls →
      payload = targetBundle := by
    intro input payload hcall
    simp only [validatedCalls, List.mem_cons, Call.importRun.injEq, reduceCtorEq, List.not_mem_nil,
      or_false, false_or] at hcall
    rcases hcall with hfirst | hagain
    · exact hfirst.2
    · exact hagain.2
  refine ⟨lineage_kept sampleEnvironment sampleDb_sound (clean_calls fun input payload hcall => ?_),
    by decide +kernel⟩
  rw [hbundle input payload hcall]
  exact hclean

/-- A bundle of another release: its model has a blank in front of its identifier, and its policy
has the parent that the model would be without it. -/
def paddedBundle : Payload :=
  sampleBundle "mlflow-2" "B" [sampleArtifact " A" "MODEL_RELEASE" otherRelease [],
    sampleArtifact "B" "STRATEGY_POLICY" otherRelease ["A"]]

/-- The two imports join artifacts of two DataReleases. -/
theorem padded_joins_releases : ¬ ∀ (env : Environment) (db : Db) (calls : List Call), Sound db →
    LineageKept env db calls := by
  intro h
  let calls : List Call :=
    [.importRun (sampleInput "1") modelBundle, .importRun (sampleInput "2") paddedBundle]
  have hkept := h sampleEnvironment sampleDb calls sampleDb_sound
  have hrun : ("A", "B") ∈ (sampleDb.afterAll sampleEnvironment calls).edges ∧
      ((sampleDb.afterAll sampleEnvironment calls).artifact "A").map Registered.dataReleaseId =
        some sampleRelease ∧
      ((sampleDb.afterAll sampleEnvironment calls).artifact "B").map Registered.dataReleaseId =
        some otherRelease := by
    decide +kernel
  obtain ⟨hedges, hparent, hchild⟩ := hrun
  obtain ⟨parent, child, ha, hb, hrelease, -⟩ := hkept.joined calls [] (by simp) _ hedges
  rw [ha] at hparent
  rw [hb] at hchild
  have hsame : some sampleRelease = some otherRelease := by
    rw [← hparent, ← hchild, Option.map_some, Option.map_some, hrelease]
  exact absurd hsame (by decide +kernel)

end LocalPlatform.Qlib
