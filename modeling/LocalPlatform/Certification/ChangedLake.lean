import LocalPlatform.Certification.Authority
import LocalPlatform.Market.ScopeRoots

/-!
# Certified datasets and the lake

`upsert_market_daily_bars` and `upsert_market_daily_bars_batch` write the files of a scope and then,
in a transaction of their own, invalidate its certification.

* `Lake` has the files below the root of each scope, and the native relations, which several scopes
  share.  `Lake.Affects` says that a write of one scope changes the files that another is read from.
* A `Writer` has the parts that it has still to write; one that stops, for whatever reason, takes no
  more steps.  `certifiedRows` remembers what the lake held when a dataset was certified.
* A read is `Truthful` if a dataset that it reports as certified is as it was then.
* `Settled` is the condition on a read, that no writer which affects a certified dataset is between
  its files and its transaction, and `Covers` the one on a write, that its transaction invalidates
  the certified datasets that it affects.

What a row holds and how rows are merged are parameters.  A path is resolved by its text: there are
no links below the lake.
-/

namespace LocalPlatform.Certification

open Tables Machines Results
open Paper (lower)

/-! ## The lake -/

/-- `_scope` of bars. -/
def scopeOf (raw : Scope) : Market.Scope :=
  Market.ScopeRoots.scopeOf
    { kind := .bars
      assetClass := raw.assetClass
      market := raw.market
      venue := raw.venue
      resolution := raw.resolution
      dataType := raw.dataType
      adjust := raw.adjust
      source := raw.source }

/-- The native relations for bars: `silver/daily/current` and `gold/qlib_staging/full`. -/
inductive Native where
  | daily
  | staging
  deriving DecidableEq

/-- `_native_glob` -/
def nativeGlob (scope : Market.Scope) : Option Native :=
  if scope.resolution ≠ "daily" ∨ scope.market ≠ "china" then none
  else if scope.assetClass = "equity" ∧ scope.source = "tushare" then some .daily
  else if scope.assetClass = "index" ∧ scope.source = "tushare" then some .staging
  else none

/-- `_native_write_supported` -/
def nativeWriteSupported (scope : Market.Scope) : Bool :=
  if scope.resolution ≠ "daily" ∨ scope.market ≠ "china" then false
  else scope.assetClass = "equity" && scope.source = "tushare"

/-- Where the lake lies, its digest, and how a part is merged into the rows of a store. -/
structure LakeEnv (β ρ : Type) where
  parquetDir : List (List Char)
  md5 : Market.ScopeRoots.Md5
  merge : β → Option ρ → ρ

/-- The rows of the native relations that are there, and of the manifests that list files. -/
structure Lake (ρ : Type) where
  native : Native → Option ρ
  files : List (List Char) → Option ρ

section Lake

variable {β ρ : Type} (env : LakeEnv β ρ)

/-- `dataset_root` -/
@[irreducible] def datasetRoot (scope : Market.Scope) : List (List Char) :=
  Market.ScopeRoots.directory env.md5 env.parquetDir scope

/-- What `query_rows` reads a scope from. -/
def Lake.rows (lake : Lake ρ) (raw : Scope) : Option ρ :=
  match lake.files (datasetRoot env (scopeOf raw)) with
  | some rows => some rows
  | none => (nativeGlob (scopeOf raw)).bind lake.native

/-- Whether `upsert_rows` takes the native path. -/
def Lake.writesNative (lake : Lake ρ) (scope : Market.Scope) : Bool :=
  nativeWriteSupported scope && (lake.native .daily).isSome

/-- A part of `upsert_rows`. -/
def Lake.write (lake : Lake ρ) (scope : Market.Scope) (part : β) : Lake ρ :=
  if lake.writesNative scope then
    { lake with
      native := Function.update lake.native .daily (some (env.merge part (lake.native .daily))) }
  else
    { lake with
      files := Function.update lake.files (datasetRoot env scope)
        (some (env.merge part (lake.files (datasetRoot env scope)))) }

/-- A write of `scope` changes what `raw` is read from. -/
@[irreducible] def Lake.Affects (lake : Lake ρ) (scope : Market.Scope) (raw : Scope) : Prop :=
  if lake.writesNative scope then
    (lake.files (datasetRoot env (scopeOf raw))).isNone ∧ nativeGlob (scopeOf raw) = some .daily
  else datasetRoot env (scopeOf raw) = datasetRoot env scope

instance (lake : Lake ρ) (scope : Market.Scope) (raw : Scope) : Decidable (lake.Affects env scope raw) := by
  unfold Lake.Affects
  infer_instance

variable {env} {lake : Lake ρ} {scope other : Market.Scope} {raw : Scope} {part : β}

theorem files_write (h : ¬ lake.Affects env scope raw) :
    (lake.write env scope part).files (datasetRoot env (scopeOf raw)) =
      lake.files (datasetRoot env (scopeOf raw)) := by
  unfold Lake.Affects at h
  unfold Lake.write
  split_ifs at h ⊢
  · rfl
  · dsimp only
    rw [Function.update_of_ne h]

theorem rows_write (h : ¬ lake.Affects env scope raw) :
    (lake.write env scope part).rows env raw = lake.rows env raw := by
  unfold Lake.rows
  rw [files_write h]
  unfold Lake.Affects at h
  cases hfiles : lake.files (datasetRoot env (scopeOf raw)) with
  | some rows => rfl
  | none =>
    cases hglob : nativeGlob (scopeOf raw) with
    | none => rfl
    | some native =>
      show (lake.write env scope part).native native = lake.native native
      unfold Lake.write
      split_ifs at h ⊢ with hnative
      · have hother : native ≠ .daily := by
          rintro rfl
          exact h ⟨by rw [hfiles]; rfl, hglob⟩
        dsimp only
        rw [Function.update_of_ne hother]
      · rfl

theorem writesNative_write :
    (lake.write env scope part).writesNative other = lake.writesNative other := by
  unfold Lake.write
  split_ifs with hnative
  · unfold Lake.writesNative at hnative ⊢
    rw [Bool.and_eq_true] at hnative
    simp [hnative.2]
  · rfl

theorem affects_write (h : ¬ lake.Affects env scope raw) :
    (lake.write env scope part).Affects env other raw ↔ lake.Affects env other raw := by
  have hfiles : (lake.write env scope part).files _ = _ := files_write h
  unfold Lake.Affects
  rw [writesNative_write, hfiles]

/-- What a write affects, its next part affects. -/
theorem affects_write_self (h : lake.Affects env scope raw) :
    (lake.write env scope part).Affects env scope raw := by
  unfold Lake.Affects at h ⊢
  rw [writesNative_write]
  unfold Lake.write
  split_ifs at h ⊢ <;> exact h

end Lake

/-! ## Writing -/

/-- A call of `upsert_market_daily_bars`, or of its batch. -/
structure UpsertCall where
  batch : Bool
  source : String
  assetClass : String
  market : String
  venue : Option String
  resolution : String
  dataType : String
  adjust : String
  deriving DecidableEq

/-- The scope of the lake that the call writes. -/
def UpsertCall.lakeScope (call : UpsertCall) : Market.Scope :=
  scopeOf
    { source := call.source
      assetClass := call.assetClass
      market := call.market
      venue := if call.batch then some (lower (orElse call.venue call.market)) else call.venue
      resolution := call.resolution
      dataType := call.dataType
      adjust := call.adjust }

/-- What the call invalidates. -/
def UpsertCall.request (call : UpsertCall) : Request where
  source := some call.source
  assetClass := call.assetClass
  market := call.market
  venue := some (orElse call.venue call.market)

structure Writer (β : Type) where
  call : UpsertCall
  /-- The parts of the lake that are not written yet. -/
  rest : List β
  begun : Bool
  done : Bool
  deriving DecidableEq

/-- Files are written, and the certification is not invalidated. -/
def Writer.pending {β : Type} (writer : Writer β) : Bool := writer.begun && !writer.done

structure State (β ρ : Type) where
  db : Db
  lake : Lake ρ
  /-- What the lake held for a dataset when it was certified. -/
  certifiedRows : String → Option ρ
  writers : List (Writer β)

inductive LakeAction (β : Type) where
  /-- `certify_consistent_production_datasets` -/
  | mark (datasetIds : List String) (reportId : String) (now : ℕ)
  /-- `_register` -/
  | register (id datasetKey : String) (scope : Scope) (version manifestSha256 : String) (now : ℕ)
  | certify (call : CertifyCall)
  | upsert (call : UpsertCall) (parts : List β)
  | step (index now : ℕ)
  | read (config : Config) (lake : Bool) (request : Request) (now : ℕ)

def markDataset (datasetIds : List String) (reportId : String) (now : ℕ) (item : Dataset) :
    Dataset :=
  if item.id ∈ datasetIds ∧ item.scope.source = primaryDataSource then
    { item with
      environment := some "production"
      isProduction := true
      isCertified := true
      certifiedAt := some now
      qaStatus := some "ok"
      qaReportId := some reportId }
  else item

/-- A dataset as it is inserted. -/
def newDataset (id datasetKey : String) (scope : Scope) (version manifestSha256 : String)
    (now : ℕ) : Dataset where
  id := id
  datasetKey := datasetKey
  scope := scope
  datasetVersion := some version
  fileManifestSha256 := some manifestSha256
  environment := some "research"
  isProduction := false
  isCertified := false
  certifiedAt := none
  qaStatus := some "pending"
  qaReportId := none
  updatedAt := now
  datasetReleaseId := none

/-- What registering writes over a dataset. -/
def registerDataset (old excluded : Dataset) : Dataset :=
  { old with
    datasetVersion := excluded.datasetVersion
    fileManifestSha256 := excluded.fileManifestSha256
    updatedAt := excluded.updatedAt }

section Machine

variable {β ρ : Type} (env : LakeEnv β ρ)

/-- The next step of a writer: a part of the lake, or the transaction. -/
def State.write (s : State β ρ) (index now : ℕ) (writer : Writer β) : State β ρ :=
  match writer.rest with
  | part :: rest =>
    { s with
      lake := s.lake.write env writer.call.lakeScope part
      writers := s.writers.set index { writer with rest := rest, begun := true } }
  | [] =>
    if writer.done then s
    else
      { s with
        db := invalidateSourceCertification s.db writer.call.request now
        writers := s.writers.set index { writer with done := true } }

def State.next (s : State β ρ) : LakeAction β → State β ρ
  | .mark datasetIds reportId now =>
    { s with
      db := { s.db with datasets := s.db.datasets.map (markDataset datasetIds reportId now) }
      certifiedRows := fun id =>
        match find Dataset.id s.db.datasets id with
        | some item =>
          if id ∈ datasetIds ∧ item.scope.source = primaryDataSource then s.lake.rows env item.scope
          else s.certifiedRows id
        | none => s.certifiedRows id }
  | .register id datasetKey scope version manifestSha256 now =>
    { s with
      db := { s.db with
        datasets := upsert Dataset.id registerDataset s.db.datasets
          (newDataset id datasetKey scope version manifestSha256 now) } }
  | .certify call => { s with db := s.db.next (.certify call) }
  | .upsert call parts =>
    { s with
      writers := s.writers ++ [{ call := call, rest := parts, begun := false, done := false }] }
  | .step index now =>
    match s.writers[index]? with
    | some writer => s.write env index now writer
    | none => s
  | .read config lake request now => { s with db := s.db.next (.read config lake request now) }

def lakeMachine : Machine (State β ρ) (LakeAction β) where
  allowed := fun _ _ => True
  next := State.next env

instance (s : State β ρ) (action : LakeAction β) :
    Decidable ((lakeMachine env).allowed s action) := .isTrue trivial

end Machine

/-! ## The promise and the condition -/

section Promise

variable {β ρ : Type} (env : LakeEnv β ρ)

/-- Whatever is reported as certified is as it was when it was certified. -/
def Truthful (s : State β ρ) (config : Config) (lake : Bool) (request : Request) (now : ℕ) : Prop :=
  ∀ db report, sourceCertification config lake s.db request now = .ok (db, report) →
    report.isProduction → report.isCertified → ∀ item ∈ s.db.datasets,
      report.datasetId = some item.id → s.lake.rows env item.scope = s.certifiedRows item.id

/-- The transaction of a writer invalidates the certified datasets that its next part affects. -/
def Covers (s : State β ρ) (writer : Writer β) : Prop :=
  writer.rest.isEmpty = false → ∀ item ∈ s.db.datasets, item.isProduction → item.isCertified →
    s.lake.Affects env writer.call.lakeScope item.scope →
      writer.call.request.gate.covers item.scope

/-- What is asked for is not affected by a writer that is between its files and its transaction. -/
def Settled (s : State β ρ) (request : Request) : Prop :=
  ∀ writer ∈ s.writers, writer.pending → ∀ item ∈ s.db.datasets, item.isProduction →
    item.isCertified → request.gate.covers item.scope →
      ¬ s.lake.Affects env writer.call.lakeScope item.scope

def Unwatched (s : State β ρ) : LakeAction β → Prop
  | .step index _ => ∀ writer ∈ s.writers[index]?, Covers env s writer
  | .read _ _ request _ => Settled env s request
  | .mark _ _ _ | .register _ _ _ _ _ _ | .certify _ | .upsert _ _ => True

instance (s : State β ρ) (writer : Writer β) : Decidable (Covers env s writer) :=
  inferInstanceAs (Decidable (_ → ∀ item ∈ s.db.datasets, item.isProduction → item.isCertified →
    s.lake.Affects env writer.call.lakeScope item.scope →
      writer.call.request.gate.covers item.scope))

instance (s : State β ρ) (action : LakeAction β) : Decidable (Unwatched env s action) :=
  match action with
  | .step index _ => inferInstanceAs (Decidable (∀ writer ∈ s.writers[index]?, Covers env s writer))
  | .read _ _ request _ => inferInstanceAs (Decidable (∀ writer ∈ s.writers, writer.pending →
      ∀ item ∈ s.db.datasets, item.isProduction → item.isCertified →
        request.gate.covers item.scope → ¬ s.lake.Affects env writer.call.lakeScope item.scope))
  | .mark _ _ _ | .register _ _ _ _ _ _ | .certify _ | .upsert _ _ => .isTrue trivial

/-- What holds before any write: the lake is as it was when the datasets were certified. -/
structure Unchanged (s : State β ρ) : Prop where
  keyed : Unique Dataset.id s.db.datasets
  idle : s.writers = []
  production : ∀ item ∈ s.db.datasets, item.isProduction → item.isCertified →
    item.scope.source ∈ productionSources ∧ s.lake.rows env item.scope = s.certifiedRows item.id

end Promise

/-! ## What a run keeps -/

section Runs

variable {β ρ : Type} {env : LakeEnv β ρ} {s : State β ρ}

/-- A certified dataset is as it was, or a writer that affects it has still to invalidate it. -/
def Kept (env : LakeEnv β ρ) (s : State β ρ) (item : Dataset) : Prop :=
  item.isProduction → item.isCertified → item.scope.source ∈ productionSources ∧
    (s.lake.rows env item.scope = s.certifiedRows item.id ∨
      ∃ writer ∈ s.writers, writer.pending ∧ writer.call.request.gate.covers item.scope ∧
        s.lake.Affects env writer.call.lakeScope item.scope)

structure Tracked (env : LakeEnv β ρ) (s : State β ρ) : Prop where
  keyed : Unique Dataset.id s.db.datasets
  finished : ∀ writer ∈ s.writers, writer.done → writer.rest = []
  kept : ∀ item ∈ s.db.datasets, Kept env s item

theorem Kept.of_same {old item : Dataset} (h : Kept env s old) (hid : item.id = old.id)
    (hscope : item.scope = old.scope) (hproduction : item.isProduction → old.isProduction)
    (hcertified : item.isCertified → old.isCertified) : Kept env s item := by
  intro hitem hitem'
  rw [hid, hscope]
  exact h (hproduction hitem) (hcertified hitem')

theorem Tracked.of_datasets (h : Tracked env s) (db : Db) (hkeyed : Unique Dataset.id db.datasets)
    (hkept : ∀ item ∈ db.datasets, Kept env s item) : Tracked env { s with db := db } :=
  ⟨hkeyed, h.finished, hkept⟩

theorem Unchanged.tracked (h : Unchanged env s) : Tracked env s := by
  refine ⟨h.keyed, ?_, ?_⟩
  · rw [h.idle]
    exact fun writer hwriter => absurd hwriter List.not_mem_nil
  · intro item hitem hproduction hcertified
    obtain ⟨hsource, hlake⟩ := h.production item hitem hproduction hcertified
    exact ⟨hsource, Or.inl hlake⟩

theorem Tracked.certify (h : Tracked env s) {call : CertifyCall} {found : Option Release} {db : Db}
    (hcall : certifyParquetDataset s.db call = .ok (db, found)) : Tracked env { s with db := db } := by
  obtain ⟨_, _, hdatasets, _⟩ := certify_cases hcall
  apply h.of_datasets db
  · rw [hdatasets]
    exact h.keyed.map (fun _ _ => recordRelease_id)
  · rw [hdatasets]
    intro row hrow
    obtain ⟨old, hold, rfl⟩ := List.mem_map.mp hrow
    apply (h.kept old hold).of_same recordRelease_id recordRelease_scope
    · unfold recordRelease
      split <;> exact id
    · unfold recordRelease
      split <;> exact id

theorem Tracked.mark (h : Tracked env s) (datasetIds : List String) (reportId : String) (now : ℕ) :
    Tracked env (s.next env (.mark datasetIds reportId now)) := by
  have hid : ∀ item, (markDataset datasetIds reportId now item).id = item.id := by
    intro item
    unfold markDataset
    split <;> rfl
  refine ⟨h.keyed.map (fun item _ => hid item), h.finished, ?_⟩
  intro row hrow
  obtain ⟨item, hitem, rfl⟩ := List.mem_map.mp hrow
  have hfind := h.keyed.find_of_mem hitem
  by_cases hmarked : item.id ∈ datasetIds ∧ item.scope.source = primaryDataSource
  · intro _ _
    have hscope : (markDataset datasetIds reportId now item).scope = item.scope := by
      unfold markDataset
      split <;> rfl
    rw [hid, hscope]
    refine ⟨by simp [hmarked.2, productionSources], Or.inl ?_⟩
    simp only [State.next, hfind]
    rw [if_pos hmarked]
  · have hsame : markDataset datasetIds reportId now item = item := if_neg hmarked
    rw [hsame]
    intro hproduction hcertified
    obtain ⟨hsource, hlake⟩ := h.kept item hitem hproduction hcertified
    refine ⟨hsource, hlake.imp_left (fun hlake => ?_)⟩
    simp only [State.next, hfind]
    rw [if_neg hmarked]
    exact hlake

theorem Tracked.register (h : Tracked env s) (id datasetKey : String) (scope : Scope)
    (version manifestSha256 : String) (now : ℕ) :
    Tracked env (s.next env (.register id datasetKey scope version manifestSha256 now)) := by
  apply h.of_datasets _ (h.keyed.upsert _ _)
  intro row hrow
  rcases mem_upsert hrow with hold | rfl | ⟨old, hold, rfl⟩
  · exact h.kept row hold
  · intro hproduction
    cases hproduction
  · exact (h.kept old hold).of_same rfl rfl (fun hitem => hitem) (fun hitem => hitem)

theorem Tracked.upsert (h : Tracked env s) (call : UpsertCall) (parts : List β) :
    Tracked env (s.next env (.upsert call parts)) := by
  refine ⟨h.keyed, ?_, ?_⟩
  · intro writer hwriter hdone
    rcases List.mem_append.mp hwriter with hold | hnew
    · exact h.finished writer hold hdone
    · rw [List.mem_singleton.mp hnew] at hdone
      cases hdone
  · intro item hitem hproduction hcertified
    obtain ⟨hsource, hlake⟩ := h.kept item hitem hproduction hcertified
    refine ⟨hsource, hlake.imp_right ?_⟩
    rintro ⟨writer, hwriter, hpending⟩
    exact ⟨writer, List.mem_append_left _ hwriter, hpending⟩

variable {index : ℕ} {writer : Writer β}

theorem mem_set_cases {writers : List (Writer β)} {other : Writer β}
    (h : other ∈ writers.set index writer) : other = writer ∨ other ∈ writers :=
  (List.mem_or_eq_of_mem_set h).symm

theorem mem_set_of_ne {writers : List (Writer β)} {old other : Writer β}
    (hold : writers[index]? = some old) (h : other ∈ writers) (hne : other ≠ old) :
    other ∈ writers.set index writer := by
  obtain ⟨i, hi, hother⟩ := List.mem_iff_getElem.mp h
  have hindex : index ≠ i := by
    intro heq
    rw [heq, List.getElem?_eq_getElem hi, Option.some.injEq] at hold
    exact hne (hother.symm.trans hold)
  apply List.mem_iff_getElem.mpr
  refine ⟨i, by simpa using hi, ?_⟩
  rw [List.getElem_set_ne hindex]
  exact hother

theorem Tracked.part (h : Tracked env s) (hwriter : s.writers[index]? = some writer)
    (hcovers : Covers env s writer) {part : β} {rest : List β} (hrest : writer.rest = part :: rest) :
    Tracked env
      { s with
        lake := s.lake.write env writer.call.lakeScope part
        writers := s.writers.set index { writer with rest := rest, begun := true } } := by
  have hmem : writer ∈ s.writers := List.mem_of_getElem? hwriter
  have hdone : writer.done = false := by
    rw [← Bool.not_eq_true]
    intro hdone
    have hnil := h.finished writer hmem hdone
    rw [hrest] at hnil
    cases hnil
  refine ⟨h.keyed, ?_, ?_⟩
  · intro other hother hother'
    rcases mem_set_cases hother with rfl | hold
    · rw [show _ = false from hdone] at hother'
      cases hother'
    · exact h.finished other hold hother'
  · intro item hitem hproduction hcertified
    obtain ⟨hsource, hlake⟩ := h.kept item hitem hproduction hcertified
    refine ⟨hsource, ?_⟩
    dsimp only
    by_cases haffects : s.lake.Affects env writer.call.lakeScope item.scope
    · -- the writer itself has this dataset to invalidate now
      have hcovered := hcovers (by rw [hrest]; rfl) item hitem hproduction hcertified haffects
      have hpending : Writer.pending { writer with rest := rest, begun := true } := by
        simp [Writer.pending, hdone]
      exact Or.inr ⟨{ writer with rest := rest, begun := true },
        List.mem_set (List.getElem?_eq_some_iff.mp hwriter).1 _, hpending, hcovered,
        affects_write_self haffects⟩
    · rcases hlake with hlake | ⟨other, hother, hpending, hother', haffects'⟩
      · exact Or.inl ((rows_write haffects).trans hlake)
      · have hne : other ≠ writer := by
          rintro rfl
          exact haffects haffects'
        exact Or.inr ⟨other, mem_set_of_ne hwriter hother hne, hpending, hother',
          (affects_write haffects).mpr haffects'⟩

theorem Tracked.finish (h : Tracked env s) (hwriter : s.writers[index]? = some writer)
    (hrest : writer.rest = []) (now : ℕ) :
    Tracked env
      { s with
        db := invalidateSourceCertification s.db writer.call.request now
        writers := s.writers.set index { writer with done := true } } := by
  -- What is still certified was so before, and is not what the call invalidates.
  have hdatasets : ∀ row ∈ (invalidateSourceCertification s.db writer.call.request now).datasets,
      row.isCertified → row ∈ s.db.datasets ∧
        (row.scope.source ∈ productionSources → ¬ writer.call.request.gate.covers row.scope) := by
    unfold invalidateSourceCertification
    split
    · intro row hrow hcertified
      obtain ⟨item, hitem, rfl⟩ := List.mem_map.mp hrow
      have hboth := invalidateDataset_certified hcertified
      have hsame : invalidateDataset writer.call.request.gate item = item := by
        unfold invalidateDataset
        rw [if_neg (fun hall => hboth.2 hall.1)]
      rw [hsame]
      exact ⟨hitem, fun _ => hboth.2⟩
    · next hother =>
      intro row hrow _
      refine ⟨hrow, fun hsource hcovers => hother ?_⟩
      rw [← hcovers.1]
      exact hsource
  refine ⟨?_, ?_, ?_⟩
  · unfold invalidateSourceCertification
    split
    · exact h.keyed.map (fun _ _ => invalidateDataset_id)
    · exact h.keyed
  · intro other hother hdone
    rcases mem_set_cases hother with rfl | hold
    · exact hrest
    · exact h.finished other hold hdone
  · intro row hrow hproduction hcertified
    obtain ⟨hold, huncovered⟩ := hdatasets row hrow hcertified
    obtain ⟨hsource, hlake⟩ := h.kept row hold hproduction hcertified
    refine ⟨hsource, hlake.imp_right ?_⟩
    rintro ⟨other, hother, hpending, hcovers, haffects⟩
    refine ⟨other, mem_set_of_ne hwriter hother ?_, hpending, hcovers, haffects⟩
    rintro rfl
    exact huncovered hsource hcovers

theorem Tracked.next (h : Tracked env s) {action : LakeAction β} (haction : Unwatched env s action) :
    Tracked env (s.next env action) := by
  cases action with
  | mark datasetIds reportId now => exact h.mark datasetIds reportId now
  | register id datasetKey scope version manifestSha256 now =>
    exact h.register id datasetKey scope version manifestSha256 now
  | upsert call parts => exact h.upsert call parts
  | certify call =>
    rcases next_cases s.db (.certify call) with hsame | ⟨_, _, hother, _⟩ | ⟨_, _, hcall, _⟩
    · show Tracked env { s with db := s.db.next (.certify call) }
      rw [hsame]
      exact h
    · cases hother
    · exact h.certify hcall
  | read config lake request now =>
    rcases next_cases s.db (.read config lake request now) with
      hsame | ⟨_, _, hother, _⟩ | ⟨_, _, hcall, _⟩
    · show Tracked env { s with db := s.db.next (.read config lake request now) }
      rw [hsame]
      exact h
    · cases hother
    · exact h.certify hcall
  | step index now =>
    unfold State.next
    dsimp only
    cases hwriter : s.writers[index]? with
    | none => exact h
    | some writer =>
      show Tracked env (s.write env index now writer)
      unfold State.write
      cases hrest : writer.rest with
      | cons part rest => exact h.part hwriter (haction writer hwriter) hrest
      | nil =>
        have hfinish := h.finish hwriter hrest now
        rw [hrest] at hfinish
        dsimp only
        split
        · exact h
        · exact hfinish

theorem production_reportOrLake {lake valid : Bool} {item : Dataset} {release : Option Release}
    (h : (reportOrLake lake valid (datasetReport item valid release)).isProduction) :
    (reportOrLake lake valid (datasetReport item valid release)).datasetId = some item.id ∧
      item.isProduction := by
  unfold reportOrLake at h ⊢
  split at h
  · cases h
  · next hvalid =>
    rw [if_neg hvalid]
    exact ⟨rfl, ((Bool.and_eq_true _ _).mp h).1⟩

theorem report_cases {config : Config} {lake : Bool} {db after : Db} {request : Request} {now : ℕ}
    {report : CertificationReport}
    (h : sourceCertification config lake db request now = .ok (after, report))
    (hproduction : report.isProduction) :
    ∃ item ∈ db.datasets, report.datasetId = some item.id ∧ item.isProduction ∧ item.isCertified ∧
      request.gate.covers item.scope := by
  unfold sourceCertification at h
  split at h
  · rw [← (Prod.mk.inj (Except.ok.inj h)).2] at hproduction
    cases hproduction
  · cases hitem : datasetFor db request.gate with
    | none =>
      rw [hitem] at h
      have hreport := (Prod.mk.inj (Except.ok.inj h)).2
      rw [← hreport] at hproduction
      split at hproduction <;> cases hproduction
    | some item =>
      rw [hitem] at h
      dsimp only at h
      obtain ⟨hmem, hcovers⟩ := datasetFor_mem hitem
      split at h
      · next hvalid =>
        have hcertified : item.isCertified := certified_of_valid hvalid
        split at h
        · have hreport := (Prod.mk.inj (Except.ok.inj h)).2
          rw [← hreport] at hproduction ⊢
          obtain ⟨hid, hitem'⟩ := production_reportOrLake hproduction
          exact ⟨item, hmem, hid, hitem', hcertified, hcovers⟩
        · obtain ⟨ensured, _, heq⟩ := map_ok h
          have hreport := (Prod.mk.inj heq).2
          rw [← hreport] at hproduction ⊢
          obtain ⟨hid, hitem'⟩ := production_reportOrLake hproduction
          exact ⟨item, hmem, hid, hitem', hcertified, hcovers⟩
      · have hreport := (Prod.mk.inj (Except.ok.inj h)).2
        rw [← hreport] at hproduction
        unfold reportOrLake at hproduction
        split at hproduction
        · cases hproduction
        · simp [datasetReport] at hproduction

theorem Tracked.truthful (h : Tracked env s) {config : Config} {lake : Bool} {request : Request}
    {now : ℕ} (hsettled : Settled env s request) : Truthful env s config lake request now := by
  intro db report hread hproduction _ item hitem hid
  obtain ⟨found, hfound, hid', hfound', hcertified, hcovers⟩ := report_cases hread hproduction
  have hsame : item = found := h.keyed.eq hitem hfound (Option.some.inj (hid.symm.trans hid'))
  rw [hsame]
  obtain ⟨_, hlake | ⟨writer, hwriter, hpending, -, haffects⟩⟩ :=
    h.kept found hfound hfound' hcertified
  · exact hlake
  · exact absurd haffects (hsettled writer hwriter hpending found hfound hfound' hcertified hcovers)

theorem Tracked.after (actions : List (LakeAction β)) (h : Tracked env s)
    (haccepts : ((lakeMachine env).restrict (Unwatched env)).Accepts s actions) :
    Tracked env ((lakeMachine env).after s actions) := by
  have hstep : ∀ (t : State β ρ) action, Tracked env t →
      ((lakeMachine env).restrict (Unwatched env)).allowed t action →
        Tracked env (t.next env action) :=
    fun _ _ ht haction => ht.next haction.2
  exact Machine.invariant hstep actions s h haccepts

/-- Where every write covers the certified datasets that it affects, a read that meets no writer
between its two steps reports no changed data. -/
theorem reads_truthful (env : LakeEnv β ρ) (s : State β ρ) (hs : Unchanged env s)
    (actions : List (LakeAction β))
    (haccepts : ((lakeMachine env).restrict (Unwatched env)).Accepts s actions) :
    ∀ before config lake request now after,
      actions = before ++ .read config lake request now :: after →
        Truthful env ((lakeMachine env).after s before) config lake request now := by
  intro before config lake request now after hactions
  rw [hactions] at haccepts
  obtain ⟨hbefore, hread⟩ := (Machine.accepts_append before s _).mp haccepts
  exact (hs.tracked.after before hbefore).truthful hread.1.2

end Runs

/-! ## A writer that stops -/

/-- A lake whose parts are prepended. -/
def sampleLake : LakeEnv ℕ (List ℕ) where
  parquetDir := ["data".toList]
  md5 := fun _ _ => 0
  merge := fun part rows => part :: rows.getD []

/-- A registered dataset, whose version stands for its files. -/
def lakeDataset : Dataset :=
  newDataset "parquet-p1" "daily-p1" sampleScope "tushare-parquet-p1-1f3a" "1f3a" 1

/-- The established daily relation is there, and no scope has files of its own. -/
def lakeState : State ℕ (List ℕ) where
  db := ⟨[lakeDataset], []⟩
  lake := ⟨fun _ => some [], fun _ => none⟩
  certifiedRows := fun _ => none
  writers := []

theorem lakeState_unchanged : Unchanged sampleLake lakeState := by
  refine ⟨by decide, rfl, ?_⟩
  intro item hitem hproduction
  rw [List.mem_singleton.mp hitem] at hproduction
  cases hproduction

def sampleUpsert (venue : Option String) : UpsertCall :=
  ⟨true, "tushare", "equity", "china", venue, "daily", "trade", "raw"⟩

def serverConfig : Config := ⟨true, false⟩

/-- Both steps of a write come before the read, and the dataset is certified again. -/
def finishedRun : List (LakeAction ℕ) :=
  [.mark ["parquet-p1"] "qa-p1" 2, .read serverConfig true sampleRequest 3,
    .upsert (sampleUpsert none) [7], .step 0 4, .step 0 5,
    .read serverConfig true sampleRequest 6, .mark ["parquet-p1"] "qa-p2" 7,
    .read serverConfig true sampleRequest 8]

theorem finishedRun_truthful :
    Truthful sampleLake ((lakeMachine sampleLake).after lakeState (finishedRun.take 7))
      serverConfig true sampleRequest 8 :=
  reads_truthful sampleLake lakeState lakeState_unchanged finishedRun (by decide +kernel)
    (finishedRun.take 7) serverConfig true sampleRequest 8 [] rfl

/-- The writer dies after its files. -/
def stoppedRun : List (LakeAction ℕ) :=
  [.mark ["parquet-p1"] "qa-p1" 2, .upsert (sampleUpsert none) [7], .step 0 4]

/-- The writer finishes, and invalidates the venue that it names. -/
def otherVenueRun : List (LakeAction ℕ) :=
  [.mark ["parquet-p1"] "qa-p1" 2, .upsert (sampleUpsert (some "sse")) [7], .step 0 4, .step 0 5]

theorem not_truthful {s : State ℕ (List ℕ)} (item : Dataset) (report : CertificationReport)
    (hitem : item ∈ s.db.datasets)
    (hread : (sourceCertification serverConfig true s.db sampleRequest 6).toOption.map Prod.snd =
      some report) (hreport : report.isProduction ∧ report.isCertified ∧
        report.datasetId = some item.id)
    (hrows : s.lake.rows sampleLake item.scope ≠ s.certifiedRows item.id) :
    ¬ Truthful sampleLake s serverConfig true sampleRequest 6 := by
  intro h
  cases hresult : sourceCertification serverConfig true s.db sampleRequest 6 with
  | error error =>
    rw [hresult] at hread
    cases hread
  | ok result =>
    rw [hresult] at hread
    obtain rfl := Option.some.inj hread
    exact hrows (h result.1 result.2 hresult hreport.1 hreport.2.1 item hitem hreport.2.2)

theorem stoppedRun_hides :
    Unchanged sampleLake lakeState ∧
      ¬ Truthful sampleLake ((lakeMachine sampleLake).after lakeState stoppedRun) serverConfig true
        sampleRequest 6 ∧
      ¬ Truthful sampleLake ((lakeMachine sampleLake).after lakeState otherVenueRun) serverConfig
        true sampleRequest 6 := by
  refine ⟨lakeState_unchanged, ?_, ?_⟩ <;>
  · refine not_truthful (markDataset ["parquet-p1"] "qa-p1" 2 lakeDataset)
      (datasetReport (markDataset ["parquet-p1"] "qa-p1" 2 lakeDataset) true
        (some (newRelease lakeDataset (sampleCall "tushare-parquet-p1-1f3a" "1f3a" 6)))) ?_ ?_ ?_ ?_
    all_goals decide +kernel

end LocalPlatform.Certification
