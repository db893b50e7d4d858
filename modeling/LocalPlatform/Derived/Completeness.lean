import LocalPlatform.Derived.Batches

/-!
# When a ready mirror is complete

* `Synced` is what a run keeps: the mirror has no keys but those of the lake, and whatever it misses
  is dated from the watermark on and can be sent.
* `Steady` is the condition on a run: nothing new is written below the watermark, nothing that is
  skipped or asked for under another symbol, and no run resumes past a unit that has got new rows.
-/

namespace LocalPlatform.Derived

open Tables Machines Replicas

/-! ## The promise and the condition -/

/-- Of every date there are as many rows in the mirror as in the lake. -/
def Complete (canonical : List Bar) (mirror : List Quote) : Prop :=
  ∀ date, scopeDateCount mirror date = canonicalDateCount canonical date

section Promise

variable (normalizeQuerySymbol : String → Option String)

def Worked (results : List (Layer × UnitResult)) : Prop :=
  ∃ result, (.clickhouse, result) ∈ results ∧ result ≠ .checkpointSkipped

/-- What an execution leaves as ready, or skips as done and succeeds, is complete. -/
structure Sound (s : State) (runId : String) (execution : Execution) : Prop where
  ready : Worked (runMaintenance normalizeQuerySymbol execution runId s).2.results →
    (runMaintenance normalizeQuerySymbol execution runId s).1.watermark.map Watermark.status =
        some .ready →
      Complete s.canonical (runMaintenance normalizeQuerySymbol execution runId s).1.mirror
  skipped : (runMaintenance normalizeQuerySymbol execution runId s).2.returned = some .success →
    (.clickhouse, .checkpointSkipped) ∈
        (runMaintenance normalizeQuerySymbol execution runId s).2.results →
      Complete s.canonical (runMaintenance normalizeQuerySymbol execution runId s).1.mirror

/-- A row that comes to the lake: new ones are not below the watermark, and from there on they have
prices. -/
def Orderly (s : State) (bar : Bar) : Prop :=
  normalizeQuerySymbol bar.symbol = some bar.symbol ∧
    ∀ watermark ∈ s.watermark, ∀ materializedEnd ∈ watermark.materializedEnd,
      (bar.key ∉ s.canonical.map Bar.key → materializedEnd ≤ bar.tradeDate) ∧
        (materializedEnd ≤ bar.tradeDate → Priced bar)

/-- The run has not completed the unit, or no rows are new since it did. -/
def Resumable (s : State) (runId : String) : Prop :=
  ∀ run ∈ find MaintenanceRun.id s.runs runId, .clickhouse ∈ run.completedUnits →
    ∀ bar ∈ s.canonical, bar.key ∈ (s.completedRows runId).map Bar.key

def Steady (s : State) : Action → Prop
  | .write bars => ∀ bar ∈ bars, Orderly normalizeQuerySymbol s bar
  | .create _ _ _ => True
  | .execute runId _ => Resumable s runId

/-- What holds before any maintenance. -/
structure Started (s : State) : Prop where
  canonical : Unique Bar.key s.canonical
  mirror : Unique Quote.key s.mirror
  runs : Unique MaintenanceRun.id s.runs
  within : Within Bar.key Quote.key s.canonical s.mirror
  symbols : ∀ bar ∈ s.canonical, normalizeQuerySymbol bar.symbol = some bar.symbol
  watermark : s.watermark = none
  completed : ∀ run ∈ s.runs, run.completedUnits = []

end Promise

theorem complete_of_covered {canonical : List Bar} {mirror : List Quote}
    (hcanonical : Unique Bar.key canonical) (hmirror : Unique Quote.key mirror)
    (hwithin : Within Bar.key Quote.key canonical mirror)
    (hcovered : Covered Bar.key Quote.key canonical mirror) : Complete canonical mirror := by
  intro date
  exact countP_eq_of_covered hcanonical hmirror hwithin hcovered (fun k => k.2 = date)

/-! ## What an execution keeps -/

section Executions

variable {normalizeQuerySymbol : String → Option String} {s : State}

/-- What the mirror misses of the lake comes from the watermark on and has prices. -/
def Behind (canonical : List Bar) (mirror : List Quote) (materializedEnd : Option ℕ) : Prop :=
  ∀ date ∈ materializedEnd, ∀ bar ∈ canonical,
    bar.key ∈ mirror.map Quote.key ∨ date ≤ bar.tradeDate ∧ Priced bar

structure Synced (normalizeQuerySymbol : String → Option String) (s : State) : Prop where
  canonical : Unique Bar.key s.canonical
  mirror : Unique Quote.key s.mirror
  runs : Unique MaintenanceRun.id s.runs
  within : Within Bar.key Quote.key s.canonical s.mirror
  symbols : ∀ bar ∈ s.canonical, normalizeQuerySymbol bar.symbol = some bar.symbol
  behind : Behind s.canonical s.mirror (s.watermark.bind Watermark.materializedEnd)
  completed : ∀ run ∈ s.runs, .clickhouse ∈ run.completedUnits →
    ∀ k ∈ (s.completedRows run.id).map Bar.key, k ∈ s.mirror.map Quote.key

theorem Started.synced (h : Started normalizeQuerySymbol s) : Synced normalizeQuerySymbol s := by
  refine ⟨h.canonical, h.mirror, h.runs, h.within, h.symbols, ?_, ?_⟩
  · rw [h.watermark]
    exact fun _ hdate => absurd hdate (Option.not_mem_none _)
  · intro run hrun hcompleted
    rw [h.completed run hrun] at hcompleted
    exact absurd hcompleted List.not_mem_nil

theorem Behind.of_covered {canonical : List Bar} {mirror : List Quote}
    (h : Covered Bar.key Quote.key canonical mirror) (materializedEnd : Option ℕ) :
    Behind canonical mirror materializedEnd :=
  fun _ _ bar hbar => Or.inl (h bar hbar)

theorem Behind.grown {canonical : List Bar} {mirror mirror' : List Quote}
    {materializedEnd : Option ℕ} (h : Behind canonical mirror materializedEnd)
    (hgrown : Grown canonical mirror mirror') : Behind canonical mirror' materializedEnd :=
  fun date hdate bar hbar => (h date hdate bar hbar).imp_left (hgrown.keeps _)

theorem Synced.prior (h : Synced normalizeQuerySymbol s) (service : ClickHouse) :
    Behind s.canonical s.mirror (s.prior service).materializedEnd := by
  unfold State.prior
  have hbehind := h.behind
  cases hwatermark : s.watermark with
  | some watermark =>
    rw [hwatermark] at hbehind
    exact hbehind
  | none =>
    dsimp only
    unfold existingLayerSeed
    split
    · next hseed =>
      exact Behind.of_covered (covered_of_stats h.mirror h.within hseed.2.2) _
    · exact fun _ hdate => absurd hdate (Option.not_mem_none _)

theorem end_of_prior (s : State) (service : ClickHouse) (stats : Stats)
    (status status' : LayerStatus) :
    (upsertWatermark (some (upsertWatermark s.watermark
      (priorWatermark stats (s.prior service) status)))
        (priorWatermark stats (s.prior service) status')).materializedEnd =
      (s.prior service).materializedEnd := by
  unfold upsertWatermark priorWatermark State.prior
  cases s.watermark with
  | some watermark => simp
  | none => simp

theorem endWatermark_ready {stored : Option Watermark} {stats : Stats} {prior : Prior}
    {reply : Reply} :
    (upsertWatermark stored (endWatermark stats prior reply)).status = .ready ↔ reply = .ready := by
  cases reply <;> simp [endWatermark, upsertWatermark, priorWatermark, readyWatermark]

theorem clickhouseUnit_spec (h : Synced normalizeQuerySymbol s) (service : ClickHouse) :
    ∃ mirror watermark, (clickhouseUnit normalizeQuerySymbol service s).1 =
        { s with mirror := mirror, watermark := some watermark } ∧
      Grown s.canonical s.mirror mirror ∧
      (watermark.status = .ready ↔ (clickhouseUnit normalizeQuerySymbol service s).2 = .ready) ∧
      (watermark.status = .ready → Covered Bar.key Quote.key s.canonical mirror) ∧
      Behind s.canonical mirror watermark.materializedEnd := by
  have hspec := incremental_spec h.symbols service s.mirror (s.prior service).materializedEnd
  refine ⟨_, _, rfl, hspec.1, endWatermark_ready, ?_, ?_⟩
  · intro hready
    exact hspec.2 (endWatermark_ready.mp hready) h.mirror h.within (h.prior service)
  · have hbehind := (h.prior service).grown hspec.1
    cases hreply : (clickhouseIncremental normalizeQuerySymbol service s.canonical s.mirror
        (s.prior service).materializedEnd).2 with
    | ready => exact Behind.of_covered (hspec.2 hreply h.mirror h.within (h.prior service)) _
    | failed | raised | disabled =>
      unfold endWatermark
      rw [end_of_prior]
      exact hbehind

theorem Synced.unit (h : Synced normalizeQuerySymbol s) {mirror : List Quote}
    {watermark : Watermark} (hgrown : Grown s.canonical s.mirror mirror)
    (hbehind : Behind s.canonical mirror watermark.materializedEnd) :
    Synced normalizeQuerySymbol { s with mirror := mirror, watermark := some watermark } :=
  ⟨h.canonical, hgrown.unique h.mirror, h.runs, hgrown.within h.within, h.symbols, hbehind,
    fun run hrun hcompleted k hk => hgrown.keeps k (h.completed run hrun hcompleted k hk)⟩

/-- What holds while the layers of a run are worked on. -/
structure Going (normalizeQuerySymbol : String → Option String) (s : State) (runId : String)
    (progress : Progress) : Prop where
  synced : Synced normalizeQuerySymbol progress.state
  canonical : progress.state.canonical = s.canonical
  runs : progress.state.runs = s.runs
  covered : .clickhouse ∈ progress.completed →
    Covered Bar.key Quote.key s.canonical progress.state.mirror
  rows : .clickhouse ∈ progress.completed →
    ∀ k ∈ (progress.state.completedRows runId).map Bar.key,
      k ∈ progress.state.mirror.map Quote.key
  ready : Worked progress.results →
    progress.state.watermark.map Watermark.status = some .ready →
      Covered Bar.key Quote.key s.canonical progress.state.mirror
  skipped : (.clickhouse, .checkpointSkipped) ∈ progress.results →
    Covered Bar.key Quote.key s.canonical progress.state.mirror

theorem worked_append {results : List (Layer × UnitResult)} {layer : Layer} {result : UnitResult}
    (h : Worked (results ++ [(layer, result)])) :
    Worked results ∨ layer = .clickhouse ∧ result ≠ .checkpointSkipped := by
  obtain ⟨other, hmem, hother⟩ := h
  rcases List.mem_append.mp hmem with hold | hnew
  · exact Or.inl ⟨other, hold, hother⟩
  · obtain ⟨rfl, rfl⟩ := Prod.mk.inj (List.mem_singleton.mp hnew)
    exact Or.inr ⟨rfl, hother⟩

variable {runId : String}

theorem Going.layer {progress : Progress} (h : Going normalizeQuerySymbol s runId progress)
    (execution : Execution) (layer : Layer) :
    Going normalizeQuerySymbol s runId
      (runLayer normalizeQuerySymbol execution runId progress layer) := by
  unfold runLayer
  split
  · next hdone =>
    refine ⟨h.synced, h.canonical, h.runs, h.covered, h.rows, ?_, ?_⟩
    · intro hworked hstatus
      rcases worked_append hworked with hworked | ⟨_, hresult⟩
      · exact h.ready hworked hstatus
      · exact absurd rfl hresult
    · intro hresult
      cases layer with
      | clickhouse => exact h.covered hdone
      | parquet =>
        apply h.skipped
        simpa [Progress.report] using hresult
  · next hfresh =>
    cases layer with
    | parquet =>
      dsimp only
      split
      · refine ⟨h.synced, h.canonical, h.runs, ?_, ?_, ?_, ?_⟩
        · intro hmem
          exact h.covered (by simpa [Progress.complete] using hmem)
        · intro hmem
          exact h.rows (by simpa [Progress.complete] using hmem)
        · intro hworked hstatus
          rcases worked_append hworked with hworked | ⟨hlayer, _⟩
          · exact h.ready hworked hstatus
          · cases hlayer
        · intro hresult
          exact h.skipped (by simpa [Progress.complete] using hresult)
      · exact ⟨h.synced, h.canonical, h.runs, h.covered, h.rows, h.ready, h.skipped⟩
    | clickhouse =>
      obtain ⟨mirror, watermark, hunit, hgrown, hstatus, hready, hbehind⟩ :=
        clickhouseUnit_spec h.synced execution.service
      have hsynced := h.synced.unit hgrown hbehind
      rw [h.canonical] at hgrown hready
      -- Whatever is reported, a watermark that says ready covers the lake.
      have hwatermark : (some watermark).map Watermark.status = some .ready →
          Covered Bar.key Quote.key s.canonical mirror :=
        fun h => hready (Option.some.inj h)
      have hcovered : .clickhouse ∈ progress.completed →
          Covered Bar.key Quote.key s.canonical mirror :=
        fun hmem => hgrown.covered (h.covered hmem)
      have hrows : .clickhouse ∈ progress.completed →
          ∀ k ∈ (progress.state.completedRows runId).map Bar.key, k ∈ mirror.map Quote.key :=
        fun hmem k hk => hgrown.keeps k (h.rows hmem k hk)
      have hskipped : (.clickhouse, .checkpointSkipped) ∈ progress.results →
          Covered Bar.key Quote.key s.canonical mirror := fun hr => hgrown.covered (h.skipped hr)
      dsimp only
      rw [hunit]
      cases hreply : (clickhouseUnit normalizeQuerySymbol execution.service progress.state).2 with
      | raised =>
        exact ⟨hsynced, h.canonical, h.runs, hcovered, hrows, fun _ => hwatermark, hskipped⟩
      | failed | disabled =>
        refine ⟨hsynced, h.canonical, h.runs, hcovered, hrows, fun _ => hwatermark, ?_⟩
        intro hresult
        exact hskipped (by simpa [Progress.report] using hresult)
      | ready =>
        have hall := hready (hstatus.mpr hreply)
        have hkeys : ∀ k ∈ progress.state.canonical.map Bar.key, k ∈ mirror.map Quote.key := by
          intro k hk
          obtain ⟨bar, hbar, rfl⟩ := List.mem_map.mp hk
          rw [h.canonical] at hbar
          exact hall bar hbar
        refine ⟨⟨hsynced.canonical, hsynced.mirror, hsynced.runs, hsynced.within, hsynced.symbols,
          hsynced.behind, ?_⟩, h.canonical, h.runs, fun _ => hall, ?_, fun _ _ => hall,
          fun _ => hall⟩
        · intro run hrun hcompleted k hk
          dsimp only [Progress.complete] at hk
          split at hk
          · exact hkeys k hk
          · exact hsynced.completed run hrun hcompleted k hk
        · intro _ k hk
          dsimp only [Progress.complete] at hk
          rw [if_pos rfl] at hk
          exact hkeys k hk

theorem Going.layers (execution : Execution) (layers : List Layer) :
    ∀ {progress : Progress}, Going normalizeQuerySymbol s runId progress →
      Going normalizeQuerySymbol s runId
        (layers.foldl (runLayer normalizeQuerySymbol execution runId) progress) := by
  induction layers with
  | nil => exact fun h => h
  | cons layer layers ih => exact fun h => ih (h.layer execution layer)

variable {run : MaintenanceRun}

theorem going_start (h : Synced normalizeQuerySymbol s)
    (hrun : find MaintenanceRun.id s.runs run.id = some run) (hresumable : Resumable s run.id) :
    Going normalizeQuerySymbol s run.id ⟨s, run.completedUnits, [], false⟩ := by
  have hrows := h.completed run (mem_of_find hrun)
  refine ⟨h, rfl, rfl, ?_, hrows, ?_, ?_⟩
  · intro hmem bar hbar
    exact hrows hmem _ (hresumable run hrun hmem bar hbar)
  · rintro ⟨_, hresult, _⟩
    cases hresult
  · intro hresult
    cases hresult

theorem going_runLayers
    (hstart : Going normalizeQuerySymbol s run.id ⟨s, run.completedUnits, [], false⟩)
    (execution : Execution) :
    Going normalizeQuerySymbol s run.id (runLayers normalizeQuerySymbol execution run s) := by
  unfold runLayers
  dsimp only
  split
  · exact hstart
  · exact hstart.layers execution _

theorem Going.finish {progress : Progress} (h : Going normalizeQuerySymbol s run.id progress)
    (hrun : find MaintenanceRun.id s.runs run.id = some run) (now : ℕ) (errors : Bool) :
    Synced normalizeQuerySymbol
      (progress.state.putRun (run.finish now progress.completed errors)) := by
  have hmem : run ∈ progress.state.runs := by
    rw [h.runs]
    exact mem_of_find hrun
  refine ⟨h.synced.canonical, h.synced.mirror, ?_, h.synced.within, h.synced.symbols,
    h.synced.behind, ?_⟩
  · apply h.synced.runs.map
    intro other _
    split
    · next hsame => exact hsame.symm
    · rfl
  · intro other hother hcompleted
    obtain ⟨old, hold, rfl⟩ := List.mem_map.mp hother
    by_cases hsame : old.id = (run.finish now progress.completed errors).id
    · rw [if_pos hsame] at hcompleted ⊢
      exact h.rows hcompleted
    · rw [if_neg hsame] at hcompleted ⊢
      exact h.synced.completed old hold hcompleted

theorem sound_of_silent {execution : Execution}
    (h : (runMaintenance normalizeQuerySymbol execution runId s).2.results = []) :
    Sound normalizeQuerySymbol s runId execution := by
  constructor
  · rw [h]
    rintro ⟨_, hresult, _⟩
    cases hresult
  · rw [h]
    exact fun _ hresult => absurd hresult List.not_mem_nil

/-- An execution is sound, and keeps what a run keeps. -/
theorem Synced.execute (h : Synced normalizeQuerySymbol s) (execution : Execution)
    (hresumable : Resumable s runId) :
    Synced normalizeQuerySymbol (runMaintenance normalizeQuerySymbol execution runId s).1 ∧
      Sound normalizeQuerySymbol s runId execution := by
  cases hfind : find MaintenanceRun.id s.runs runId with
  | none =>
    have hresult : runMaintenance normalizeQuerySymbol execution runId s = (s, ⟨none, []⟩) := by
      unfold runMaintenance
      rw [hfind]
    refine ⟨by rw [hresult]; exact h, sound_of_silent (by rw [hresult])⟩
  | some run =>
    have hid : run.id = runId := find_key hfind
    subst hid
    have hstart := going_start h hfind hresumable
    have hgoing := going_runLayers hstart execution
    by_cases hdue : run.status = .retryWait ∧ ∃ retryAt ∈ run.nextRetryAt, execution.now < retryAt
    · have hresult : runMaintenance normalizeQuerySymbol execution run.id s =
          (s, ⟨some run.status, []⟩) := by
        unfold runMaintenance
        rw [hfind]
        exact if_pos hdue
      refine ⟨by rw [hresult]; exact h, sound_of_silent (by rw [hresult])⟩
    · have hresult : runMaintenance normalizeQuerySymbol execution run.id s =
          runLocked normalizeQuerySymbol execution run s := by
        unfold runMaintenance
        rw [hfind]
        exact if_neg hdue
      by_cases hsuccess : run.status = .success
      · have hlocked : runLocked normalizeQuerySymbol execution run s =
            (s, ⟨some .success, []⟩) := if_pos hsuccess
        rw [hlocked] at hresult
        exact ⟨by rw [hresult]; exact h, sound_of_silent (by rw [hresult])⟩
      · by_cases hfirst : execution.elsewhere = .raisesFirst
        · have hlocked : runLocked normalizeQuerySymbol execution run s =
              (s.putRun (run.finish execution.now run.completedUnits true), ⟨none, []⟩) :=
            (if_neg hsuccess).trans (if_pos hfirst)
          rw [hlocked] at hresult
          refine ⟨?_, sound_of_silent (by rw [hresult])⟩
          rw [hresult]
          exact hstart.finish hfind execution.now true
        · -- The layers are worked on, and whatever comes after them changes the run only.
          have hlocked : ∃ errors returned, runLocked normalizeQuerySymbol execution run s =
              ((runLayers normalizeQuerySymbol execution run s).state.putRun
                (run.finish execution.now
                  (runLayers normalizeQuerySymbol execution run s).completed errors),
                ⟨returned, (runLayers normalizeQuerySymbol execution run s).results⟩) := by
            unfold runLocked
            rw [if_neg hsuccess, if_neg hfirst]
            dsimp only
            split
            · exact ⟨true, none, rfl⟩
            · exact ⟨_, _, rfl⟩
          obtain ⟨errors, returned, hlocked⟩ := hlocked
          rw [hlocked] at hresult
          have hcomplete : Covered Bar.key Quote.key s.canonical
              (runLayers normalizeQuerySymbol execution run s).state.mirror →
                Complete s.canonical
                  (runLayers normalizeQuerySymbol execution run s).state.mirror := by
            intro hcovered
            have hwithin := hgoing.synced.within
            rw [hgoing.canonical] at hwithin
            exact complete_of_covered h.canonical hgoing.synced.mirror hwithin hcovered
          refine ⟨by rw [hresult]; exact hgoing.finish hfind execution.now errors, ?_⟩
          constructor
          · rw [hresult]
            exact fun hworked hstatus => hcomplete (hgoing.ready hworked hstatus)
          · rw [hresult]
            exact fun _ hskipped => hcomplete (hgoing.skipped hskipped)

theorem Synced.write (h : Synced normalizeQuerySymbol s) {bars : List Bar}
    (horderly : ∀ bar ∈ bars, Orderly normalizeQuerySymbol s bar) :
    Synced normalizeQuerySymbol { s with canonical := upsertRows s.canonical bars } := by
  have hmem : ∀ bar ∈ upsertRows s.canonical bars, bar ∈ bars ∨ bar ∈ s.canonical :=
    fun bar hbar => mem_putAll hbar
  refine ⟨unique_putAll bars h.canonical, h.mirror, h.runs, ?_, ?_, ?_, h.completed⟩
  · intro quote hquote
    unfold upsertRows
    rw [mem_keys_putAll]
    exact Or.inr (h.within quote hquote)
  · intro bar hbar
    rcases hmem bar hbar with hnew | hold
    · exact (horderly bar hnew).1
    · exact h.symbols bar hold
  · intro date hdate bar hbar
    rcases hmem bar hbar with hnew | hold
    · obtain ⟨watermark, hwatermark, hend⟩ := Option.bind_eq_some_iff.mp hdate
      obtain ⟨hfresh, hpriced⟩ := (horderly bar hnew).2 watermark hwatermark date hend
      by_cases hkey : bar.key ∈ s.canonical.map Bar.key
      · -- A correction: the row that it replaces is mirrored, or is from the watermark on.
        obtain ⟨old, hold, hsame⟩ := List.mem_map.mp hkey
        rcases h.behind date hdate old hold with hin | ⟨hlate, _⟩
        · rw [← hsame]
          exact Or.inl hin
        · have hdates : old.tradeDate = bar.tradeDate := (Prod.mk.inj hsame).2
          rw [hdates] at hlate
          exact Or.inr ⟨hlate, hpriced hlate⟩
      · exact Or.inr ⟨hfresh hkey, hpriced (hfresh hkey)⟩
    · exact h.behind date hdate bar hold

theorem Synced.create (h : Synced normalizeQuerySymbol s)
    (hfresh : find MaintenanceRun.id s.runs runId = none) (requested : List Layer) (maxAttempts : ℕ) :
    Synced normalizeQuerySymbol
      { s with runs := s.runs ++ [newRun runId requested maxAttempts] } := by
  refine ⟨h.canonical, h.mirror, h.runs.append_singleton hfresh, h.within, h.symbols, h.behind, ?_⟩
  intro run hrun hcompleted
  rcases List.mem_append.mp hrun with hold | hnew
  · exact h.completed run hold hcompleted
  · rw [List.mem_singleton.mp hnew] at hcompleted
    cases hcompleted

theorem Synced.next (h : Synced normalizeQuerySymbol s) {action : Action} (hfresh : Fresh s action)
    (hsteady : Steady normalizeQuerySymbol s action) :
    Synced normalizeQuerySymbol (s.next normalizeQuerySymbol action) := by
  cases action with
  | write bars => exact h.write hsteady
  | create runId requested maxAttempts => exact h.create hfresh requested maxAttempts
  | execute runId execution => exact (h.execute execution hsteady).1

/-- In a steady run every execution is sound. -/
theorem executions_sound (normalizeQuerySymbol : String → Option String) (s : State)
    (hs : Started normalizeQuerySymbol s) (actions : List Action)
    (haccepts : ((maintenance normalizeQuerySymbol).restrict (Steady normalizeQuerySymbol)).Accepts
      s actions) :
    ∀ before runId execution after, actions = before ++ .execute runId execution :: after →
      Sound normalizeQuerySymbol ((maintenance normalizeQuerySymbol).after s before) runId
        execution := by
  intro before runId execution after hactions
  rw [hactions] at haccepts
  obtain ⟨hbefore, hexecute⟩ := (Machine.accepts_append before s _).mp haccepts
  have hstep : ∀ (t : State) action, Synced normalizeQuerySymbol t →
      ((maintenance normalizeQuerySymbol).restrict (Steady normalizeQuerySymbol)).allowed t action →
        Synced normalizeQuerySymbol (t.next normalizeQuerySymbol action) :=
    fun _ _ ht haction => ht.next haction.1 haction.2
  have hsynced : Synced normalizeQuerySymbol
      ((maintenance normalizeQuerySymbol).after s before) :=
    Machine.invariant hstep before s hs.synced hbefore
  exact (hsynced.execute execution hexecute.1.2).2

/-! ## Runs of any kind -/

/-- The lake stays, and the mirror gains keys of it only. -/
def Gains (s t : State) : Prop := t.canonical = s.canonical ∧ Grown s.canonical s.mirror t.mirror

def OwnSymbols (normalizeQuerySymbol : String → Option String) (bars : List Bar) : Prop :=
  ∀ bar ∈ bars, normalizeQuerySymbol bar.symbol = some bar.symbol

theorem Gains.layers (hsymbols : OwnSymbols normalizeQuerySymbol s.canonical)
    (execution : Execution) (runId : String) (layers : List Layer) : ∀ {progress : Progress},
      Gains s progress.state → Gains s
        (layers.foldl (runLayer normalizeQuerySymbol execution runId) progress).state := by
  induction layers with
  | nil => exact fun h => h
  | cons layer layers ih =>
    intro progress h
    apply ih
    have hunit : Gains s (clickhouseUnit normalizeQuerySymbol execution.service progress.state).1 := by
      refine ⟨h.1, h.2.trans ?_⟩
      rw [← h.1] at hsymbols ⊢
      exact (incremental_spec hsymbols execution.service _ _).1
    unfold runLayer
    split
    · exact h
    · cases layer with
      | parquet =>
        dsimp only
        split <;> exact h
      | clickhouse =>
        dsimp only
        split <;> exact hunit

theorem gains_execute (hsymbols : OwnSymbols normalizeQuerySymbol s.canonical)
    (execution : Execution) (runId : String) :
    Gains s (runMaintenance normalizeQuerySymbol execution runId s).1 := by
  have hsame : Gains s s := ⟨rfl, Grown.refl⟩
  unfold runMaintenance
  split
  · exact hsame
  · rename_i run _
    have hlayers : Gains s (runLayers normalizeQuerySymbol execution run s).state := by
      unfold runLayers
      dsimp only
      split
      · exact hsame
      · exact Gains.layers hsymbols execution run.id _ hsame
    unfold runLocked
    dsimp only
    split_ifs
    · exact hsame
    · exact hsame
    · exact hsame
    · exact hlayers
    · exact hlayers

/-- In every run, whatever is written late and whichever executions fail, the mirror keeps its keys
and has none but those of the lake. -/
theorem mirror_within {actions : List Action} : ∀ {s : State}, Unique Quote.key s.mirror →
    Within Bar.key Quote.key s.canonical s.mirror → OwnSymbols normalizeQuerySymbol s.canonical →
    (∀ bars, .write bars ∈ actions → OwnSymbols normalizeQuerySymbol bars) →
    let t := (maintenance normalizeQuerySymbol).after s actions
    Unique Quote.key t.mirror ∧ Within Bar.key Quote.key t.canonical t.mirror ∧
      ∀ k ∈ s.mirror.map Quote.key, k ∈ t.mirror.map Quote.key := by
  induction actions with
  | nil => exact fun hmirror hwithin _ _ => ⟨hmirror, hwithin, fun _ hk => hk⟩
  | cons action actions ih =>
    intro s hmirror hwithin hsymbols hwrites
    have hrest := fun bars hmem => hwrites bars (List.mem_cons_of_mem action hmem)
    cases action with
    | write bars =>
      refine ih hmirror (fun quote hquote => ?_) (fun bar hbar => ?_) hrest
      · exact (mem_keys_putAll ..).mpr (Or.inr (hwithin quote hquote))
      · exact (mem_putAll hbar).elim (hwrites bars List.mem_cons_self bar) (hsymbols bar)
    | create runId requested maxAttempts => exact ih hmirror hwithin hsymbols hrest
    | execute runId execution =>
      obtain ⟨hcanonical, hgrown⟩ := gains_execute hsymbols execution runId
      have hafter := hgrown.within hwithin
      rw [← hcanonical] at hafter hsymbols
      obtain ⟨hunique, hkeys, hkept⟩ := ih (hgrown.unique hmirror) hafter hsymbols hrest
      exact ⟨hunique, hkeys, fun k hk => hkept k (hgrown.keeps k hk)⟩

end Executions

/-! ## A backfill -/

instance (normalizeQuerySymbol : String → Option String) (s : State) (bar : Bar) :
    Decidable (Orderly normalizeQuerySymbol s bar) := inferInstanceAs (Decidable (_ ∧ _))

instance (s : State) (runId : String) : Decidable (Resumable s runId) :=
  inferInstanceAs (Decidable (∀ run ∈ _, _ → _))

instance (normalizeQuerySymbol : String → Option String) (s : State) (action : Action) :
    Decidable (Steady normalizeQuerySymbol s action) :=
  match action with
  | .write bars =>
    inferInstanceAs (Decidable (∀ bar ∈ bars, Orderly normalizeQuerySymbol s bar))
  | .create _ _ _ => .isTrue trivial
  | .execute runId _ => inferInstanceAs (Decidable (Resumable s runId))

instance (normalizeQuerySymbol : String → Option String) (s : State) (action : Action) :
    Decidable ((maintenance normalizeQuerySymbol).allowed s action) :=
  match action with
  | .create runId _ _ =>
    inferInstanceAs (Decidable (find MaintenanceRun.id s.runs runId = none))
  | .write _ | .execute _ _ => .isTrue trivial

def sampleBar (date : ℕ) : Bar := ⟨"600519", date, some 10, some 11, some 9, some 10, some 100⟩

def sampleSymbol (symbol : String) : Option String := if symbol = "" then none else some symbol

def sampleService : ClickHouse := ⟨true, true, true, true, fun _ => .inserted⟩

def sampleExecution (now : ℕ) : Execution := ⟨now, sampleService, true, .fine⟩

def emptyState : State := ⟨[], [], none, [], fun _ => []⟩

theorem emptyState_started : Started sampleSymbol emptyState := by
  refine ⟨List.nodup_nil, List.nodup_nil, List.nodup_nil, ?_, ?_, rfl, ?_⟩
  · exact fun quote hquote => absurd hquote List.not_mem_nil
  · exact fun bar hbar => absurd hbar List.not_mem_nil
  · exact fun run hrun => absurd hrun List.not_mem_nil

/-- Two executions, with a newer date between them. -/
def newerRun : List Action :=
  [.write [sampleBar 2, sampleBar 3], .create "run-1" [] 5, .execute "run-1" (sampleExecution 10),
    .write [sampleBar 4], .create "run-2" [] 5, .execute "run-2" (sampleExecution 20)]

theorem newerRun_sound : Sound sampleSymbol
    ((maintenance sampleSymbol).after emptyState (newerRun.take 5)) "run-2" (sampleExecution 20) :=
  executions_sound sampleSymbol emptyState emptyState_started newerRun (by decide +kernel)
    (newerRun.take 5) "run-2" (sampleExecution 20) [] rfl

/-- Two executions, with an older date between them. -/
def backfillRun : List Action :=
  [.write [sampleBar 2, sampleBar 3], .create "run-1" [] 5, .execute "run-1" (sampleExecution 10),
    .write [sampleBar 1], .create "run-2" [] 5]

theorem backfillRun_incomplete :
    Started sampleSymbol emptyState ∧
      (maintenance sampleSymbol).Accepts emptyState backfillRun ∧
      ¬ Sound sampleSymbol ((maintenance sampleSymbol).after emptyState backfillRun) "run-2"
        (sampleExecution 20) := by
  refine ⟨emptyState_started, by decide +kernel, fun h => ?_⟩
  have hresults : (runMaintenance sampleSymbol (sampleExecution 20) "run-2"
      ((maintenance sampleSymbol).after emptyState backfillRun)).2.results =
        [(.parquet, .ready), (.clickhouse, .ready)] := by
    decide +kernel
  have hworked : Worked (runMaintenance sampleSymbol (sampleExecution 20) "run-2"
      ((maintenance sampleSymbol).after emptyState backfillRun)).2.results := by
    rw [hresults]
    exact ⟨.ready, by decide, by decide⟩
  have hcount := h.ready hworked (by decide +kernel) 1
  have hcounts : scopeDateCount (runMaintenance sampleSymbol (sampleExecution 20) "run-2"
      ((maintenance sampleSymbol).after emptyState backfillRun)).1.mirror 1 = 0 ∧
        canonicalDateCount ((maintenance sampleSymbol).after emptyState backfillRun).canonical 1 =
          1 := by
    decide +kernel
  rw [hcounts.1, hcounts.2] at hcount
  cases hcount

theorem mirror_within_backfill : Within Bar.key Quote.key
    ((maintenance sampleSymbol).after emptyState backfillRun).canonical
    ((maintenance sampleSymbol).after emptyState backfillRun).mirror := by
  refine (mirror_within emptyState_started.mirror emptyState_started.within
    emptyState_started.symbols ?_).2.1
  simp [backfillRun, OwnSymbols, sampleBar, sampleSymbol]

end LocalPlatform.Derived
