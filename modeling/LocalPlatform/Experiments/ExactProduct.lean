import LocalPlatform.Experiments.Expansion
import Mathlib.Data.List.Dedup

/-!
# An experiment is an exact product

* `itemsOf_spec`: the items are the places of the product, in the order of the loops.
* `itemKey_inj`: a key determines the project, the symbol, the window and the candidate key.  The
  ids of the stored projects have no colon, a symbol has no small letter, and a phase begins with
  one.
* `Exact` is what an expansion promises, and `expand_exact` says when it does: outside a dynamic
  universe, and where the values of the grids can be told apart (`CandidatesTold`).
-/

namespace LocalPlatform.Experiments.Expansion

open Paper Products Dates Results
open Experiments.Grids Experiments.Folds Tables
open Decimals (readNat readNat_toDigits isDigit_toDigits)

variable {F β : Type} {env : Environment F β} {config : Config F}

/-! ## The promise -/

/-- What names the candidate of an item: the window and the candidate key. -/
def Item.candidate (item : Item F β) : String × String × Option (WindowSpec × String) :=
  (item.project, item.symbol, item.added.map (fun added => (added.window, added.candidateKey)))

/-- The items are exactly the product, and each has a key of its own. -/
structure Exact (env : Environment F β) (config : Config F) (items : List (Item F β))
    (selection : Selection) : Prop where
  product : ∃ inputs, readInputs env config = some (.ok inputs) ∧ selection = inputs.selection ∧
    items.map Item.place = (inputs.places config).map some
  once : (items.map Item.place).Nodup
  keys : (items.map Item.key).Nodup
  candidates : (items.map Item.candidate).Nodup

/-- The values of every grid that is read can be told apart, unless there is no window. -/
def CandidatesTold (env : Environment F β) (config : Config F) : Prop :=
  ∀ inputs, readInputs env config = some (.ok inputs) → inputs.windows ≠ [] →
    ∀ grid, some grid ∈ inputs.grids → ToldApart env.numbers grid

/-! ## What is read -/

theorem addProjects_ok {known : String → Bool} {values result projects : List String}
    (hresult : result.Nodup ∧ ∀ project ∈ result, known project = true)
    (h : values.foldlM (addProject known) result = .ok projects) :
    projects.Nodup ∧ ∀ project ∈ projects, known project = true := by
  induction values generalizing result with
  | nil => exact Except.ok.inj h ▸ hresult
  | cons value values ih =>
    rw [List.foldlM_cons] at h
    obtain ⟨next, hnext, hrest⟩ := bind_ok h
    refine ih ?_ hrest
    unfold addProject at hnext
    dsimp only at hnext
    split_ifs at hnext with hnew hexists
    · rw [← Except.ok.inj hnext]
      refine ⟨hresult.1.append (List.nodup_singleton _) (by simpa using hnew.2), ?_⟩
      intro project hproject
      rcases List.mem_append.mp hproject with hold | hlast
      · exact hresult.2 project hold
      · rwa [List.mem_singleton.mp hlast]
    · exact Except.ok.inj hnext ▸ hresult

theorem projectsOf_ok {projects : List String} (h : projectsOf env config = .ok projects) :
    projects.Nodup ∧ ∀ project ∈ projects, env.projectExists project = true := by
  obtain ⟨result, hresult, hrest⟩ := bind_ok h
  have hknown := addProjects_ok ⟨List.nodup_nil, by simp⟩ hresult
  split_ifs at hrest with hnil
  · cases hrest
  · have hprojects : result = projects := Except.ok.inj hrest
    rw [← hprojects]
    exact hknown

theorem nodup_sortedSet (texts : List String) : (sortedSet texts).Nodup :=
  (orderBy_perm id _).nodup_iff.mpr (texts.nodup_dedup)

theorem mem_sortedSet {texts : List String} {text : String} :
    text ∈ sortedSet texts ↔ text ∈ texts := by
  unfold sortedSet
  rw [(orderBy_perm id _).mem_iff, List.mem_dedup]

/-- A text without small letters. -/
def Large (text : String) : Prop := ∀ c ∈ text.toList, ¬ c.isLower = true

theorem large_upper (text : String) : Large (upper text) := by
  intro c hc
  unfold upper at hc
  rw [String.toList_ofList] at hc
  obtain ⟨letter, -, rfl⟩ := List.mem_map.mp hc
  delta Char.isLower
  simpa using toUpper_not_lower letter

variable {selection : Selection}

theorem symbolsOf_ok {symbols : List String} (h : symbolsOf env config = .ok (symbols, selection)) :
    symbols.Nodup ∧ symbols ≠ [] ∧ ∀ symbol ∈ symbols, Large symbol := by
  have hsorted : ∀ texts : List String, ∀ f : String → String,
      ∀ symbol ∈ sortedSet (texts.map (fun text => upper (f text))), Large symbol := by
    intro texts f symbol hsymbol
    obtain ⟨text, -, rfl⟩ := List.mem_map.mp (mem_sortedSet.mp hsymbol)
    exact large_upper _
  unfold symbolsOf at h
  dsimp only at h
  split_ifs at h with hdirect hsymbol huniverse hmembers
  · rw [← (Prod.mk.inj (Except.ok.inj h)).1]
    exact ⟨nodup_sortedSet _, hdirect, hsorted _ strip⟩
  · rw [← (Prod.mk.inj (Except.ok.inj h)).1]
    refine ⟨List.nodup_singleton _, List.cons_ne_nil _ _, fun symbol hmem => ?_⟩
    rw [List.mem_singleton.mp hmem]
    exact large_upper _
  · rw [← (Prod.mk.inj (Except.ok.inj h)).1]
    exact ⟨nodup_sortedSet _, hmembers, hsorted _ id⟩

theorem gridOf_ok {project : String} {grid : Dict (List (Value F))}
    (h : gridOf env config project = .ok (some grid)) :
    grid.entries ≠ [] ∧ ∀ entry ∈ grid.entries, entry.1 ≠ "" ∧ entry.2 ≠ [] := by
  unfold gridOf at h
  split_ifs at h
  · obtain ⟨read, hread, hsome⟩ := map_ok h
    rw [← Option.some.inj hsome]
    exact normalizeParameterGrid_ok hread
  · cases h

/-! ## Windows -/

def WindowSpec.place (window : WindowSpec) : ℕ × String := (window.fold, window.phase)

/-- A phase begins with a small letter and has no colon. -/
def PhaseText (phase : String) : Prop :=
  ':' ∉ phase.toList ∧ phase.toList.head?.any Char.isLower = true

instance (phase : String) : Decidable (PhaseText phase) := inferInstanceAs (Decidable (_ ∧ _))

/-- A window is known by its fold and its phase. -/
structure WindowsKnown (windows : List WindowSpec) : Prop where
  keyed : Tables.Unique WindowSpec.place windows
  phases : ∀ window ∈ windows, PhaseText window.phase

theorem WindowsKnown.rolling (windows : List (String × String)) :
    WindowsKnown ((windows.zipIdx 1).map rollingSpec) := by
  constructor
  · have hfolds : (((windows.zipIdx 1).map rollingSpec).map WindowSpec.fold).Nodup := by
      rw [List.map_map]
      have hsecond : (windows.zipIdx 1).map (WindowSpec.fold ∘ rollingSpec) =
          List.range' 1 windows.length := by
        rw [← List.zipIdx_map_snd]
        rfl
      rw [hsecond]
      exact List.nodup_range'
    refine List.Nodup.of_map Prod.fst ?_
    rw [List.map_map]
    exact hfolds
  · intro window hwindow
    obtain ⟨entry, -, rfl⟩ := List.mem_map.mp hwindow
    show PhaseText "rolling"
    decide

theorem WindowsKnown.walkForward (sha256 : String → String) (folds : List Bounds) :
    WindowsKnown (((folds.zipIdx 1).flatMap (fun fold => windowsOf sha256 fold.2 fold.1)).map
      walkForwardSpec) := by
  constructor
  · unfold Tables.Unique
    rw [List.map_map, List.map_flatMap]
    have hfolds : (folds.zipIdx 1).Nodup := by
      refine List.Nodup.of_map Prod.snd ?_
      rw [List.zipIdx_map_snd]
      exact List.nodup_range'
    have hread : ∀ fold : Bounds × ℕ, ∀ place ∈ (windowsOf sha256 fold.2 fold.1).map
        (WindowSpec.place ∘ walkForwardSpec), place.1 = fold.2 := by
      intro fold place hplace
      obtain ⟨window, hwindow, rfl⟩ := List.mem_map.mp hplace
      simp only [windowsOf, List.mem_cons, List.not_mem_nil, or_false] at hwindow
      rcases hwindow with rfl | rfl | rfl <;> rfl
    apply nodup_flatMap_of_reads hfolds
    · intro fold _
      show [(fold.2, Phase.train.text), (fold.2, Phase.validation.text),
        (fold.2, Phase.oos.text)].Nodup
      simp [Phase.text]
    · intro fold hfold other hother place hplace hplace'
      have hindex : fold.2 = other.2 := (hread fold place hplace).symm.trans (hread other place hplace')
      have hnodup : ((folds.zipIdx 1).map Prod.snd).Nodup := by
        rw [List.zipIdx_map_snd]
        exact List.nodup_range'
      exact List.inj_on_of_nodup_map hnodup hfold hother hindex
  · intro window hwindow
    obtain ⟨source, -, rfl⟩ := List.mem_map.mp hwindow
    show PhaseText source.phase.text
    cases source.phase <;> decide

theorem walkForwardWindows_ok {sha256 : String → String} {walkForward : WalkForwardConfig}
    {windows : List Folds.Window} (h : walkForwardWindows sha256 walkForward = some (.ok windows)) :
    ∃ folds : List Bounds, windows = (folds.zipIdx 1).flatMap (fun fold => windowsOf sha256 fold.2 fold.1) := by
  unfold walkForwardWindows at h
  split_ifs at h with hadmissible
  · obtain ⟨result, -, hbind⟩ := Option.map_eq_some_iff.mp h
    obtain ⟨folds, -, hrest⟩ := bind_ok hbind
    split_ifs at hrest with hnil
    · cases hrest
    · have hwindows := Except.ok.inj hrest
      exact ⟨folds, hwindows.symm⟩
  · cases h

theorem windowSpecs_ok {windows : List WindowSpec}
    (h : windowSpecs env config = some (.ok windows)) : WindowsKnown windows := by
  have hfull : ∀ window : WindowSpec, window.phase = "full" → WindowsKnown [window] := by
    intro window hphase
    refine ⟨List.nodup_singleton _, fun other hother => ?_⟩
    rw [List.mem_singleton.mp hother, hphase]
    decide
  unfold windowSpecs at h
  cases hmode : config.mode with
  | walkForward =>
    rw [hmode] at h
    dsimp only at h
    split_ifs at h with hmissing
    · cases h
    · cases hwalk : walkForwardConfig env config with
      | error message =>
        rw [hwalk] at h
        cases h
      | ok walkForward =>
        rw [hwalk] at h
        obtain ⟨result, hresult, hmap⟩ := Option.map_eq_some_iff.mp h
        obtain ⟨read, hread, rfl⟩ := map_ok hmap
        rw [hread] at hresult
        obtain ⟨folds, rfl⟩ := walkForwardWindows_ok hresult
        exact WindowsKnown.walkForward env.sha256 folds
  | rolling =>
    rw [hmode] at h
    obtain ⟨result, hresult, hmap⟩ := Option.map_eq_some_iff.mp h
    obtain ⟨read, hread, rfl⟩ := map_ok hmap
    exact WindowsKnown.rolling read
  | independent => exact (Except.ok.inj (Option.some.inj (hmode ▸ h))) ▸ hfull _ rfl
  | singleSymbolGrid => exact (Except.ok.inj (Option.some.inj (hmode ▸ h))) ▸ hfull _ rfl
  | universeRobust => exact (Except.ok.inj (Option.some.inj (hmode ▸ h))) ▸ hfull _ rfl
  | multiStrategy => exact (Except.ok.inj (Option.some.inj (hmode ▸ h))) ▸ hfull _ rfl
  | dynamicUniverse => exact (Except.ok.inj (Option.some.inj (hmode ▸ h))) ▸ hfull _ rfl

theorem rollingLoop_terminates {stop : Date} {fuel : ℕ} {cursor : Date}
    (h : 9999 < cursor.year + fuel) : rollingLoop stop fuel cursor ≠ none := by
  induction fuel generalizing cursor with
  | zero =>
    have hyears := cursor.valid.years
    omega
  | succ fuel ih =>
    unfold rollingLoop
    split_ifs
    · split
      · exact Option.some_ne_none _
      · rename_i nextCursor windowEnd hturn
        obtain ⟨next, hnext, hrest⟩ := bind_ok hturn
        obtain ⟨day, -, hpair⟩ := bind_ok hrest
        have hsame : next = nextCursor := (Prod.mk.inj (Except.ok.inj hpair)).1
        rw [hsame] at hnext
        have hmonths := Date.months_addMonths (addYears_ok.mp hnext)
        have hvalid := cursor.valid.months
        have hvalid' := nextCursor.valid.months
        unfold Date.months at hmonths
        have hloop := @ih nextCursor (by omega)
        simpa using hloop
    · exact Option.some_ne_none _

theorem windowSpecs_ne_none : windowSpecs env config ≠ none := by
  unfold windowSpecs
  cases config.mode with
  | walkForward =>
    dsimp only
    split_ifs
    · exact Option.some_ne_none _
    · cases hwalk : walkForwardConfig env config with
      | error message => exact Option.some_ne_none _
      | ok walkForward =>
        unfold walkForwardWindows
        have hyears := walkForward.start.valid.years
        have hloop := @foldLoop_terminates walkForward maxTurns walkForward.start
          (by unfold maxTurns; omega)
        dsimp only
        split_ifs
        · simpa using hloop
        · simp
  | rolling =>
    unfold rollingWindows
    dsimp only
    split_ifs
    · exact Option.some_ne_none _
    · cases hstart : readDate env config.start "2020-01-01" with
      | error message => exact Option.some_ne_none _
      | ok start =>
        cases hstop : readDate env config.stop (isoformat env.today) with
        | error message => simp [Bind.bind, Except.bind]
        | ok stop =>
          have hyears := start.valid.years
          have hloop := @rollingLoop_terminates stop maxTurns start (by unfold maxTurns; omega)
          simpa [Bind.bind, Except.bind, Pure.pure, Except.pure] using hloop
  | independent => exact Option.some_ne_none _
  | singleSymbolGrid => exact Option.some_ne_none _
  | universeRobust => exact Option.some_ne_none _
  | multiStrategy => exact Option.some_ne_none _
  | dynamicUniverse => exact Option.some_ne_none _

/-- What the inputs of an expansion are. -/
structure WellRead (env : Environment F β) (config : Config F) (inputs : Inputs F) : Prop where
  projects : inputs.projects.Nodup ∧ ∀ project ∈ inputs.projects, env.projectExists project = true
  symbols : inputs.symbols.Nodup ∧ inputs.symbols ≠ [] ∧ ∀ symbol ∈ inputs.symbols, Large symbol
  windows : WindowsKnown inputs.windows
  grids : List.Forall₂ (fun project grid => gridOf env config project = .ok grid) inputs.projects
    inputs.grids

theorem readInputs_ne_none : readInputs env config ≠ none := by
  unfold readInputs
  split
  · exact Option.some_ne_none _
  · simpa using windowSpecs_ne_none

theorem readInputs_ok {inputs : Inputs F} (h : readInputs env config = some (.ok inputs)) :
    WellRead env config inputs := by
  unfold readInputs at h
  split at h
  · cases h
  · rename_i projects symbols selection grids hread
    obtain ⟨result, hresult, hmap⟩ := Option.map_eq_some_iff.mp h
    obtain ⟨windows, hwindows, rfl⟩ := map_ok hmap
    rw [hwindows] at hresult
    obtain ⟨readProjects, hprojects, hrest⟩ := bind_ok hread
    obtain ⟨selected, hselected, hrest⟩ := bind_ok hrest
    obtain ⟨readGrids, hgrids, hvalue⟩ := bind_ok hrest
    have hfields := Except.ok.inj hvalue
    simp only [Prod.mk.injEq] at hfields
    obtain ⟨rfl, rfl, -, rfl⟩ := hfields
    exact ⟨projectsOf_ok hprojects, symbolsOf_ok hselected, windowSpecs_ok hresult,
      forall₂_of_mapM hgrids⟩

/-! ## Items and keys -/

section Keys

variable {inputs : Inputs F}

def keyAt (numbers : Numbers F) (grid : Option (Dict (List (Value F)))) (place : Place F) : String :=
  itemKey place.project place.symbol place.window
    (candidateKey numbers (gridKeys grid) place.overrides)

def keysOf (numbers : Numbers F) (config : Config F) (inputs : Inputs F)
    (entry : String × Option (Dict (List (Value F)))) : List String :=
  (inputs.placesOf config entry.1 entry.2).map (keyAt numbers entry.2)

/-- The key that the candidate of an item has. -/
def candidateItemKey : String × String × Option (WindowSpec × String) → String
  | (project, symbol, some (window, suffix)) => itemKey project symbol window suffix
  | (_, _, none) => ""

theorem itemOf_ok {grid : Option (Dict (List (Value F)))} {place : Place F} {item : Item F β}
    (h : itemOf env config (gridKeys grid) place = .ok item) :
    item.place = some place ∧ item.key = keyAt env.numbers grid place ∧
      item.key = candidateItemKey item.candidate := by
  obtain ⟨request, -, hitem⟩ := bind_ok h
  rw [← Except.ok.inj hitem]
  exact ⟨rfl, rfl, rfl⟩

theorem itemsOf_spec {items : List (Item F β)} (h : itemsOf env config inputs = .ok items) :
    items.map Item.place = (inputs.places config).map some ∧
      items.map Item.key =
        (inputs.projects.zip inputs.grids).flatMap (keysOf env.numbers config inputs) ∧
      ∀ item ∈ items, item.key = candidateItemKey item.candidate := by
  obtain ⟨parts, hparts, hitems⟩ := bind_ok h
  rw [← Except.ok.inj hitems]
  refine ⟨?_, ?_, ?_⟩
  · have hplaces : parts.map (List.map Item.place) = (inputs.projects.zip inputs.grids).map
        (fun entry => (inputs.placesOf config entry.1 entry.2).map some) :=
      map_of_mapM_ok (fun entry values hvalues =>
        map_of_mapM_ok (fun _ _ hitem => (itemOf_ok hitem).1) hvalues) hparts
    rw [List.map_flatten, hplaces, ← List.flatMap_def, ← List.map_flatMap]
    rfl
  · have hkeys : parts.map (List.map Item.key) = (inputs.projects.zip inputs.grids).map
        (keysOf env.numbers config inputs) :=
      map_of_mapM_ok (fun entry values hvalues =>
        map_of_mapM_ok (fun _ _ hitem => (itemOf_ok hitem).2.1) hvalues) hparts
    rw [List.map_flatten, hkeys, List.flatMap_def]
  · intro item hitem
    obtain ⟨values, hvalues, hmem⟩ := List.mem_flatten.mp hitem
    obtain ⟨entry, -, hentry⟩ := exists_of_mapM hparts hvalues
    obtain ⟨place, -, hplace⟩ := exists_of_mapM hentry hmem
    exact (itemOf_ok hplace).2.2

theorem itemsOf_returns (h : ∀ place ∈ inputs.places config,
    ∃ request, env.baseRequest place.project place.symbol = .ok request) :
    ∃ items, itemsOf env config inputs = .ok items := by
  have hparts : ∃ parts, (inputs.projects.zip inputs.grids).mapM (fun entry =>
      (inputs.placesOf config entry.1 entry.2).mapM (itemOf env config (gridKeys entry.2))) =
        .ok parts := by
    refine mapM_of_ok (fun entry hentry => mapM_of_ok (fun place hplace => ?_))
    obtain ⟨request, hrequest⟩ := h place (List.mem_flatMap.mpr ⟨entry, hentry, hplace⟩)
    exact ⟨_, by unfold itemOf; rw [hrequest]; rfl⟩
  obtain ⟨parts, hparts⟩ := hparts
  exact ⟨parts.flatten, by unfold itemsOf; rw [hparts]; rfl⟩

theorem requests_of_itemsOf {items : List (Item F β)} (h : itemsOf env config inputs = .ok items)
    {place : Place F} (hplace : place ∈ inputs.places config) :
    ∃ request, env.baseRequest place.project place.symbol = .ok request := by
  obtain ⟨parts, hparts, -⟩ := bind_ok h
  obtain ⟨entry, hentry, hmem⟩ := List.mem_flatMap.mp hplace
  obtain ⟨values, -, hvalues⟩ := value_of_mapM hparts hentry
  obtain ⟨item, -, hitem⟩ := value_of_mapM hvalues hmem
  obtain ⟨request, hrequest, -⟩ := bind_ok hitem
  exact ⟨request, hrequest⟩

theorem toList_itemKey (project symbol : String) (window : WindowSpec) (suffix : String) :
    (itemKey project symbol window suffix).toList =
      project.toList ++ ':' :: (symbol.toList ++ ':' :: (Nat.toDigits 10 window.fold ++ ':' ::
        (window.phase.toList ++ ':' :: (window.start.toList ++ ':' ::
          (window.stop.toList ++ ':' :: suffix.toList))))) := by
  unfold itemKey
  simp [String.toList_append]

theorem not_mem_toDigits (n : ℕ) : ':' ∉ Nat.toDigits 10 n := by
  intro h
  exact absurd (isDigit_toDigits h) (by decide)

theorem toDigits_inj {a b : ℕ} (h : Nat.toDigits 10 a = Nat.toDigits 10 b) : a = b := by
  rw [← readNat_toDigits a, h, readNat_toDigits]

theorem not_isLower_toDigits {n : ℕ} {c : Char} (h : c ∈ Nat.toDigits 10 n) :
    ¬ c.isLower = true := by
  intro hlow
  have hdigit := isDigit_toDigits h
  delta Char.isLower at hlow
  simp only [Char.isDigit, Bool.and_eq_true, decide_eq_true_eq, UInt32.le_iff_toNat_le,
    ge_iff_le] at hlow hdigit
  have hlow' : 97 ≤ c.val.toNat := hlow.1
  have hdigit' : c.val.toNat ≤ 57 := hdigit.2
  omega

theorem itemKey_inj {windows : List WindowSpec} (hwindows : WindowsKnown windows)
    {project project' symbol symbol' suffix suffix' : String} {window window' : WindowSpec}
    (hproject : ':' ∉ project.toList) (hproject' : ':' ∉ project'.toList) (hsymbol : Large symbol)
    (hsymbol' : Large symbol') (hwindow : window ∈ windows) (hwindow' : window' ∈ windows)
    (h : itemKey project symbol window suffix = itemKey project' symbol' window' suffix') :
    project = project' ∧ symbol = symbol' ∧ window = window' ∧ suffix = suffix' := by
  have htext := congrArg String.toList h
  rw [toList_itemKey, toList_itemKey] at htext
  obtain ⟨hsame, htext⟩ := append_mark_inj hproject hproject' htext
  -- the symbol and the fold are what stands before the first small letter
  have hfront : ∀ {symbol : String} {n : ℕ}, Large symbol →
      ∀ c ∈ symbol.toList ++ ':' :: (Nat.toDigits 10 n ++ [':']), ¬ c.isLower = true := by
    intro symbol n hlarge c hc
    simp only [List.mem_append, List.mem_cons, List.not_mem_nil, or_false] at hc
    rcases hc with hc | rfl | hc | rfl
    · exact hlarge c hc
    · decide
    · exact not_isLower_toDigits hc
    · decide
  have hphase := hwindows.phases window hwindow
  have hphase' := hwindows.phases window' hwindow'
  obtain ⟨hcolon, hhead⟩ := hphase
  obtain ⟨hcolon', hhead'⟩ := hphase'
  cases hletters : window.phase.toList with
  | nil => simp [hletters] at hhead
  | cons c letters =>
    cases hletters' : window'.phase.toList with
    | nil => simp [hletters'] at hhead'
    | cons c' letters' =>
      rw [hletters] at hhead hcolon htext
      rw [hletters'] at hhead' hcolon' htext
      obtain ⟨hbefore, hafter⟩ := append_cons_inj (p := fun c : Char => c.isLower = true)
        (hfront hsymbol) (hfront hsymbol') (by simpa using hhead) (by simpa using hhead')
        (by simpa using htext)
      have hreversed := congrArg List.reverse hbefore
      simp only [List.reverse_append, List.reverse_cons, List.reverse_nil, List.nil_append,
        List.append_assoc, List.cons_append, List.cons.injEq, true_and] at hreversed
      obtain ⟨hfold, hsymbols⟩ := append_mark_inj
        (by simpa using not_mem_toDigits window.fold) (by simpa using not_mem_toDigits window'.fold)
        hreversed
      obtain ⟨hphases, hrest⟩ := append_mark_inj hcolon hcolon' hafter
      have hphaseText : window.phase = window'.phase :=
        String.toList_injective (by rw [hletters, hletters', hphases])
      have hplace : window.place = window'.place :=
        Prod.ext (toDigits_inj (List.reverse_injective hfold)) hphaseText
      have hwin : window = window' := List.inj_on_of_nodup_map hwindows.keyed hwindow hwindow' hplace
      rw [hwin] at hrest
      have hsuffix := (List.cons.inj (List.append_cancel_left
        (List.cons.inj (List.append_cancel_left hrest)).2)).2
      exact ⟨String.toList_injective hsame,
        String.toList_injective (List.reverse_injective (by simpa using hsymbols)), hwin,
        String.toList_injective hsuffix⟩

theorem WellRead.grid (h : WellRead env config inputs)
    {entry : String × Option (Dict (List (Value F)))}
    (hentry : entry ∈ inputs.projects.zip inputs.grids) : gridOf env config entry.1 = .ok entry.2 :=
  List.forall₂_zip h.grids hentry

theorem WellRead.project (h : WellRead env config inputs)
    {grid : Option (Dict (List (Value F)))} (hgrid : grid ∈ inputs.grids) :
    ∃ project ∈ inputs.projects, (project, grid) ∈ inputs.projects.zip inputs.grids := by
  have hgrids := h.grids
  generalize inputs.projects = projects at hgrids ⊢
  generalize inputs.grids = grids at hgrids hgrid ⊢
  revert hgrid
  induction hgrids with
  | nil => simp
  | @cons project first projects grids _ _ ih =>
    intro hgrid
    cases List.mem_cons.mp hgrid with
    | inl heq => exact ⟨project, List.mem_cons_self, by simp [heq]⟩
    | inr hmem =>
      obtain ⟨other, hother, hzip⟩ := ih hmem
      exact ⟨other, List.mem_cons_of_mem _ hother, by simp [hzip]⟩

theorem nodup_parameterSets_iff (h : WellRead env config inputs) {grid : Dict (List (Value F))}
    (hgrid : some grid ∈ inputs.grids) :
    ((parameterSets config (some grid)).map (candidateKey env.numbers grid.keys)).Nodup ↔
      ToldApart env.numbers grid := by
  obtain ⟨project, -, hzip⟩ := h.project hgrid
  have hread := gridOf_ok (h.grid hzip)
  exact nodup_candidateKeys_iff hread.1 (fun entry hentry => (hread.2 entry hentry).2)

theorem keysOf_eq (entry : String × Option (Dict (List (Value F)))) :
    keysOf env.numbers config inputs entry = inputs.symbols.flatMap (fun symbol =>
      inputs.windows.flatMap (fun window =>
        ((parameterSets config entry.2).map (candidateKey env.numbers (gridKeys entry.2))).map
          (itemKey entry.1 symbol window))) := by
  unfold keysOf Inputs.placesOf
  simp only [List.map_flatMap, List.map_map]
  rfl

theorem mem_keysOf {entry : String × Option (Dict (List (Value F)))} {key : String} :
    key ∈ keysOf env.numbers config inputs entry ↔ ∃ symbol ∈ inputs.symbols,
      ∃ window ∈ inputs.windows, ∃ overrides ∈ parameterSets config entry.2,
        itemKey entry.1 symbol window
          (candidateKey env.numbers (gridKeys entry.2) overrides) = key := by
  rw [keysOf_eq]
  simp only [List.mem_flatMap, List.mem_map, exists_exists_and_eq_and]

theorem nodup_keys (h : WellRead env config inputs)
    (hids : ∀ project, env.projectExists project = true → ':' ∉ project.toList)
    (htold : ∀ grid, some grid ∈ inputs.grids → ToldApart env.numbers grid) :
    ((inputs.projects.zip inputs.grids).flatMap (keysOf env.numbers config inputs)).Nodup := by
  have hlength := h.grids.length_eq
  have hprojects : ((inputs.projects.zip inputs.grids).map Prod.fst).Nodup := by
    rw [List.map_fst_zip (le_of_eq hlength)]
    exact h.projects.1
  have hproject : ∀ entry ∈ inputs.projects.zip inputs.grids, ':' ∉ entry.1.toList :=
    fun entry hentry => hids _ (h.projects.2 _ (List.of_mem_zip hentry).1)
  have hlarge := h.symbols.2.2
  apply nodup_flatMap_of_reads hprojects.of_map
  · intro entry hentry
    have hcolon := hproject entry hentry
    rw [keysOf_eq]
    apply nodup_flatMap_of_reads h.symbols.1
    · intro symbol hsymbol
      apply nodup_flatMap_of_reads h.windows.keyed.of_map
      · intro window hwindow
        have hcandidates : ((parameterSets config entry.2).map
            (candidateKey env.numbers (gridKeys entry.2))).Nodup := by
          have hmem := (List.of_mem_zip hentry).2
          cases hgrid : entry.2 with
          | none => exact List.nodup_singleton _
          | some grid =>
            rw [hgrid] at hmem
            exact (nodup_parameterSets_iff h hmem).mpr (htold grid hmem)
        refine hcandidates.map (fun a b hab => ?_)
        exact (itemKey_inj h.windows hcolon hcolon (hlarge symbol hsymbol) (hlarge symbol hsymbol)
          hwindow hwindow hab).2.2.2
      · intro window hwindow other hother key hkey hkey'
        obtain ⟨suffix, -, rfl⟩ := List.mem_map.mp hkey
        obtain ⟨suffix', -, hsame⟩ := List.mem_map.mp hkey'
        exact (itemKey_inj h.windows hcolon hcolon (hlarge symbol hsymbol) (hlarge symbol hsymbol)
          hother hwindow hsame).2.2.1.symm
    · intro symbol hsymbol other hother key hkey hkey'
      obtain ⟨window, hwindow, hmem⟩ := List.mem_flatMap.mp hkey
      obtain ⟨window', hwindow', hmem'⟩ := List.mem_flatMap.mp hkey'
      obtain ⟨suffix, -, rfl⟩ := List.mem_map.mp hmem
      obtain ⟨suffix', -, hsame⟩ := List.mem_map.mp hmem'
      exact (itemKey_inj h.windows hcolon hcolon (hlarge other hother) (hlarge symbol hsymbol)
        hwindow' hwindow hsame).2.1.symm
  · intro entry hentry other hother key hkey hkey'
    obtain ⟨symbol, hsymbol, window, hwindow, overrides, -, rfl⟩ := mem_keysOf.mp hkey
    obtain ⟨symbol', hsymbol', window', hwindow', overrides', -, hsame⟩ := mem_keysOf.mp hkey'
    have hsameProject := (itemKey_inj h.windows (hproject other hother) (hproject entry hentry)
      (hlarge symbol' hsymbol') (hlarge symbol hsymbol) hwindow' hwindow hsame).1
    exact List.inj_on_of_nodup_map hprojects hentry hother hsameProject.symm

theorem told_of_nodup_keys (h : WellRead env config inputs) (hwindows : inputs.windows ≠ [])
    (hkeys : ((inputs.projects.zip inputs.grids).flatMap
      (keysOf env.numbers config inputs)).Nodup)
    {grid : Dict (List (Value F))} (hgrid : some grid ∈ inputs.grids) :
    ToldApart env.numbers grid := by
  obtain ⟨project, -, hzip⟩ := h.project hgrid
  obtain ⟨symbol, hsymbol⟩ := List.exists_mem_of_ne_nil _ h.symbols.2.1
  obtain ⟨window, hwindow⟩ := List.exists_mem_of_ne_nil _ hwindows
  have hproject := (List.nodup_flatMap.mp hkeys).1 _ hzip
  rw [keysOf_eq] at hproject
  have hsymbolKeys := (List.nodup_flatMap.mp hproject).1 symbol hsymbol
  have hwindowKeys := (List.nodup_flatMap.mp hsymbolKeys).1 window hwindow
  exact (nodup_parameterSets_iff h hgrid).mp hwindowKeys.of_map

/-- The keys are distinct if the candidates can be told apart, and only then. -/
theorem nodup_keys_iff (h : WellRead env config inputs)
    (hids : ∀ project, env.projectExists project = true → ':' ∉ project.toList) :
    ((inputs.projects.zip inputs.grids).flatMap (keysOf env.numbers config inputs)).Nodup ↔
      (inputs.windows ≠ [] → ∀ grid, some grid ∈ inputs.grids → ToldApart env.numbers grid) := by
  constructor
  · intro hkeys hwindows grid hgrid
    exact told_of_nodup_keys h hwindows hkeys hgrid
  · intro htold
    by_cases hwindows : inputs.windows = []
    · have hnone : (inputs.projects.zip inputs.grids).flatMap
          (keysOf env.numbers config inputs) = [] := by
        refine List.flatMap_eq_nil_iff.mpr (fun entry _ => ?_)
        rw [keysOf_eq, hwindows]
        simp
      rw [hnone]
      exact List.nodup_nil
    · exact nodup_keys h hids (htold hwindows)

theorem nodup_places (hkeys : ((inputs.projects.zip inputs.grids).flatMap
    (keysOf env.numbers config inputs)).Nodup) (hprojects : inputs.projects.Nodup)
    (hlength : inputs.projects.length = inputs.grids.length) : (inputs.places config).Nodup := by
  have hfst : ((inputs.projects.zip inputs.grids).map Prod.fst).Nodup := by
    rw [List.map_fst_zip (le_of_eq hlength)]
    exact hprojects
  apply nodup_flatMap_of_reads hfst.of_map
  · intro entry hentry
    exact ((List.nodup_flatMap.mp hkeys).1 entry hentry).of_map
  · intro entry hentry other hother place hplace hplace'
    have hproject : ∀ entry : String × Option (Dict (List (Value F))),
        ∀ place ∈ inputs.placesOf config entry.1 entry.2, place.project = entry.1 := by
      intro entry place hplace
      obtain ⟨symbol, -, hmem⟩ := List.mem_flatMap.mp hplace
      obtain ⟨window, -, hmem⟩ := List.mem_flatMap.mp hmem
      obtain ⟨overrides, -, rfl⟩ := List.mem_map.mp hmem
      rfl
    exact List.inj_on_of_nodup_map hfst hentry hother
      ((hproject entry place hplace).symm.trans (hproject other place hplace'))

end Keys

theorem expand_eq (h : config.mode ≠ .dynamicUniverse) :
    expand env config = (readInputs env config).map (fun inputs => do
      let inputs ← inputs
      let items ← itemsOf env config inputs
      return (items, inputs.selection)) := if_neg h

theorem expand_ne_none : expand env config ≠ none := by
  by_cases h : config.mode = .dynamicUniverse
  · unfold expand
    rw [if_pos h]
    exact Option.some_ne_none _
  · rw [expand_eq h]
    simpa using readInputs_ne_none

variable {items : List (Item F β)}

theorem expand_ok_iff (h : config.mode ≠ .dynamicUniverse) :
    expand env config = some (.ok (items, selection)) ↔
      ∃ inputs, readInputs env config = some (.ok inputs) ∧
        itemsOf env config inputs = .ok items ∧ inputs.selection = selection := by
  rw [expand_eq h]
  constructor
  · intro hexpand
    obtain ⟨result, hresult, hvalue⟩ := Option.map_eq_some_iff.mp hexpand
    obtain ⟨inputs, rfl, hrest⟩ := bind_ok hvalue
    obtain ⟨read, hread, hpair⟩ := bind_ok hrest
    obtain ⟨rfl, rfl⟩ := Prod.mk.inj (Except.ok.inj hpair)
    exact ⟨inputs, hresult, hread, rfl⟩
  · rintro ⟨inputs, hread, hitems, rfl⟩
    rw [hread, Option.map_some]
    show some ((itemsOf env config inputs).bind _) = _
    rw [hitems]
    rfl

theorem expand_dynamic (h : config.mode = .dynamicUniverse)
    (hexpand : expand env config = some (.ok (items, selection))) :
    ∃ item, items = [item] ∧ item.place = none := by
  unfold expand at hexpand
  rw [if_pos h] at hexpand
  obtain ⟨projects, -, hrest⟩ := bind_ok (Option.some.inj hexpand)
  obtain ⟨symbols, -, hrest⟩ := bind_ok hrest
  obtain ⟨item, hitem, hpair⟩ := bind_ok hrest
  obtain ⟨request, -, hvalue⟩ := bind_ok hitem
  refine ⟨item, (Prod.mk.inj (Except.ok.inj hpair)).1.symm, ?_⟩
  rw [← Except.ok.inj hvalue]
  rfl

theorem exact_iff (hids : ∀ project, env.projectExists project = true → ':' ∉ project.toList)
    (hexpand : expand env config = some (.ok (items, selection))) :
    Exact env config items selection ↔
      config.mode ≠ .dynamicUniverse ∧ CandidatesTold env config := by
  by_cases hmode : config.mode = .dynamicUniverse
  · refine ⟨fun hexact => ?_, fun h => absurd hmode h.1⟩
    -- the single item over a dynamic universe stands at no place
    obtain ⟨item, rfl, hplace⟩ := expand_dynamic hmode hexpand
    obtain ⟨inputs, -, -, hproduct⟩ := hexact.product
    rw [List.map_cons, List.map_nil, hplace] at hproduct
    have hmem : none ∈ (inputs.places config).map some := hproduct ▸ List.mem_cons_self
    simp at hmem
  · obtain ⟨inputs, hread, hitems, rfl⟩ := (expand_ok_iff hmode).mp hexpand
    have hwell := readInputs_ok hread
    obtain ⟨hplaces, hkeys, hcandidates⟩ := itemsOf_spec hitems
    have hiff := nodup_keys_iff hwell hids
    rw [← hkeys] at hiff
    constructor
    · intro hexact
      refine ⟨hmode, fun other hother => ?_⟩
      obtain rfl : other = inputs :=
        Except.ok.inj (Option.some.inj (hother.symm.trans hread))
      exact hiff.mp hexact.keys
    · intro h
      have hnodup := hiff.mpr (h.2 inputs hread)
      refine ⟨⟨inputs, hread, rfl, hplaces⟩, ?_, hnodup, ?_⟩
      · rw [hplaces]
        rw [hkeys] at hnodup
        exact (nodup_places hnodup hwell.projects.1 hwell.grids.length_eq).map
          (Option.some_injective _)
      · rw [List.map_congr_left hcandidates] at hnodup
        exact List.Nodup.of_map candidateItemKey (by rwa [List.map_map])

/-- Every expansion comes to an end, over windows it returns items if what it reads is there, and
where it returns items these are exactly the product, each with a key of its own, if the universe is
not dynamic and the values of the grids can be told apart, and only then. -/
theorem expand_exact (env : Environment F β) (config : Config F)
    (hids : ∀ project, env.projectExists project = true → ':' ∉ project.toList) :
    expand env config ≠ none ∧
    (config.mode ≠ .dynamicUniverse →
      ((∃ items selection, expand env config = some (.ok (items, selection))) ↔
        ∃ inputs, readInputs env config = some (.ok inputs) ∧ ∀ place ∈ inputs.places config,
          ∃ request, env.baseRequest place.project place.symbol = .ok request)) ∧
    ∀ items selection, expand env config = some (.ok (items, selection)) →
      (Exact env config items selection ↔
        config.mode ≠ .dynamicUniverse ∧ CandidatesTold env config) := by
  refine ⟨expand_ne_none, fun hmode => ?_, fun items selection => exact_iff hids⟩
  constructor
  · rintro ⟨items, selection, hexpand⟩
    obtain ⟨inputs, hread, hitems, -⟩ := (expand_ok_iff hmode).mp hexpand
    exact ⟨inputs, hread, fun place => requests_of_itemsOf hitems⟩
  · rintro ⟨inputs, hread, hrequests⟩
    obtain ⟨items, hitems⟩ := itemsOf_returns hrequests
    exact ⟨items, inputs.selection, (expand_ok_iff hmode).mpr ⟨inputs, hread, hitems, rfl⟩⟩

/-! ## Samples -/

def itemsIn : Option (Except String (List (Item F β) × Selection)) → List (Item F β)
  | some (.ok (items, _)) => items
  | _ => []

def gridsIn : Option (Except String (Inputs F)) → List (Option (List (String × List (Value F))))
  | some (.ok inputs) => inputs.grids.map (Option.map Dict.entries)
  | _ => []

theorem plainToday : IsDate 2024 1 2 := by decide

/-- An environment of two projects without floats. -/
def plainEnvironment : Environment Empty Unit where
  numbers := {
    int := fun text => (LocalPlatform.Decimals.readDigits text.toList).map Int.ofNat
    float := fun _ => none
    repr := Empty.elim }
  sha256 := id
  today := ⟨2024, 1, 2, plainToday⟩
  fromisoformat := fun _ => .error "Invalid isoformat string"
  projectExists := fun project => project ∈ ["p", "q"]
  universeAsOf := fun _ _ => []
  baseRequest := fun _ _ => .ok ()
  dynamicRequest := fun _ _ _ => .ok ()

/-- A config of two projects and two symbols. -/
def plainConfig (optimization : Bool) (mode : Mode) (grid : Dict (Entry Empty)) : Config Empty where
  optimization := optimization
  mode := mode
  projectIds := ["p", "q"]
  projectId := none
  symbols := ["b", "a"]
  symbol := none
  universeCode := none
  asOfDate := none
  start := some "s"
  stop := some "e"
  parameters := Dict.empty
  parameterGrid := grid
  parameterGrids := Dict.empty
  maxCandidates := none
  trainYears := none
  testYears := none
  stepYears := none
  validationMonths := none
  windows := []
  datasetVersion := none
  universeVersion := none
  adjustmentContract := none
  featurePipelineVersion := none

theorem plainEnvironment_ids (project : String)
    (h : plainEnvironment.projectExists project = true) : ':' ∉ project.toList := by
  have hmem : project = "p" ∨ project = "q" := by simpa [plainEnvironment] using h
  rcases hmem with rfl | rfl <;> decide

/-- A text with a comma, of which another value is the front. -/
def commaTexts : Dict (Entry Empty) :=
  ⟨[("a", .list [.text "x", .text "x,y"]), ("b", .list [.int 1, .int 2])], by decide⟩

theorem commaTexts_told :
    CandidatesTold plainEnvironment (plainConfig true .independent commaTexts) := by
  intro inputs hread _ grid hgrid
  have hgrids : gridsIn (readInputs plainEnvironment (plainConfig true .independent commaTexts)) =
      List.replicate 2 (some [("a", [.text "x", .text "x,y"]), ("b", [.int 1, .int 2])]) := by
    decide +kernel
  rw [hread] at hgrids
  have hmem : some grid.entries ∈ inputs.grids.map (Option.map Dict.entries) :=
    List.mem_map_of_mem (f := Option.map Dict.entries) hgrid
  have hentries : grid.entries = [("a", [.text "x", .text "x,y"]), ("b", [.int 1, .int 2])] := by
    rw [show inputs.grids.map (Option.map Dict.entries) = _ from hgrids] at hmem
    exact Option.some.inj (List.eq_of_mem_replicate hmem)
  unfold ToldApart keyTexts valueTexts Dict.keys
  rw [hentries]
  have hlast : ["1".toList, "2".toList].Nodup := by decide
  refine ⟨by decide, hlast, fun u _ x _ rest _ hlater => ?_⟩
  -- the texts of the last parameter have no comma
  have hcommas : ∀ text ∈ fieldTexts ',' [("b=".toList, ["1".toList, "2".toList])], ',' ∉ text := by
    decide
  exact hcommas _ hlater (by simp)

/-- An optimization whose values are told apart, although one of them has a comma. -/
theorem expand_exact_sample :
    ∃ items selection,
      expand plainEnvironment (plainConfig true .independent commaTexts) =
        some (.ok (items, selection)) ∧ items.length = 16 ∧
      Exact plainEnvironment (plainConfig true .independent commaTexts) items selection := by
  have hexact := expand_exact plainEnvironment (plainConfig true .independent commaTexts)
    plainEnvironment_ids
  have hlength : (itemsIn (expand plainEnvironment
      (plainConfig true .independent commaTexts))).length = 16 := by decide +kernel
  cases hexpand : expand plainEnvironment (plainConfig true .independent commaTexts) with
  | none => exact absurd hexpand hexact.1
  | some result =>
    rw [hexpand] at hlength
    cases result with
    | error message => cases hlength
    | ok pair =>
      have hiff := hexact.2.2 pair.1 pair.2 hexpand
      exact ⟨pair.1, pair.2, rfl, hlength, hiff.mpr ⟨by decide, commaTexts_told⟩⟩

/-- Values that contain the separator of the key. -/
def separatorTexts : Dict (Entry Empty) :=
  ⟨[("a", .list [.text "x,b=1", .text "x"]), ("b", .list [.int 2, .text "1,b=2"])], by decide⟩

def separatorItems : List (Item Empty Unit) :=
  itemsIn (expand plainEnvironment (plainConfig true .independent separatorTexts))

/-- Two candidates of a grid can have one key. -/
theorem expand_not_product :
    separatorItems.length = 16 ∧
      ∃ a ∈ separatorItems, ∃ b ∈ separatorItems, a.place ≠ b.place ∧ a.key = b.key := by
  decide +kernel

end LocalPlatform.Experiments.Expansion
