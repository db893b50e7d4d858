import LocalPlatform.Experiments.Folds
import LocalPlatform.Experiments.Grids
import LocalPlatform.Lib.Rows

/-!
# Expanding an experiment

`expand` makes the items of a batch: one for each project, symbol, window and candidate of the
project's grid.

* The stored projects, the members of a universe, the request of one backtest and the dynamic
  universe are read from an `Environment`.
* `readInputs` is the part that reads the config, `itemsOf` the loop over the product.
* An experiment over a dynamic universe is one item, and a mode without a grid has one candidate,
  the parameters of the config.
* `ToldApart`: the texts that the keys of a grid join can be told apart.

The kind `research` has no symbols and no windows and is left out.
-/

namespace LocalPlatform.Experiments.Expansion

open Paper Products Dates Results
open Experiments.Grids Experiments.Folds Tables

/-! ## Configs -/

inductive Mode where
  | independent
  | singleSymbolGrid
  | universeRobust
  | walkForward
  | multiStrategy
  | rolling
  | dynamicUniverse
  deriving DecidableEq

structure Config (F : Type) where
  /-- `kind == "optimization"`, or else a backtest. -/
  optimization : Bool
  mode : Mode
  projectIds : List String
  projectId : Option String
  symbols : List String
  symbol : Option String
  universeCode : Option String
  asOfDate : Option String
  start : Option String
  stop : Option String
  parameters : Dict (Value F)
  parameterGrid : Dict (Entry F)
  parameterGrids : Dict (Dict (Entry F))
  maxCandidates : Option ℤ
  trainYears : Option ℤ
  testYears : Option ℤ
  stepYears : Option ℤ
  validationMonths : Option ℤ
  /-- The start and the end of each given window, empty where it is missing. -/
  windows : List (String × String)
  datasetVersion : Option String
  universeVersion : Option String
  adjustmentContract : Option String
  featurePipelineVersion : Option String

/-- What the config is read against.  `β` is the request that `_base_request` makes. -/
structure Environment (F β : Type) where
  numbers : Numbers F
  sha256 : String → String
  today : Date
  fromisoformat : String → Except String Date
  projectExists : String → Bool
  /-- The symbols of `universe_as_of`. -/
  universeAsOf : String → String → List String
  baseRequest : String → String → Except String β
  /-- The request over the schedule of a universe. -/
  dynamicRequest : String → String → String → Except String β

variable {F β : Type}

/-- `value or default` -/
def orText (value : Option String) (default : String) : String :=
  match value with
  | some text => if text = "" then default else text
  | none => default

/-! ## Projects and symbols -/

/-- A turn of the loop of `_projects`. -/
def addProject (known : String → Bool) (result : List String) (value : String) :
    Except String (List String) :=
  let projectId := strip value
  if projectId ≠ "" ∧ projectId ∉ result then
    if known projectId then .ok (result ++ [projectId]) else .error "Project not found."
  else .ok result

/-- `_projects` -/
def projectsOf (env : Environment F β) (config : Config F) : Except String (List String) := do
  let values :=
    if config.projectIds ≠ [] then config.projectIds else
      if orText config.projectId "" ≠ "" then [orText config.projectId ""] else []
  let result ← values.foldlM (addProject env.projectExists) []
  if result = [] then throw "At least one projectId is required."
  return result

/-- `sorted({...})` -/
def sortedSet (texts : List String) : List String := orderBy id texts.dedup

/-- How the symbols of an experiment were chosen. -/
inductive Selection where
  | symbols (symbols : List String)
  | universe (universeCode asOfDate : String) (symbols : List String)
  deriving DecidableEq

/-- `_symbols` -/
def symbolsOf (env : Environment F β) (config : Config F) :
    Except String (List String × Selection) :=
  let direct := sortedSet ((config.symbols.filter (fun value => strip value ≠ "")).map
    (fun value => upper (strip value)))
  let symbol := upper (strip (orText config.symbol ""))
  let universeCode := upper (strip (orText config.universeCode ""))
  let asOf := String.ofList
    ((orText config.asOfDate (orText config.start (isoformat env.today))).toList.take 10)
  let members := sortedSet ((env.universeAsOf universeCode asOf).filter (· ≠ "") |>.map upper)
  if direct ≠ [] then .ok (direct, .symbols direct)
  else if symbol ≠ "" then .ok ([symbol], .symbols [symbol])
  else if universeCode = "" then .error "Select at least one symbol or a universeCode."
  else if members = [] then
    .error ("No point-in-time members are available for " ++ universeCode ++ " on " ++ asOf ++ ".")
  else .ok (members, .universe universeCode asOf members)

/-! ## Grids -/

def Config.usesGrid (config : Config F) : Bool :=
  config.optimization ||
    config.mode ∈ [Mode.singleSymbolGrid, .universeRobust, .walkForward, .multiStrategy]

/-- The grid of a project, if the experiment reads one. -/
def gridOf (env : Environment F β) (config : Config F) (project : String) :
    Except String (Option (Dict (List (Value F)))) :=
  if config.usesGrid then
    let own := (config.parameterGrids.get project).getD Dict.empty
    let raw := if own.entries ≠ [] then own else config.parameterGrid
    (normalizeParameterGrid env.numbers raw (orDefault config.maxCandidates 200)).map some
  else .ok none

/-- `grid_keys` -/
def gridKeys (grid : Option (Dict (List (Value F)))) : List String :=
  match grid with
  | some grid => grid.keys
  | none => []

/-- `parameter_sets` -/
def parameterSets (config : Config F) (grid : Option (Dict (List (Value F)))) :
    List (Grids.Overrides F) :=
  match grid with
  | some grid => candidates grid
  | none => [config.parameters.entries]

/-! ## Windows -/

structure WindowSpec where
  fold : ℕ
  phase : String
  start : String
  stop : String
  role : Option String
  foldFingerprint : Option String
  phaseFingerprint : Option String
  deriving DecidableEq

/-- `date.fromisoformat(str(value or default)[:10])` -/
def readDate (env : Environment F β) (value : Option String) (default : String) :
    Except String Date :=
  env.fromisoformat (String.ofList ((orText value default).toList.take 10))

/-- The loop of `_rolling_windows`. -/
def rollingLoop (stop : Date) : ℕ → Date → Option (Except String (List (Date × Date)))
  | 0, _ => none
  | fuel + 1, cursor =>
    if cursor ≤ stop then
      match do
        let nextCursor ← addYears cursor 1
        let windowEnd := min stop (← dayBefore nextCursor)
        return (nextCursor, windowEnd) with
      | .error message => some (.error message)
      | .ok (nextCursor, windowEnd) =>
        (rollingLoop stop fuel nextCursor).map (fun rest => rest.map ((cursor, windowEnd) :: ·))
    else some (.ok [])

/-- `_rolling_windows` -/
def rollingWindows (env : Environment F β) (config : Config F) :
    Option (Except String (List (String × String))) :=
  let normalized := config.windows.filter (fun item => item.1 ≠ "" ∧ item.2 ≠ "")
  if normalized ≠ [] then some (.ok normalized)
  else
    match do
      let start ← readDate env config.start "2020-01-01"
      let stop ← readDate env config.stop (isoformat env.today)
      return (start, stop) with
    | .error message => some (.error message)
    | .ok (start, stop) =>
      (rollingLoop stop maxTurns start).map (fun windows =>
        windows.map (List.map (fun window => (isoformat window.1, isoformat window.2))))

/-- The lineage fields that a walk-forward experiment has to freeze. -/
def Config.lineage (config : Config F) : List (String × Option String) :=
  [("datasetVersion", config.datasetVersion), ("universeVersion", config.universeVersion),
    ("adjustmentContract", config.adjustmentContract),
    ("featurePipelineVersion", config.featurePipelineVersion)]

def walkForwardConfig (env : Environment F β) (config : Config F) :
    Except String WalkForwardConfig := do
  let start ← readDate env config.start "2018-01-01"
  let stop ← readDate env config.stop (isoformat env.today)
  return ⟨start, stop, config.trainYears, config.testYears, config.stepYears,
    config.validationMonths⟩

def walkForwardSpec (window : Folds.Window) : WindowSpec where
  fold := window.fold
  phase := window.phase.text
  start := isoformat window.start
  stop := isoformat window.stop
  role := some window.phase.role
  foldFingerprint := some window.foldFingerprint
  phaseFingerprint := some window.phaseFingerprint

def rollingSpec (window : (String × String) × ℕ) : WindowSpec :=
  ⟨window.2, "rolling", window.1.1, window.1.2, none, none, none⟩

/-- `window_specs` -/
def windowSpecs (env : Environment F β) (config : Config F) :
    Option (Except String (List WindowSpec)) :=
  match config.mode with
  | .walkForward =>
    let missing := (config.lineage.filter (fun field => strip (orText field.2 "") = "")).map Prod.fst
    if missing ≠ [] then
      some (.error ("Walk-forward requires frozen lineage fields: " ++
        ", ".intercalate missing ++ "."))
    else
      match walkForwardConfig env config with
      | .error message => some (.error message)
      | .ok walkForward =>
        (walkForwardWindows env.sha256 walkForward).map (fun windows =>
          windows.map (List.map walkForwardSpec))
  | .rolling =>
    (rollingWindows env config).map (fun windows =>
      windows.map (fun windows => (windows.zipIdx 1).map rollingSpec))
  | _ =>
    some (.ok [⟨1, "full", orText config.start "2020-01-01",
      orText config.stop (isoformat env.today), none, none, none⟩])

/-! ## Items -/

/-- A place of the product. -/
structure Place (F : Type) where
  project : String
  symbol : String
  window : WindowSpec
  overrides : Grids.Overrides F
  deriving DecidableEq

/-- What `expand` adds to a request: its window and parameters, and what was frozen. -/
structure Added (F : Type) where
  window : WindowSpec
  overrides : Grids.Overrides F
  candidateKey : String
  mode : Mode
  datasetVersion : Option String
  universeVersion : Option String
  adjustmentContract : Option String
  featurePipelineVersion : Option String

structure Item (F β : Type) where
  key : String
  project : String
  symbol : String
  request : β
  added : Option (Added F)

def Item.place (item : Item F β) : Option (Place F) :=
  item.added.map (fun added => ⟨item.project, item.symbol, added.window, added.overrides⟩)

/-- `f"{project_id}:{symbol}:{fold}:{phase}:{start}:{end}:{suffix}"` -/
def itemKey (project symbol : String) (window : WindowSpec) (suffix : String) : String :=
  project ++ ":" ++ symbol ++ ":" ++ toString window.fold ++ ":" ++ window.phase ++ ":" ++
    window.start ++ ":" ++ window.stop ++ ":" ++ suffix

/-- A turn of the loop over the product. -/
def itemOf (env : Environment F β) (config : Config F) (keys : List String) (place : Place F) :
    Except String (Item F β) := do
  let request ← env.baseRequest place.project place.symbol
  let suffix := candidateKey env.numbers keys place.overrides
  return {
    key := itemKey place.project place.symbol place.window suffix
    project := place.project
    symbol := place.symbol
    request := request
    added := some {
      window := place.window
      overrides := place.overrides
      candidateKey := suffix
      mode := config.mode
      datasetVersion := config.datasetVersion
      universeVersion := config.universeVersion
      adjustmentContract := config.adjustmentContract
      featurePipelineVersion := config.featurePipelineVersion } }

/-- What `expand` has read before its loop. -/
structure Inputs (F : Type) where
  projects : List String
  symbols : List String
  selection : Selection
  grids : List (Option (Dict (List (Value F))))
  windows : List WindowSpec

/-- `itertools.product(symbols, window_specs, parameter_sets)` of a project. -/
def Inputs.placesOf (inputs : Inputs F) (config : Config F) (project : String)
    (grid : Option (Dict (List (Value F)))) : List (Place F) :=
  inputs.symbols.flatMap (fun symbol => inputs.windows.flatMap (fun window =>
    (parameterSets config grid).map (fun overrides => ⟨project, symbol, window, overrides⟩)))

def Inputs.places (inputs : Inputs F) (config : Config F) : List (Place F) :=
  (inputs.projects.zip inputs.grids).flatMap (fun entry => inputs.placesOf config entry.1 entry.2)

/-- The loop of `expand`. -/
def itemsOf (env : Environment F β) (config : Config F) (inputs : Inputs F) :
    Except String (List (Item F β)) := do
  let items ← (inputs.projects.zip inputs.grids).mapM (fun entry =>
    (inputs.placesOf config entry.1 entry.2).mapM (itemOf env config (gridKeys entry.2)))
  return items.flatten

/-- The single item over a dynamic universe. -/
def dynamicItem (env : Environment F β) (config : Config F) (projects symbols : List String) :
    Except String (Item F β) := do
  let universeCode := upper (orText config.universeCode "CSI300")
  let project := projects.headD ""
  let symbol := symbols.headD ""
  let request ← env.dynamicRequest project symbol universeCode
  return ⟨project ++ ":dynamic:" ++ universeCode, project, symbol, request, none⟩

/-- What `expand` reads from a config whose universe is not dynamic. -/
def readInputs (env : Environment F β) (config : Config F) : Option (Except String (Inputs F)) :=
  match do
    let projects ← projectsOf env config
    let (symbols, selection) ← symbolsOf env config
    let grids ← projects.mapM (gridOf env config)
    return (projects, symbols, selection, grids) with
  | .error message => some (.error message)
  | .ok (projects, symbols, selection, grids) =>
    (windowSpecs env config).map (fun windows =>
      windows.map (fun windows => ⟨projects, symbols, selection, grids, windows⟩))

/-- `expand` -/
def expand (env : Environment F β) (config : Config F) :
    Option (Except String (List (Item F β) × Selection)) :=
  if config.mode = .dynamicUniverse then
    some (do
      let projects ← projectsOf env config
      let (symbols, selection) ← symbolsOf env config
      let item ← dynamicItem env config projects symbols
      return ([item], selection))
  else
    (readInputs env config).map (fun inputs => do
      let inputs ← inputs
      let items ← itemsOf env config inputs
      return (items, inputs.selection))

end LocalPlatform.Experiments.Expansion
