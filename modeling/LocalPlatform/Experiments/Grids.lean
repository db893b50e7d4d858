import LocalPlatform.Lib.Products
import LocalPlatform.Paper.Values

/-!
# Parameter grids

`normalize_parameter_grid` reads the values of each parameter, and a candidate is one value of each.
The key of a candidate joins the names and the texts of its values.

* What Python's `int`, `float` and `repr` make of a text or a float is taken as it is (`Numbers`):
  the results hold of any readers.
* The grids of the experiments are given without `fast_values` and `slow_values`.
* `nodup_candidateKeys_iff`: the candidates of a grid have distinct keys if the texts of their
  values can be told apart from what follows them (`ToldApart`), and only then.
-/

namespace LocalPlatform.Experiments.Grids

open Paper Products

/-! ## Values -/

/-- Python's readers of numbers, and the text of a float. -/
structure Numbers (F : Type) where
  int : String → Option ℤ
  float : String → Option F
  repr : F → String

/-- A value of a parameter.  A list or an object in it is known by its text. -/
inductive Value (F : Type) where
  | null
  | bool (value : Bool)
  | int (value : ℤ)
  | float (value : F)
  | text (value : String)
  | other (repr : String)
  deriving DecidableEq

/-- What a grid has for a parameter. -/
inductive Entry (F : Type) where
  | null
  | text (value : String)
  | list (values : List (Value F))
  /-- A number, a truth value or an object. -/
  | single (value : Value F)
  deriving DecidableEq

variable {F : Type}

/-- `str(value)` -/
def Value.str (numbers : Numbers F) : Value F → String
  | .null => "None"
  | .bool true => "True"
  | .bool false => "False"
  | .int n => toString n
  | .float x => numbers.repr x
  | .text s => s
  | .other repr => repr

/-- `_coerce_value` -/
def coerceValue (numbers : Numbers F) : Value F → Value F
  | .text raw =>
    let text := strip raw
    if text = "" then .null
    else if lower text = "true" ∨ lower text = "false" then .bool (lower text = "true")
    else match numbers.int text with
      | some n => .int n
      | none =>
        match numbers.float text with
        | some x => .float x
        | none => .text text
  | value => value

/-- `item in (None, "")` -/
def Value.isBlank : Value F → Bool
  | .null => true
  | .text s => s = ""
  | _ => false

/-- `value.split(",")` -/
def splitCommas (value : String) : List String :=
  (value.toList.splitOn ',').map String.ofList

/-- `_as_values` -/
def asValues (numbers : Numbers F) (entry : Entry F) : List (Value F) :=
  let rawValues : List (Value F) :=
    match entry with
    | .null => []
    | .text s => (splitCommas s).map .text
    | .list values => values
    | .single value => [value]
  (rawValues.map (coerceValue numbers)).filter (fun item => !item.isBlank)

/-! ## Grids -/

/-- A dictionary: each key stands once, in the order of insertion. -/
structure Dict (α : Type) where
  entries : List (String × α)
  distinct : (entries.map Prod.fst).Nodup

namespace Dict

variable {α β : Type}

def empty : Dict α := ⟨[], List.nodup_nil⟩

def keys (dict : Dict α) : List String := dict.entries.map Prod.fst

def get (dict : Dict α) (key : String) : Option α := dict.entries.lookup key

/-- The entries of other values that meet a test. -/
def mapFilter (dict : Dict α) (f : α → β) (test : String → β → Bool) : Dict β where
  entries := (dict.entries.map (fun entry => (entry.1, f entry.2))).filter
    (fun entry => test entry.1 entry.2)
  distinct := by
    refine List.Nodup.sublist (List.filter_sublist.map Prod.fst) ?_
    simpa [Function.comp_def] using dict.distinct

end Dict

/-- `normalize_parameter_grid`: the loop over the entries finds none without values. -/
def normalizeParameterGrid (numbers : Numbers F) (parameterGrid : Dict (Entry F))
    (maxCandidates : ℤ) : Except String (Dict (List (Value F))) :=
  let grid := parameterGrid.mapFilter (asValues numbers) (fun key values => key ≠ "" ∧ values ≠ [])
  let candidateCount := (grid.entries.map (fun entry => entry.2.length)).prod
  if grid.entries = [] then
    .error "parameterGrid must include at least one parameter with one or more values."
  else if maxCandidates < candidateCount then
    .error ("parameterGrid expands to " ++ toString candidateCount ++
      " candidates; maxCandidates is " ++ toString maxCandidates ++ ".")
  else .ok grid

theorem normalizeParameterGrid_ok {numbers : Numbers F} {raw : Dict (Entry F)} {maxCandidates : ℤ}
    {grid : Dict (List (Value F))}
    (h : normalizeParameterGrid numbers raw maxCandidates = .ok grid) :
    grid.entries ≠ [] ∧ ∀ entry ∈ grid.entries, entry.1 ≠ "" ∧ entry.2 ≠ [] := by
  unfold normalizeParameterGrid at h
  dsimp only at h
  split_ifs at h with hnil hcount
  obtain rfl := Except.ok.inj h
  refine ⟨hnil, fun entry hentry => ?_⟩
  simpa using (List.mem_filter.mp hentry).2

/-! ## Candidates -/

/-- The overrides of a candidate: `dict(zip(grid_keys, values))`. -/
abbrev Overrides (F : Type) := List (String × Value F)

def candidates (grid : Dict (List (Value F))) : List (Overrides F) :=
  (product (grid.entries.map Prod.snd)).map (fun values => grid.keys.zip values)

/-- `f"{key}="` -/
def head (key : String) : List Char := key.toList ++ ['=']

/-- `overrides.get(key)`, as a text. -/
def overrideText (numbers : Numbers F) (overrides : Overrides F) (key : String) : List Char :=
  (((overrides.lookup key).getD .null).str numbers).toList

/-- `",".join(f"{key}={overrides.get(key)}" for key in grid_keys) or "base"` -/
def candidateKey (numbers : Numbers F) (gridKeys : List String) (overrides : Overrides F) :
    String :=
  let suffix := joinFields ',' ((gridKeys.map head).zip
    (gridKeys.map (overrideText numbers overrides)))
  if suffix = [] then "base" else String.ofList suffix

def valueTexts (numbers : Numbers F) (grid : Dict (List (Value F))) : List (List (List Char)) :=
  (grid.entries.map Prod.snd).map (List.map (fun value => (value.str numbers).toList))

/-- The names of a grid with the texts of their values. -/
def keyTexts (numbers : Numbers F) (grid : Dict (List (Value F))) :
    List (List Char × List (List Char)) :=
  (grid.keys.map head).zip (valueTexts numbers grid)

/-- The values of each parameter have distinct texts, and none of these is another one with a comma
and the front of what can follow it in a key. -/
def ToldApart (numbers : Numbers F) (grid : Dict (List (Value F))) : Prop :=
  Told ',' (keyTexts numbers grid)

section Keys

variable {numbers : Numbers F} {grid : Dict (List (Value F))} {values : List (Value F)}

theorem lookup_zip {keys : List String} (hnodup : keys.Nodup)
    (hlength : keys.length = values.length) :
    keys.map (fun key => (keys.zip values).lookup key) = values.map some := by
  induction keys generalizing values with
  | nil =>
    cases values with
    | nil => rfl
    | cons value values => simp at hlength
  | cons key keys ih =>
    cases values with
    | nil => simp at hlength
    | cons value values =>
      obtain ⟨hkey, hkeys⟩ := List.nodup_cons.mp hnodup
      have hrest := ih hkeys (Nat.succ.inj hlength)
      simp only [List.map_cons, List.zip_cons_cons, List.lookup_cons_self]
      rw [← hrest]
      congr 1
      apply List.map_congr_left
      intro other hother
      have hne : (other == key) = false := by
        simpa using (fun heq => hkey (heq ▸ hother) : other ≠ key)
      rw [List.lookup_cons, hne]

theorem map_overrideText (hlength : grid.keys.length = values.length) :
    grid.keys.map (overrideText numbers (grid.keys.zip values)) =
      values.map (fun value => (value.str numbers).toList) := by
  have hlookup := lookup_zip grid.distinct hlength
  have htexts := congrArg
    (List.map (fun value => ((value.getD Value.null).str numbers).toList)) hlookup
  simpa [overrideText, Function.comp_def, Dict.keys] using htexts

theorem length_of_mem (h : values ∈ product (grid.entries.map Prod.snd)) :
    grid.keys.length = values.length := by
  have hlength := (mem_product.mp h).length_eq
  simp only [List.length_map] at hlength
  simp [Dict.keys, hlength]

theorem joinFields_ne_nil {keys : List String} (hkeys : keys ≠ []) {texts : List (List Char)}
    (hlength : keys.length = texts.length) : joinFields ',' ((keys.map head).zip texts) ≠ [] := by
  cases keys with
  | nil => exact absurd rfl hkeys
  | cons key keys =>
    cases texts with
    | nil => simp at hlength
    | cons text texts =>
      cases keys <;> cases texts <;> simp [joinFields, head]

theorem candidateKey_eq (hgrid : grid.entries ≠ [])
    (h : values ∈ product (grid.entries.map Prod.snd)) :
    (candidateKey numbers grid.keys (grid.keys.zip values)).toList =
      joinFields ',' ((grid.keys.map head).zip
        (values.map (fun value => (value.str numbers).toList))) := by
  have hlength := length_of_mem h
  unfold candidateKey
  dsimp only
  rw [map_overrideText hlength, if_neg]
  · exact String.toList_ofList
  · refine joinFields_ne_nil ?_ (by simpa using hlength)
    simpa [Dict.keys] using hgrid

theorem candidateKeys_eq (hgrid : grid.entries ≠ []) :
    ((candidates grid).map (candidateKey numbers grid.keys)).map String.toList =
      fieldTexts ',' (keyTexts numbers grid) := by
  unfold keyTexts
  rw [← map_joinFields_product (by simp [valueTexts, Dict.keys])]
  unfold valueTexts candidates
  rw [product_map, List.map_map, List.map_map, List.map_map]
  exact List.map_congr_left (fun values hvalues => candidateKey_eq hgrid hvalues)

/-- The keys of the candidates are distinct if the values can be told apart, and only then. -/
theorem nodup_candidateKeys_iff (hgrid : grid.entries ≠ [])
    (hvalues : ∀ entry ∈ grid.entries, entry.2 ≠ []) :
    ((candidates grid).map (candidateKey numbers grid.keys)).Nodup ↔ ToldApart numbers grid := by
  rw [← List.nodup_map_iff (fun _ _ h => String.toList_injective h), candidateKeys_eq hgrid]
  refine nodup_fieldTexts_iff (fun field hfield => ?_)
  obtain ⟨values, hmem, htexts⟩ := List.mem_map.mp (List.of_mem_zip hfield).2
  obtain ⟨entry, hentry, rfl⟩ := List.mem_map.mp hmem
  simpa [← htexts] using hvalues entry hentry

end Keys

end LocalPlatform.Experiments.Grids
