import LocalPlatform.Lib.Json
import LocalPlatform.Lib.Table

/-!
# The canonical digest of a result

* `prune` removes fields, entries and numbers from a result by the place where they are.
  `canonical` does it by the rules of `_canonical_result_value`, `documented` by those of
  `tolerancePolicy.excludedFields`.
* `absorb_left` and `absorb_right`: rules that remove less change nothing before or after rules that
  remove more.
* `digest_iff_documented`: the digest forgets what is documented if, without the documented fields,
  nothing is left that the code removes; and only then.
-/

namespace LocalPlatform.Backtest.CanonicalResult

open Tables

variable {φ : Type}

/-! ## Rules -/

/-- The keys and the list elements (`none`) on the way to a value. -/
abbrev Path := List (Option String)

/-- What is removed at a path: keys of an object, entries of a list, and numbers. -/
structure Rules (φ : Type) where
  skips : Path → String → Bool
  dropsSpeed : Path → Bool
  nulls : φ → Bool
  name_kept : ∀ path, skips path "name" = false

/-- `str(item.get("name") or "") == "ExecutionSpeedAnalysis"` for an object. -/
def isSpeed (item : Json φ) : Bool :=
  match item.get? "name" with
  | some (.text name) => name = "ExecutionSpeedAnalysis"
  | _ => false

mutual

/-- The value at a path without what the rules remove. -/
@[simp]
def prune (rules : Rules φ) (path : Path) : Json φ → Json φ
  | .list items => .list (pruneItems rules path items)
  | .object fields => .object (pruneFields rules path fields)
  | .float x => if rules.nulls x then .null else .float x
  | value => value

@[simp]
def pruneItems (rules : Rules φ) (path : Path) : List (Json φ) → List (Json φ)
  | [] => []
  | item :: items =>
    if rules.dropsSpeed path && isSpeed item then pruneItems rules path items
    else prune rules (path ++ [none]) item :: pruneItems rules path items

@[simp]
def pruneFields (rules : Rules φ) (path : Path) : List (String × Json φ) → List (String × Json φ)
  | [] => []
  | (key, value) :: fields =>
    if rules.skips path key then pruneFields rules path fields
    else (key, prune rules (path ++ [some key]) value) :: pruneFields rules path fields

end

mutual

/-- The rules remove nothing from the value at a path. -/
@[simp]
def Untouched (rules : Rules φ) (path : Path) : Json φ → Prop
  | .list items => UntouchedItems rules path items
  | .object fields => UntouchedFields rules path fields
  | .float x => rules.nulls x = false
  | _ => True

@[simp]
def UntouchedItems (rules : Rules φ) (path : Path) : List (Json φ) → Prop
  | [] => True
  | item :: items => (rules.dropsSpeed path && isSpeed item) = false ∧
      Untouched rules (path ++ [none]) item ∧ UntouchedItems rules path items

@[simp]
def UntouchedFields (rules : Rules φ) (path : Path) : List (String × Json φ) → Prop
  | [] => True
  | (key, value) :: fields => rules.skips path key = false ∧
      Untouched rules (path ++ [some key]) value ∧ UntouchedFields rules path fields

end

/-! ## The rules of the code and the documented ones -/

/-- The path of the code: its keys in lower case. -/
def lowerKeys (path : Path) : List String := (path.filterMap id).map String.toLower

def codeSkips (path : Path) (key : String) : Bool :=
  ((lowerKeys path).getLast? = some "state" &&
    key.toLower ∈ ["starttime", "endtime", "hostname"]) ||
  ("closedtrades" ∈ lowerKeys path && key.toLower = "id") ||
  ((lowerKeys path).drop ((lowerKeys path).length - 2) =
    ["algorithmconfiguration", "parameters"] && key.toLower = "strategysnapshotdir")

def codeDrops (path : Path) : Bool := (lowerKeys path).getLast? = some "analysis"

/-- `_canonical_result_value`, whose numbers are finite or not. -/
def codeRules (finite : φ → Bool) : Rules φ where
  skips := codeSkips
  dropsSpeed := codeDrops
  nulls x := !finite x
  name_kept path := by
    have hname : "name".toLower = "name" := by decide +kernel
    simp [codeSkips, hname]

/-- `tolerancePolicy.excludedFields`, and the speed entries of the analysis. -/
def documentedRules : Rules φ where
  skips path key :=
    (path = [some "state"] && key ∈ ["StartTime", "EndTime", "Hostname"]) ||
    (path = [some "algorithmConfiguration", some "parameters"] && key = "strategySnapshotDir") ||
    (path = [some "totalPerformance", some "closedTrades", none] && key = "id")
  dropsSpeed path := path = [some "analysis"]
  nulls _ := false
  name_kept path := by simp

def canonical (finite : φ → Bool) (payload : Json φ) : Json φ :=
  prune (codeRules finite) [] payload

def documented (payload : Json φ) : Json φ := prune documentedRules [] payload

/-- `canonical_result_sha256` of both is the same: `json.dumps` with sorted keys, and a digest
without collisions, tell apart what is not equal but for the order of keys. -/
def SameDigest (finite : φ → Bool) (payload other : Json φ) : Prop :=
  (canonical finite payload).Same (canonical finite other)

/-- Rules that remove no more than others. -/
structure Within (less more : Rules φ) : Prop where
  skips : ∀ path key, less.skips path key = true → more.skips path key = true
  dropsSpeed : ∀ path, less.dropsSpeed path = true → more.dropsSpeed path = true
  nulls : ∀ x, less.nulls x = true → more.nulls x = true

theorem documented_within (finite : φ → Bool) : Within documentedRules (codeRules finite) where
  skips path key h := by
    simp only [documentedRules, Bool.or_eq_true, Bool.and_eq_true, decide_eq_true_eq] at h
    rcases h with (⟨rfl, hkey⟩ | ⟨rfl, rfl⟩) | ⟨rfl, rfl⟩
    · simp only [List.mem_cons, List.not_mem_nil, or_false] at hkey
      rcases hkey with rfl | rfl | rfl <;>
        exact (show codeSkips [some "state"] _ = true by decide +kernel)
    · exact (show codeSkips [some "algorithmConfiguration", some "parameters"]
        "strategySnapshotDir" = true by decide +kernel)
    · exact (show codeSkips [some "totalPerformance", some "closedTrades", none] "id" = true by
        decide +kernel)
  dropsSpeed path h := by
    simp only [documentedRules, decide_eq_true_eq] at h
    subst h
    exact (show codeDrops [some "analysis"] = true by decide +kernel)
  nulls x h := by cases h

/-! ## Pruning twice -/

theorem lookup_pruneFields (rules : Rules φ) (path : Path) (key : String)
    (fields : List (String × Json φ)) : (pruneFields rules path fields).lookup key =
      if rules.skips path key then none
      else (fields.lookup key).map (prune rules (path ++ [some key])) := by
  induction fields with
  | nil => simp [pruneFields]
  | cons field fields ih =>
    obtain ⟨name, value⟩ := field
    rw [pruneFields, List.lookup_cons]
    by_cases hname : key = name
    · subst hname
      cases hskip : rules.skips path key <;> simp [hskip] at ih ⊢
      exact ih
    · have hne : (key == name) = false := by simpa using hname
      split <;> simp [List.lookup_cons, hne, ih]

theorem isSpeed_prune (rules : Rules φ) (path : Path) (item : Json φ) :
    isSpeed (prune rules path item) = isSpeed item := by
  cases item with
  | object fields =>
    unfold isSpeed prune Json.get?
    dsimp only
    rw [lookup_pruneFields, rules.name_kept]
    cases fields.lookup "name" with
    | none => rfl
    | some value =>
      cases value <;> simp [prune]
      split <;> simp_all
      split at * <;> simp_all
  | float x =>
    unfold prune
    split <;> rfl
  | _ => rfl

section Absorb

variable {less more : Rules φ} (h : Within less more)

include h

/-- What is removed first does not matter to rules that remove it as well. -/
theorem absorb_left (value : Json φ) : ∀ path,
    prune more path (prune less path value) = prune more path value := by
  induction value using Json.induction with
  | hlist items ih =>
    intro path
    simp only [prune, Json.list.injEq]
    induction items with
    | nil => rfl
    | cons item items ihs =>
      have hrest := ihs (fun other hother => ih other (List.mem_cons_of_mem item hother))
      have hitem := ih item (by simp) (path ++ [none])
      rw [pruneItems, pruneItems]
      by_cases hless : (less.dropsSpeed path && isSpeed item) = true
      · have hmore : (more.dropsSpeed path && isSpeed item) = true := by
          rw [Bool.and_eq_true] at hless ⊢
          exact ⟨h.dropsSpeed path hless.1, hless.2⟩
        rw [if_pos hless, if_pos hmore, hrest]
      · rw [if_neg hless, pruneItems, isSpeed_prune, hitem, hrest]
  | hobject fields ih =>
    intro path
    simp only [prune, Json.object.injEq]
    induction fields with
    | nil => rfl
    | cons field fields ihs =>
      obtain ⟨key, value⟩ := field
      have hrest := ihs (fun other hother => ih other (List.mem_cons_of_mem _ hother))
      have hvalue := ih (key, value) (by simp) (path ++ [some key])
      rw [pruneFields, pruneFields]
      by_cases hless : less.skips path key = true
      · rw [if_pos hless, if_pos (h.skips path key hless), hrest]
      · rw [if_neg hless, pruneFields, hvalue, hrest]
  | hfloat x =>
    intro path
    simp only [prune]
    by_cases hx : less.nulls x = true
    · rw [if_pos hx, if_pos (h.nulls x hx)]
      rfl
    · rw [if_neg hx]
      rfl
  | _ => exact fun _ => rfl

/-- Rules that remove less find nothing left to remove. -/
theorem absorb_right (value : Json φ) : ∀ path,
    prune less path (prune more path value) = prune more path value := by
  induction value using Json.induction with
  | hlist items ih =>
    intro path
    simp only [prune, Json.list.injEq]
    induction items with
    | nil => rfl
    | cons item items ihs =>
      have hrest := ihs (fun other hother => ih other (List.mem_cons_of_mem item hother))
      rw [pruneItems]
      split
      · exact hrest
      · next hmore =>
        have hless : ¬ (less.dropsSpeed path && isSpeed item) = true := fun hless => hmore (by
          rw [Bool.and_eq_true] at hless ⊢
          exact ⟨h.dropsSpeed path hless.1, hless.2⟩)
        rw [pruneItems, isSpeed_prune, if_neg hless, ih item (by simp), hrest]
  | hobject fields ih =>
    intro path
    simp only [prune, Json.object.injEq]
    induction fields with
    | nil => rfl
    | cons field fields ihs =>
      obtain ⟨key, value⟩ := field
      have hrest := ihs (fun other hother => ih other (List.mem_cons_of_mem _ hother))
      rw [pruneFields]
      split
      · exact hrest
      · next hmore =>
        rw [pruneFields, if_neg (fun hless => hmore (h.skips path key hless)),
          ih (key, value) (by simp), hrest]
  | hfloat x =>
    intro path
    simp only [prune]
    split
    · rfl
    · next hmore =>
      have hless : ¬ less.nulls x = true := fun hless => hmore (h.nulls x hless)
      simp [prune, hless]
  | _ => exact fun _ => rfl

end Absorb

/-! ## Nothing left to remove -/

variable {rules : Rules φ}

theorem prune_of_untouched (value : Json φ) : ∀ path, Untouched rules path value →
    prune rules path value = value := by
  induction value using Json.induction with
  | hlist items ih =>
    intro path h
    simp only [prune, Json.list.injEq]
    simp only [Untouched] at h
    induction items with
    | nil => rfl
    | cons item items ihs =>
      obtain ⟨hdrop, hitem, hitems⟩ := h
      rw [pruneItems, hdrop, ih item (by simp) _ hitem,
        ihs (fun other hother => ih other (List.mem_cons_of_mem item hother)) hitems]
      rfl
  | hobject fields ih =>
    intro path h
    simp only [prune, Json.object.injEq]
    simp only [Untouched] at h
    induction fields with
    | nil => rfl
    | cons field fields ihs =>
      obtain ⟨key, value⟩ := field
      obtain ⟨hskip, hvalue, hfields⟩ := h
      rw [pruneFields, hskip, ih (key, value) (by simp) _ hvalue,
        ihs (fun other hother => ih other (List.mem_cons_of_mem _ hother)) hfields]
      rfl
  | hfloat x =>
    intro path h
    simp only [Untouched] at h
    simp [prune, h]
  | _ => exact fun _ _ => rfl

theorem keyed_prune (rules : Rules φ) (value : Json φ) : ∀ path, value.Keyed →
    (prune rules path value).Keyed := by
  induction value using Json.induction with
  | hlist items ih =>
    intro path h
    simp only [prune, Json.Keyed] at h ⊢
    induction items with
    | nil => trivial
    | cons item items ihs =>
      have hrest := ihs (fun other hother => ih other (List.mem_cons_of_mem item hother)) h.2
      rw [pruneItems]
      split
      · exact hrest
      · exact ⟨ih item (by simp) _ h.1, hrest⟩
  | hobject fields ih =>
    intro path h
    simp only [prune, Json.Keyed] at h ⊢
    obtain ⟨hnodup, hfields⟩ := h
    have hnames : ((pruneFields rules path fields).map Prod.fst).Sublist (fields.map Prod.fst) := by
      clear ih hnodup hfields
      induction fields with
      | nil => exact .slnil
      | cons field fields ihs =>
        rw [pruneFields]
        split
        · exact ihs.cons field.1
        · exact ihs.cons_cons field.1
    refine ⟨hnodup.sublist hnames, ?_⟩
    clear hnodup hnames
    induction fields with
    | nil => trivial
    | cons field fields ihs =>
      have hrest := ihs (fun other hother => ih other (List.mem_cons_of_mem _ hother)) hfields.2
      rw [pruneFields]
      split
      · exact hrest
      · exact ⟨ih field (by simp) _ hfields.1, hrest⟩
  | hfloat x =>
    intro path h
    simp only [prune]
    split <;> trivial
  | _ => exact fun _ _ => trivial

theorem same_refl (value : Json φ) : value.Keyed → value.Same value := by
  induction value using Json.induction with
  | hlist items ih =>
    intro h
    simp only [Json.Keyed, Json.Same] at h ⊢
    induction items with
    | nil => rfl
    | cons item items ihs =>
      exact ⟨ih item (by simp) h.1,
        ihs (fun other hother => ih other (List.mem_cons_of_mem item hother)) h.2⟩
  | hobject fields ih =>
    intro h
    simp only [Json.Keyed, Json.Same] at h ⊢
    refine ⟨trivial, Json.sameFields_iff.mpr (fun field hfield => ⟨field.2, ?_, ?_⟩)⟩
    · exact lookup_of_nodup h.1 hfield
    · exact ih field hfield (Json.keyedFields_iff.mp h.2 field hfield)
  | _ => exact fun _ => rfl

/-- If pruning leaves the same value, there was nothing to remove. -/
theorem untouched_of_same (value : Json φ) : ∀ path, value.Keyed →
    value.Same (prune rules path value) → Untouched rules path value := by
  induction value using Json.induction with
  | hlist items ih =>
    intro path hkeyed h
    simp only [prune, Json.Keyed, Json.Same, Untouched] at hkeyed h ⊢
    have hlength : ∀ items : List (Json φ), (pruneItems rules path items).length ≤ items.length := by
      intro items
      induction items with
      | nil => exact le_rfl
      | cons item items ihs =>
        rw [pruneItems]
        split <;> simp only [List.length_cons] <;> omega
    induction items with
    | nil => trivial
    | cons item items ihs =>
      have hsame := Json.sameItems_iff.mp h
      rw [pruneItems] at hsame h
      split at hsame
      · have hcount := hsame.length_eq
        have hle := hlength items
        rw [List.length_cons] at hcount
        omega
      · next hdrop =>
        rw [if_neg hdrop] at h
        exact ⟨by simpa using hdrop, ih item (by simp) _ hkeyed.1 h.1,
          ihs (fun other hother => ih other (List.mem_cons_of_mem item hother)) hkeyed.2 h.2⟩
  | hobject fields ih =>
    intro path hkeyed h
    simp only [prune, Json.Keyed, Json.Same, Untouched] at hkeyed h ⊢
    have hfields := Json.sameFields_iff.mp h.2
    have heach : ∀ field ∈ fields, rules.skips path field.1 = false ∧
        Untouched rules (path ++ [some field.1]) field.2 := by
      intro field hfield
      obtain ⟨other, hlookup, hsame⟩ := hfields field hfield
      rw [lookup_pruneFields] at hlookup
      split at hlookup
      · cases hlookup
      · next hskip =>
        rw [lookup_of_nodup hkeyed.1 hfield] at hlookup
        cases Option.some.inj hlookup
        exact ⟨by simpa using hskip,
          ih field hfield _ (Json.keyedFields_iff.mp hkeyed.2 field hfield) hsame⟩
    clear hfields h hkeyed ih
    induction fields with
    | nil => trivial
    | cons field fields ihs =>
      exact ⟨(heach field (by simp)).1, (heach field (by simp)).2,
        ihs (fun other hother => heach other (List.mem_cons_of_mem field hother))⟩
  | hfloat x =>
    intro path _ h
    simp only [prune, Json.Same, Untouched] at h ⊢
    split at h
    · cases h
    · next hnull => simpa using hnull
  | _ => exact fun _ _ _ => trivial

/-! ## The digest -/

/-- Without its documented fields, the code removes nothing from a payload. -/
def Plain (finite : φ → Bool) (payload : Json φ) : Prop :=
  Untouched (codeRules finite) [] (documented payload)

/-- The digests of a payload and of plain ones agree exactly if they are equal without the
documented fields, if the payload is plain and only then. -/
theorem digest_iff_documented (finite : φ → Bool) {payload : Json φ} (hkeyed : payload.Keyed) :
    (∀ other : Json φ, other.Keyed → Plain finite other →
      (SameDigest finite payload other ↔ (documented payload).Same (documented other))) ↔
      Plain finite payload := by
  have hwithin := documented_within finite
  have hcanonical : ∀ value : Json φ, Plain finite value →
      canonical finite value = documented value := by
    intro value hplain
    have h := prune_of_untouched (documented value) [] hplain
    unfold documented at h
    rw [absorb_left hwithin] at h
    exact h
  constructor
  · intro h
    have hself : Within (codeRules finite) (codeRules finite) :=
      ⟨fun _ _ h => h, fun _ h => h, fun _ h => h⟩
    have htwice : canonical finite (canonical finite payload) = canonical finite payload :=
      absorb_left hself payload []
    have hless : documented (canonical finite payload) = canonical finite payload :=
      absorb_right hwithin payload []
    have hkeyed' : (canonical finite payload).Keyed := keyed_prune _ payload [] hkeyed
    have hplain : Plain finite (canonical finite payload) := by
      refine untouched_of_same _ [] ?_ ?_
      · rw [hless]
        exact hkeyed'
      · rw [hless]
        show (canonical finite payload).Same (canonical finite (canonical finite payload))
        rw [htwice]
        exact same_refl _ hkeyed'
    have hsame := (h (canonical finite payload) hkeyed' hplain).mp (by
      unfold SameDigest
      rw [htwice]
      exact same_refl _ hkeyed')
    rw [hless] at hsame
    refine untouched_of_same _ [] (keyed_prune _ payload [] hkeyed) ?_
    unfold documented
    rw [absorb_left hwithin]
    exact hsame
  · intro hplain other _ hother
    unfold SameDigest
    rw [hcanonical payload hplain, hcanonical other hother]

/-! ## A trade's symbol -/

/-- A closed trade, of which the symbol has an id. -/
def tradeOf (id : String) : Json Unit :=
  .object [("totalPerformance", .object [("closedTrades", .list [.object [("symbol",
    .object [("value", .text "SPY"), ("id", .text id)])]])])]

theorem digest_sample : (tradeOf "SPY R735QTJ8XC9X").Keyed ∧
    ((∀ other : Json Unit, other.Keyed → Plain (fun _ => true) other →
      (SameDigest (fun _ => true) (tradeOf "SPY R735QTJ8XC9X") other ↔
        (documented (tradeOf "SPY R735QTJ8XC9X")).Same (documented other))) ↔
      Plain (fun _ => true) (tradeOf "SPY R735QTJ8XC9X")) := by
  have hkeyed : (tradeOf "SPY R735QTJ8XC9X").Keyed := by
    simp [tradeOf, Json.Keyed, Json.KeyedFields, Json.KeyedItems]
  exact ⟨hkeyed, digest_iff_documented (fun _ => true) hkeyed⟩

/-- Trades of different symbols have one digest. -/
theorem symbol_ids_forgotten : ¬ (SameDigest (fun _ => true) (tradeOf "SPY R735QTJ8XC9X")
    (tradeOf "SPY 2T") ↔
      (documented (tradeOf "SPY R735QTJ8XC9X")).Same (documented (tradeOf "SPY 2T"))) := by
  let trades : Path := [some "totalPerformance", some "closedTrades"]
  have hkept : ∀ field ∈ [([], "totalPerformance"), ([some "totalPerformance"], "closedTrades"),
      (trades ++ [none], "symbol"), (trades ++ [none, some "symbol"], "value")],
      codeSkips field.1 field.2 = false := by decide +kernel
  have hid : codeSkips (trades ++ [none, some "symbol"]) "id" = true := by decide +kernel
  have hdrops : codeDrops trades = false := by decide +kernel
  have hcode : ∀ id, canonical (fun _ => true) (tradeOf id) =
      .object [("totalPerformance", .object [("closedTrades", .list [.object [("symbol",
        .object [("value", .text "SPY")])]])])] := by
    intro id
    simp [trades] at hkept hid hdrops
    simp [canonical, tradeOf, prune, pruneFields, pruneItems, codeRules, hkept, hid, hdrops]
  have hdocumented : ∀ id, documented (tradeOf id) = tradeOf id := by
    intro id
    simp [documented, tradeOf, prune, pruneFields, pruneItems, documentedRules]
  intro h
  rw [hdocumented, hdocumented] at h
  have hsame := h.mp (by
    unfold SameDigest
    rw [hcode, hcode]
    exact same_refl _ (by simp [Json.Keyed, Json.KeyedFields, Json.KeyedItems]))
  simp [tradeOf, Json.Same, Json.SameFields, Json.SameItems, List.lookup_cons] at hsame

end LocalPlatform.Backtest.CanonicalResult
