import LocalPlatform.Lib.Json
import LocalPlatform.Lib.Results
import LocalPlatform.Lib.Rows
import Mathlib.Data.Set.List
import Mathlib.Data.String.Basic

/-!
# Imported target portfolios

* `normalizeTargets` reads the targets of a payload, whose weights can be `nan` or infinite.
* `target_portfolio_iff`: what it accepts is a long-only portfolio that does not depend on the order
  of the targets, if no weight is `nan`; and only then.
* `nan_accepted`: a `nan` passes the bounds of its weight and takes the sum with it.
-/

namespace LocalPlatform.Qlib.TargetPortfolio

open Floats Results Tables

abbrev Payload := Json PyFloat

/-- What Python makes of texts. -/
structure Texts where
  /-- `str(value or "").strip().upper()` -/
  instrument : Payload → String
  /-- `char.isdigit()` -/
  isDigit : Char → Bool

structure Target where
  instrument : String
  targetWeight : PyFloat
  score : Payload

/-! ## Reading targets -/

def rawTargets (payload : Payload) : List Payload :=
  match payload.get? "targets" with
  | some (.list raws) => raws
  | _ => []

/-- `float(value)` -/
def float (value : Payload) : Except String PyFloat :=
  match value with
  | .bool b => .ok (.real (if b then 1 else 0))
  | .int n => .ok (.real n)
  | .float x => .ok x
  | .text text => orThrow (readFloat text.toList) ("could not convert string to float: " ++ text)
  | _ => .error "float() argument must be a string or a real number"

/-- `float(item.get("targetWeight", item.get("target_weight")))` -/
def weightOf (raw : Payload) : Except String PyFloat :=
  float (((raw.get? "targetWeight").or (raw.get? "target_weight")).getD .null)

/-- The instrument of a target. -/
def readInstrument (texts : Texts) (raw : Payload) : Except String String := do
  let instrument := texts.instrument ((raw.get? "instrument").getD .null)
  require (instrument.toList.length = 8 ∧
      String.ofList (instrument.toList.take 2) ∈ ["SH", "SZ", "BJ"] ∧
      (instrument.toList.drop 2).all texts.isDigit = true)
    ("Invalid Qlib instrument: " ++ instrument)
  return instrument

/-- The weight of a target; a `nan` is neither below nor above. -/
def readWeight (instrument : String) (raw : Payload) : Except String PyFloat := do
  let weight ← weightOf raw
  require (¬ (weight.lt (.real 0) = true ∨ (PyFloat.real 1).lt weight = true))
    ("Invalid target weight for " ++ instrument)
  return weight

/-- A turn of the loop of `_normalize_targets`. -/
def addTarget (texts : Texts) (seen : List Target) (raw : Payload) : Except String (List Target) := do
  let instrument ← readInstrument texts raw
  require (instrument ∉ seen.map Target.instrument) ("Duplicate Qlib instrument: " ++ instrument)
  let weight ← readWeight instrument raw
  return seen ++ [⟨instrument, weight, (raw.get? "score").getD .null⟩]

def gross (targets : List Target) : PyFloat :=
  (targets.map Target.targetWeight).foldl PyFloat.add (.real 0)

/-- `_normalize_targets` -/
def normalizeTargets (texts : Texts) (payload : Payload) : Except String (List Target) := do
  require ((rawTargets payload).isEmpty = false) "TARGET_PORTFOLIO payload must contain targets"
  let targets ← (rawTargets payload).foldlM (addTarget texts) []
  require (¬ (PyFloat.real (1000001 / 1000000)).lt (gross targets) = true)
    "Gross target exposure exceeds 1.0"
  return orderBy Target.instrument targets

/-! ## What a portfolio promises -/

/-- A long-only portfolio. -/
structure Valid (targets : List Target) : Prop where
  sorted : targets.Pairwise (fun a b => a.instrument < b.instrument)
  weights : ∀ target ∈ targets, ∃ weight : ℚ,
    target.targetWeight = .real weight ∧ 0 ≤ weight ∧ weight ≤ 1
  gross : ∃ total : ℚ, gross targets = .real total ∧ total ≤ 1000001 / 1000000

/-! ## The loop -/

/-- The target that is read from an item of a payload. -/
structure Reads (texts : Texts) (raw : Payload) (target : Target) : Prop where
  instrument : readInstrument texts raw = .ok target.instrument
  weight : readWeight target.instrument raw = .ok target.targetWeight
  score : target.score = (raw.get? "score").getD .null

section Loop

variable {texts : Texts} {payload other : Payload} {seen targets : List Target}

theorem addTarget_ok {raw : Payload} {next : List Target} : addTarget texts seen raw = .ok next ↔
    ∃ target, Reads texts raw target ∧ target.instrument ∉ seen.map Target.instrument ∧
      next = seen ++ [target] := by
  constructor
  · intro h
    obtain ⟨instrument, hinstrument, h⟩ := bind_ok h
    obtain ⟨_, hfresh, h⟩ := bind_ok h
    obtain ⟨weight, hweight, h⟩ := bind_ok h
    rw [require_ok] at hfresh
    exact ⟨⟨instrument, weight, _⟩, ⟨hinstrument, hweight, rfl⟩, hfresh, (Except.ok.inj h).symm⟩
  · rintro ⟨⟨instrument, weight, score⟩, hreads, hfresh, rfl⟩
    unfold addTarget
    rw [hreads.instrument]
    show (require _ _ >>= _) = _
    rw [require_of hfresh]
    show (readWeight instrument raw >>= _) = _
    have hscore : score = (raw.get? "score").getD .null := hreads.score
    rw [hreads.weight, hscore]
    rfl

theorem foldlM_addTarget : ∀ {raws : List Payload} {seen targets : List Target},
    (seen.map Target.instrument).Nodup →
    (raws.foldlM (addTarget texts) seen = .ok targets ↔
      ∃ added, List.Forall₂ (Reads texts) raws added ∧ targets = seen ++ added ∧
        (targets.map Target.instrument).Nodup) := by
  intro raws
  induction raws with
  | nil =>
    intro seen targets hnodup
    constructor
    · intro h
      have heq := Except.ok.inj h
      exact ⟨[], .nil, by simp [heq], heq ▸ hnodup⟩
    · rintro ⟨added, hreads, rfl, _⟩
      cases hreads
      simp [pure, Except.pure]
  | cons raw raws ih =>
    intro seen targets hnodup
    rw [List.foldlM_cons]
    constructor
    · intro h
      obtain ⟨next, hnext, h⟩ := bind_ok h
      obtain ⟨target, hreads, hfresh, rfl⟩ := addTarget_ok.mp hnext
      have hnodup' : ((seen ++ [target]).map Target.instrument).Nodup := by
        rw [List.map_append, List.map_singleton, List.nodup_append_comm]
        exact List.nodup_cons.mpr ⟨hfresh, hnodup⟩
      obtain ⟨added, hadded, rfl, hall⟩ := (ih hnodup').mp h
      exact ⟨target :: added, .cons hreads hadded, by simp, hall⟩
    · rintro ⟨added, hadded, rfl, hall⟩
      cases hadded with
      | @cons _ target _ rest hreads hrest =>
        have hsplit : seen ++ target :: rest = seen ++ [target] ++ rest := by simp
        rw [hsplit] at hall ⊢
        have hnodup' : ((seen ++ [target]).map Target.instrument).Nodup := by
          rw [List.map_append] at hall
          exact (List.nodup_append.mp hall).1
        have hfresh : target.instrument ∉ seen.map Target.instrument := by
          rw [List.map_append, List.map_singleton, List.nodup_append_comm] at hnodup'
          exact (List.nodup_cons.mp hnodup').1
        rw [addTarget_ok.mpr ⟨target, hreads, hfresh, rfl⟩]
        exact (ih hnodup').mpr ⟨rest, hrest, rfl, hall⟩

theorem loop_ok {raws : List Payload} : raws.foldlM (addTarget texts) [] = .ok targets ↔
    List.Forall₂ (Reads texts) raws targets ∧ (targets.map Target.instrument).Nodup := by
  have hstart : (([] : List Target).map Target.instrument).Nodup := by simp
  rw [foldlM_addTarget hstart]
  constructor
  · rintro ⟨added, hadded, rfl, hnodup⟩
    exact ⟨hadded, hnodup⟩
  · rintro ⟨hreads, hnodup⟩
    exact ⟨targets, hreads, rfl, hnodup⟩

theorem weight_cases {instrument : String} {raw : Payload} {weight : PyFloat}
    (h : readWeight instrument raw = .ok weight) :
    weightOf raw = .ok weight ∧ (weight = .nan ∨ ∃ x : ℚ, weight = .real x ∧ 0 ≤ x ∧ x ≤ 1) := by
  obtain ⟨_, hweight, h⟩ := bind_ok h
  obtain ⟨_, hbounds, h⟩ := bind_ok h
  rw [require_ok] at hbounds
  cases Except.ok.inj h
  refine ⟨hweight, ?_⟩
  cases weight with
  | nan => exact .inl rfl
  | negInf => simp [PyFloat.lt] at hbounds
  | posInf => simp [PyFloat.lt] at hbounds
  | real x =>
    simp only [PyFloat.lt, decide_eq_true_eq, not_or, not_lt] at hbounds
    exact .inr ⟨x, rfl, hbounds⟩

end Loop

/-! ## The sum -/

theorem foldl_add_real : ∀ (numbers : List ℚ) (start : ℚ),
    (numbers.map PyFloat.real).foldl PyFloat.add (PyFloat.real start) =
      PyFloat.real (start + numbers.sum) := by
  intro numbers
  induction numbers with
  | nil => simp
  | cons number rest ih =>
    intro start
    rw [List.map_cons, List.foldl_cons, List.sum_cons, ← add_assoc]
    exact ih (start + number)

theorem gross_perm {targets others : List Target} (h : targets.Perm others) :
    gross targets = gross others := by
  have hcomm : RightCommutative PyFloat.add := by
    constructor
    intro a b c
    cases a <;> cases b <;> cases c <;> simp [PyFloat.add, add_right_comm]
  exact (h.map Target.targetWeight).foldl_eq (PyFloat.real 0)

/-! ## Accepted payloads -/

section Accepted

variable {texts : Texts} {payload other : Payload} {result : List Target}

theorem normalizeTargets_ok : normalizeTargets texts payload = .ok result ↔
    (rawTargets payload).isEmpty = false ∧ ∃ targets,
      List.Forall₂ (Reads texts) (rawTargets payload) targets ∧
      (targets.map Target.instrument).Nodup ∧
      ¬ (PyFloat.real (1000001 / 1000000)).lt (gross targets) = true ∧
      result = orderBy Target.instrument targets := by
  constructor
  · intro h
    obtain ⟨_, hsome, h⟩ := bind_ok h
    obtain ⟨targets, htargets, h⟩ := bind_ok h
    obtain ⟨_, hgross, h⟩ := bind_ok h
    rw [require_ok] at hsome hgross
    obtain ⟨hreads, hnodup⟩ := loop_ok.mp htargets
    exact ⟨hsome, targets, hreads, hnodup, hgross, (Except.ok.inj h).symm⟩
  · rintro ⟨hsome, targets, hreads, hnodup, hgross, rfl⟩
    unfold normalizeTargets
    rw [loop_ok.mpr ⟨hreads, hnodup⟩, require_of hsome]
    show (require _ _ >>= _) = _
    rw [require_of hgross]
    rfl

theorem normalizeTargets_perm (h : normalizeTargets texts payload = .ok result)
    (hperm : (rawTargets other).Perm (rawTargets payload)) :
    normalizeTargets texts other = .ok result := by
  obtain ⟨hsome, targets, hreads, hnodup, hgross, rfl⟩ := normalizeTargets_ok.mp h
  obtain ⟨others, hothers, hsame⟩ := List.perm_comp_forall₂ hperm hreads
  have hnodup' : (others.map Target.instrument).Nodup := (hsame.map _).nodup_iff.mpr hnodup
  refine normalizeTargets_ok.mpr ⟨?_, others, hothers, hnodup', ?_, ?_⟩
  · rw [hperm.isEmpty_eq]
    exact hsome
  · rw [gross_perm hsame]
    exact hgross
  · exact (orderBy_eq_of_perm hnodup' hsame).symm

/-- An accepted payload gives a long-only portfolio, the same for every order of its targets, if no
weight of it is a `nan`; and only then. -/
theorem target_portfolio_iff (h : normalizeTargets texts payload = .ok result) :
    (Valid result ∧ ∀ other, (rawTargets other).Perm (rawTargets payload) →
      normalizeTargets texts other = .ok result) ↔
      ∀ raw ∈ rawTargets payload, weightOf raw ≠ .ok .nan := by
  obtain ⟨_, targets, hreads, hnodup, hgross, rfl⟩ := normalizeTargets_ok.mp h
  have hread := exists_of_forall₂ hreads
  constructor
  · rintro ⟨hvalid, _⟩ raw hraw hnan
    obtain ⟨target, htarget, hreads⟩ := hread.1 raw hraw
    obtain ⟨weight, hweight, _⟩ := hvalid.weights target (mem_orderBy.mpr htarget)
    have hsame := (weight_cases hreads.weight).1
    rw [hnan, hweight] at hsame
    cases hsame
  · intro hnumbers
    have hweights : ∀ target ∈ targets, ∃ weight : ℚ,
        target.targetWeight = .real weight ∧ 0 ≤ weight ∧ weight ≤ 1 := by
      intro target htarget
      obtain ⟨raw, hraw, hreads⟩ := hread.2 target htarget
      obtain ⟨hweight, hnan | hreal⟩ := weight_cases hreads.weight
      · rw [hnan] at hweight
        exact absurd hweight (hnumbers raw hraw)
      · exact hreal
    refine ⟨⟨orderBy_strict hnodup, fun target htarget => hweights target (mem_orderBy.mp htarget),
      ?_⟩, fun other => normalizeTargets_perm h⟩
    have hrange : targets.map Target.targetWeight ∈ Set.range (List.map PyFloat.real) := by
      rw [Set.range_list_map]
      intro weight hweight
      obtain ⟨target, htarget, rfl⟩ := List.mem_map.mp hweight
      obtain ⟨number, hnumber, _⟩ := hweights target htarget
      exact ⟨number, hnumber.symm⟩
    obtain ⟨numbers, hnumbers⟩ := hrange
    have htotal : gross targets = .real (0 + numbers.sum) := by
      unfold gross
      rw [← hnumbers]
      exact foldl_add_real numbers 0
    rw [gross_perm (orderBy_perm _ targets), htotal]
    rw [htotal] at hgross
    exact ⟨_, rfl, by simpa [PyFloat.lt] using hgross⟩

end Accepted

/-! ## A payload -/

def sampleTexts : Texts where
  instrument := fun value =>
    match value with
    | .text text => text
    | _ => ""
  isDigit := Char.isDigit

/-- A payload with a weight for each of two instruments. -/
def samplePayload (first second : PyFloat) : Payload :=
  .object [("targets", .list
    [.object [("instrument", .text "SZ000001"), ("targetWeight", .float first)],
      .object [("instrument", .text "SH600000"), ("target_weight", .float second)]])]

theorem isOk_samplePayload :
    (normalizeTargets sampleTexts (samplePayload (.real (3 / 10)) (.real (1 / 2)))).isOk = true := by
  decide +kernel

theorem target_portfolio_iff_sample : ∃ result,
    normalizeTargets sampleTexts (samplePayload (.real (3 / 10)) (.real (1 / 2))) = .ok result ∧
      ((Valid result ∧ ∀ other, (rawTargets other).Perm
          (rawTargets (samplePayload (.real (3 / 10)) (.real (1 / 2)))) →
        normalizeTargets sampleTexts other = .ok result) ↔
      ∀ raw ∈ rawTargets (samplePayload (.real (3 / 10)) (.real (1 / 2))),
        weightOf raw ≠ .ok .nan) := by
  obtain ⟨result, h⟩ := exists_of_isOk isOk_samplePayload
  exact ⟨result, h, target_portfolio_iff h⟩

/-- A `nan` is accepted beside a weight, and the sum of the weights is not checked any more. -/
theorem nan_accepted : ∃ result,
    normalizeTargets sampleTexts (samplePayload .nan (.real 1)) = .ok result ∧ ¬ Valid result := by
  obtain ⟨result, h⟩ := exists_of_isOk (show (normalizeTargets sampleTexts
    (samplePayload .nan (.real 1))).isOk = true by decide +kernel)
  refine ⟨result, h, fun hvalid => ?_⟩
  have hweight : ∃ target ∈ result, target.targetWeight = .nan := by
    obtain ⟨_, targets, hreads, _, _, rfl⟩ := normalizeTargets_ok.mp h
    obtain ⟨target, htarget, hreads⟩ := (exists_of_forall₂ hreads).1 _ List.mem_cons_self
    refine ⟨target, mem_orderBy.mpr htarget, ?_⟩
    exact (Except.ok.inj (weight_cases hreads.weight).1).symm
  obtain ⟨target, htarget, hnan⟩ := hweight
  obtain ⟨weight, hreal, _⟩ := hvalid.weights target htarget
  rw [hnan] at hreal
  cases hreal

end LocalPlatform.Qlib.TargetPortfolio
