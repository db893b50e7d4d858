import Mathlib.Data.List.Chain

/-!
# Revalidation of a persisted backtest

* `mergeExecutionValidation` puts the audit of an execution into the validation of a backtest.  The
  gates of the preflight are those whose name is not the name of a gate of the previous audit.
* `revalidation_iff` says when a merge after a merge is the merge into the preflight, and when the
  last of many audits is the only one that counts.
* `failed_audit_stays`: without gates in the preflight, a failed audit is taken for its verdict.
-/

namespace LocalPlatform.Backtest.Revalidation

variable {δ : Type}

/-! ## Validations -/

/-- A gate, with its other fields. -/
structure Gate (δ : Type) where
  name : Option String
  passed : Bool
  detail : δ
  deriving DecidableEq

/-- The audit of an execution, with its other fields. -/
structure Audit (δ : Type) where
  gates : List (Gate δ)
  passed : Bool
  detail : δ
  deriving DecidableEq

/-- A validation.  Gates that are missing are none, and `passed` may be missing. -/
structure Validation (δ : Type) where
  fields : List (String × δ)
  gates : List (Gate δ)
  passed : Option Bool
  severity : Option String
  execution : Option (Audit δ)
  deriving DecidableEq

/-- The names of the gates of the previous audit. -/
def Validation.previousNames (validation : Validation δ) : List (Option String) :=
  ((validation.execution.map Audit.gates).getD []).map Gate.name

/-- The gates that are taken for those of the preflight. -/
def Validation.preflightGates (validation : Validation δ) : List (Gate δ) :=
  validation.gates.filter (fun gate => gate.name ∉ validation.previousNames)

/-- The verdict that is taken for that of the preflight. -/
def Validation.preflightPassed (validation : Validation δ) : Bool :=
  if validation.preflightGates ≠ [] then validation.preflightGates.all Gate.passed
  else validation.passed.getD true

/-- `merge_execution_validation` -/
def mergeExecutionValidation (preflight : Option (Validation δ)) (execution : Audit δ) :
    Validation δ :=
  let merged := preflight.getD ⟨[], [], none, none, none⟩
  let passed := merged.preflightPassed && execution.passed
  { fields := merged.fields
    gates := merged.preflightGates ++ execution.gates
    passed := some passed
    severity := some (if passed then "ok" else "critical")
    execution := some execution }

/-- A validation before any execution: one that has no audit. -/
structure Preflight (δ : Type) where
  fields : List (String × δ)
  gates : List (Gate δ)
  passed : Option Bool
  severity : Option String
  deriving DecidableEq

def Preflight.validation (preflight : Preflight δ) : Validation δ :=
  ⟨preflight.fields, preflight.gates, preflight.passed, preflight.severity, none⟩

def Preflight.merge (preflight : Preflight δ) (execution : Audit δ) : Validation δ :=
  mergeExecutionValidation (some preflight.validation) execution

/-! ## Merging again -/

/-- The preflight is recovered from what an audit was merged into: no gate of it has the name of a
gate of the audit, and a preflight that passes without gates is not taken to fail with the audit. -/
structure Recovers (preflight : Preflight δ) (previous execution : Audit δ) : Prop where
  names : ∀ gate ∈ preflight.gates, gate.name ∉ previous.gates.map Gate.name
  verdict : preflight.gates = [] → preflight.passed.getD true = true → execution.passed = true →
    previous.passed = true

variable {preflight : Preflight δ} {previous execution : Audit δ}

theorem Preflight.preflightGates (preflight : Preflight δ) :
    preflight.validation.preflightGates = preflight.gates := by
  simp [Validation.preflightGates, Validation.previousNames, Preflight.validation]

theorem Preflight.preflightPassed (preflight : Preflight δ) :
    preflight.validation.preflightPassed =
      if preflight.gates ≠ [] then preflight.gates.all Gate.passed
      else preflight.passed.getD true := by
  unfold Validation.preflightPassed
  rw [preflight.preflightGates]
  rfl

theorem merged_preflightGates : (preflight.merge previous).preflightGates =
    preflight.gates.filter (fun gate => gate.name ∉ previous.gates.map Gate.name) := by
  have hnames : (preflight.merge previous).previousNames = previous.gates.map Gate.name := rfl
  have hgates : (preflight.merge previous).gates = preflight.gates ++ previous.gates := by
    show preflight.validation.preflightGates ++ previous.gates = _
    rw [preflight.preflightGates]
  have hnone : previous.gates.filter (fun gate => gate.name ∉ previous.gates.map Gate.name) = [] := by
    refine List.filter_eq_nil_iff.mpr (fun gate hgate => ?_)
    simpa using ⟨gate, hgate, rfl⟩
  unfold Validation.preflightGates
  rw [hnames, hgates, List.filter_append, hnone, List.append_nil]

theorem merged_preflightGates_iff :
    (preflight.merge previous).preflightGates = preflight.gates ↔
      ∀ gate ∈ preflight.gates, gate.name ∉ previous.gates.map Gate.name := by
  rw [merged_preflightGates, List.filter_eq_self]
  simp

theorem merge_eq_iff : mergeExecutionValidation (some (preflight.merge previous)) execution =
      preflight.merge execution ↔
    (preflight.merge previous).preflightGates = preflight.gates ∧
      ((preflight.merge previous).preflightPassed && execution.passed) =
        (preflight.validation.preflightPassed && execution.passed) := by
  constructor
  · intro h
    have hgates : (preflight.merge previous).preflightGates ++ execution.gates =
        preflight.validation.preflightGates ++ execution.gates := congrArg Validation.gates h
    have hpassed : some ((preflight.merge previous).preflightPassed && execution.passed) =
        some (preflight.validation.preflightPassed && execution.passed) :=
      congrArg Validation.passed h
    rw [preflight.preflightGates] at hgates
    exact ⟨List.append_cancel_right hgates, Option.some.inj hpassed⟩
  · rintro ⟨hgates, hpassed⟩
    have hsame : ∀ (a b : List (Gate δ)) (p q : Bool), a = b → p = q →
        (⟨preflight.fields, a ++ execution.gates, some p, some (if p then "ok" else "critical"),
          some execution⟩ : Validation δ) =
        ⟨preflight.fields, b ++ execution.gates, some q, some (if q then "ok" else "critical"),
          some execution⟩ := by
      rintro a b p q rfl rfl
      rfl
    exact hsame _ _ _ _ (hgates.trans preflight.preflightGates.symm) hpassed

theorem merge_again_iff : mergeExecutionValidation (some (preflight.merge previous)) execution =
    preflight.merge execution ↔ Recovers preflight previous execution := by
  rw [merge_eq_iff, merged_preflightGates_iff]
  have hverdict : (∀ gate ∈ preflight.gates, gate.name ∉ previous.gates.map Gate.name) →
      (((preflight.merge previous).preflightPassed && execution.passed) =
          (preflight.validation.preflightPassed && execution.passed) ↔
        (preflight.gates = [] → preflight.passed.getD true = true → execution.passed = true →
          previous.passed = true)) := by
    intro hnames
    have hgates := merged_preflightGates_iff.mpr hnames
    have hpassed := preflight.preflightPassed
    have hmerged : (preflight.merge previous).preflightPassed =
        if preflight.gates ≠ [] then preflight.gates.all Gate.passed
        else preflight.validation.preflightPassed && previous.passed := by
      unfold Validation.preflightPassed
      rw [hgates]
      rfl
    rw [hmerged, hpassed]
    by_cases hnil : preflight.gates = []
    · simp only [hnil, ne_eq, not_true_eq_false, if_false]
      cases preflight.passed.getD true <;> cases previous.passed <;> cases execution.passed <;> simp
    · simp [hnil]
  constructor
  · rintro ⟨hnames, hsame⟩
    exact ⟨hnames, (hverdict hnames).mp hsame⟩
  · intro h
    exact ⟨h.names, (hverdict h.names).mpr h.verdict⟩

theorem merge_all (audits : List (Audit δ)) : ∀ {first : Audit δ},
    (first :: audits).IsChain (Recovers preflight) →
      audits.foldl (fun merged audit => mergeExecutionValidation (some merged) audit)
          (preflight.merge first) =
        preflight.merge ((first :: audits).getLast (List.cons_ne_nil _ _)) := by
  induction audits with
  | nil =>
    intro first _
    rfl
  | cons second audits ih =>
    intro first h
    obtain ⟨hfirst, hrest⟩ := List.isChain_cons_cons.mp h
    rw [List.foldl_cons, merge_again_iff.mpr hfirst, ih hrest]
    rfl

/-- A revalidation replaces the previous audit exactly if the preflight is recovered. -/
theorem revalidation_iff (preflight : Preflight δ) :
    (∀ previous execution : Audit δ,
      mergeExecutionValidation (some (preflight.merge previous)) execution =
        preflight.merge execution ↔ Recovers preflight previous execution) ∧
    ∀ (first : Audit δ) (audits : List (Audit δ)),
      (first :: audits).IsChain (Recovers preflight) →
        audits.foldl (fun merged audit => mergeExecutionValidation (some merged) audit)
            (preflight.merge first) =
          preflight.merge ((first :: audits).getLast (List.cons_ne_nil _ _)) :=
  ⟨fun _ _ => merge_again_iff, fun _ audits h => merge_all audits h⟩

theorem revalidation_iff_sample :
    mergeExecutionValidation (some (Preflight.merge
        ⟨[], [⟨some "data_version_available", true, ()⟩], some true, none⟩
        ⟨[⟨some "result_file_exists", false, ()⟩], false, ()⟩))
      ⟨[⟨some "result_file_exists", true, ()⟩], true, ()⟩ =
    Preflight.merge ⟨[], [⟨some "data_version_available", true, ()⟩], some true, none⟩
      ⟨[⟨some "result_file_exists", true, ()⟩], true, ()⟩ :=
  ((revalidation_iff _).1 _ _).mpr ⟨by decide, by decide⟩

/-- The verdict of a preflight without gates is lost in a failed audit: the next audit passes, and
the validation stays critical. -/
theorem failed_audit_stays : ¬ ∀ (preflight : Preflight Unit) (previous execution : Audit Unit),
    mergeExecutionValidation (some (preflight.merge previous)) execution =
      preflight.merge execution := by
  intro h
  have hsame := h ⟨[], [], some true, none⟩ ⟨[⟨some "result_file_exists", false, ()⟩], false, ()⟩
    ⟨[⟨some "result_file_exists", true, ()⟩], true, ()⟩
  exact absurd (congrArg Validation.passed hsame) (by decide)

end LocalPlatform.Backtest.Revalidation
