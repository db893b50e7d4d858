import LocalPlatform.Lib.Results
import LocalPlatform.Strategies.Admission

/-!
# What a validated admission stands for

* `Evaluated` is what an admission past its baseline stands for: its evaluation passed, or is on
  watch, against the baseline that it has now.
* `Validated` is what a validated admission stands for as well: a stopped session of the strategy,
  with the parameters of the admission and the version of the evaluated runs.
* The call that validates looks at neither the parameters nor the version of the session.
  `SessionMatches` is what it would have to find, and `paper_validated_sound` that nothing else is
  missing.
-/

namespace LocalPlatform.Strategies

open Machines Results Tables

/-! ## The promises -/

/-- The parameters that a session ran with: those of its backtest, if it has one. -/
def sessionParameters (evidence : Evidence) (session : PaperSession) : Parameters :=
  match session.sourceBacktestId.bind evidence.runs with
  | some run => run.parameters
  | none => session.parameters

def versionOf (evidence : Evidence) (runId : String) : Option String :=
  (evidence.runs runId).bind RunRow.strategyVersionId

/-- The session of the latest validation of an admission. -/
def validatingSession (events : List StageEvent) (id : String) : Option String :=
  (events.filter (fun event => event.admissionId = id ∧
    event.stage = .paperValidated)).getLast?.bind StageEvent.sourceId

/-- The latest evaluation passed, or is on watch, against the current baseline. -/
def Evaluated (admission : Admission) : Prop :=
  ∃ profile runs, profileOf admission.profileName = .ok profile ∧
    admission.evaluation = some (evaluationOf profile admission.baseline.aggregate runs) ∧
    (evaluationOf profile admission.baseline.aggregate runs).status ≠ .fail

/-- The session ran with the parameters of a digest and the version of the evaluated runs. -/
structure Matches (evidence : Evidence) (session : PaperSession) (hash : String)
    (evaluation : Option Evaluation) : Prop where
  parameters : evidence.parametersSha256 (sessionParameters evidence session) = hash
  version : ∀ evaluated ∈ evaluation, ∀ run ∈ evaluated.runs,
    versionOf evidence run.runId = session.strategyVersionId

/-- The session of the latest validation bears the admission out. -/
def Validated (evidence : Evidence) (events : List StageEvent) (admission : Admission) : Prop :=
  ∃ sessionId session, validatingSession events admission.id = some sessionId ∧
    evidence.sessions sessionId = some session ∧ session.status = "stopped" ∧
    session.projectId = some admission.strategyId ∧
    Matches evidence session admission.parametersSha256 admission.evaluation

/-- What every admission of a state stands for. -/
structure StagesSound (evidence : Evidence) (s : State) : Prop where
  evaluated : ∀ admission ∈ s.admissions, admission.currentStage ≠ .baselineRegistered →
    Evaluated admission
  validated : ∀ admission ∈ s.admissions, admission.currentStage = .paperValidated →
    Validated evidence s.events admission

/-- A call that validates names a session that ran with the submitted parameters and the version of
the evaluated runs, if it is a stopped session of the strategy. -/
def SessionMatches (evidence : Evidence) (s : State) : Call → Prop
  | .validate call =>
    ∀ session ∈ evidence.sessions call.sessionId, session.status = "stopped" →
      session.projectId = some call.strategyId →
        ∀ admission ∈ getAdmission s call.strategyId
          (evidence.parametersSha256 call.parameters) call.profileName,
          Matches evidence session (evidence.parametersSha256 call.parameters) admission.evaluation
  | _ => True

instance (evidence : Evidence) (session : PaperSession) (hash : String)
    (evaluation : Option Evaluation) : Decidable (Matches evidence session hash evaluation) :=
  decidable_of_iff (evidence.parametersSha256 (sessionParameters evidence session) = hash ∧
      ∀ evaluated ∈ evaluation, ∀ run ∈ evaluated.runs,
        versionOf evidence run.runId = session.strategyVersionId)
    ⟨fun h => ⟨h.1, h.2⟩, fun h => ⟨h.parameters, h.version⟩⟩

instance (evidence : Evidence) (s : State) : (call : Call) → Decidable (SessionMatches evidence s call)
  | .register _ => .isTrue trivial
  | .evaluate _ => .isTrue trivial
  | .validate call => inferInstanceAs (Decidable
      (∀ session ∈ evidence.sessions call.sessionId, session.status = "stopped" →
        session.projectId = some call.strategyId →
          ∀ admission ∈ getAdmission s call.strategyId
            (evidence.parametersSha256 call.parameters) call.profileName,
            Matches evidence session (evidence.parametersSha256 call.parameters)
              admission.evaluation))

instance (evidence : Evidence) (s : State) (call : Call) :
    Decidable ((admissions evidence).allowed s call) := .isTrue trivial

/-! ## What the calls do -/

section Calls

variable {evidence : Evidence} {s next : State}

theorem getAdmission_some {strategyId hash profileName : String} {admission : Admission}
    (h : getAdmission s strategyId hash profileName = some admission) :
    admission ∈ s.admissions ∧ admission.strategyId = strategyId ∧
      admission.parametersSha256 = hash ∧ admission.profileName = profileName := by
  have hkey := find_key h
  simp only [Admission.key, Prod.mk.injEq] at hkey
  exact ⟨mem_of_find h, hkey⟩

theorem registerBaseline_cases {call : RegisterCall}
    (h : registerBaseline evidence s call = .ok next) :
    (∃ existing ∈ s.admissions, ∃ version snapshot sourceId,
        next = s.record existing.id
          (fun old => { old with
            strategyVersionId := version
            sampleSet := call.sampleSet
            currentStage := .baselineRegistered
            baseline := snapshot
            evaluation := none }) .baselineRegistered sourceId) ∨
      ∃ added event, (∀ old ∈ s.admissions, old.id ≠ added.id) ∧
        added.currentStage = .baselineRegistered ∧ event.stage = .baselineRegistered ∧
        next = { admissions := s.admissions ++ [added], events := s.events ++ [event] } := by
  obtain ⟨profile, _, hrest⟩ := bind_ok h
  obtain ⟨runs, _, hrest⟩ := bind_ok hrest
  obtain ⟨_, hrest⟩ := guard_ok hrest
  obtain ⟨_, hrest⟩ := guard_ok hrest
  cases hget : getAdmission s call.strategyId (evidence.parametersSha256 call.parameters)
      call.profileName with
  | some existing =>
    rw [hget] at hrest
    exact .inl ⟨existing, (getAdmission_some hget).1, _, _, _, (Except.ok.inj hrest).symm⟩
  | none =>
    rw [hget] at hrest
    obtain ⟨hid, hrest⟩ := guard_ok hrest
    refine .inr ⟨_, _, ?_, ?_, ?_, (Except.ok.inj hrest).symm⟩
    · intro old hold heq
      apply hid
      exact List.any_eq_true.mpr ⟨old, hold, decide_eq_true heq⟩
    · rfl
    · rfl

theorem evaluateAdmission_cases {call : EvaluateCall}
    (h : evaluateAdmission evidence s call = .ok next) :
    ∃ admission ∈ s.admissions, ∃ profile runs sourceId,
      profileOf admission.profileName = .ok profile ∧
      next = s.record admission.id
        (fun old => { old with
          currentStage := (evaluationOf profile admission.baseline.aggregate runs).status.stage
          evaluation := some (evaluationOf profile admission.baseline.aggregate runs) })
        (evaluationOf profile admission.baseline.aggregate runs).status.stage sourceId := by
  obtain ⟨profile, hprofile, hrest⟩ := bind_ok h
  dsimp only at hrest
  cases hget : getAdmission s call.strategyId (evidence.parametersSha256 call.parameters)
      call.profileName with
  | none =>
    rw [hget] at hrest
    cases hrest
  | some admission =>
    rw [hget] at hrest
    obtain ⟨runs, _, hrest⟩ := bind_ok hrest
    obtain ⟨_, hrest⟩ := guard_ok hrest
    have hfound := getAdmission_some hget
    refine ⟨admission, hfound.1, profile, _, _, ?_, (Except.ok.inj hrest).symm⟩
    rw [hfound.2.2.2]
    exact hprofile

theorem validatePaperStage_cases {call : ValidateCall}
    (h : validatePaperStage evidence s call = .ok next) :
    ∃ admission session, getAdmission s call.strategyId
        (evidence.parametersSha256 call.parameters) call.profileName = some admission ∧
      admission.currentStage ≠ .baselineRegistered ∧
      evidence.sessions call.sessionId = some session ∧ session.status = "stopped" ∧
      session.projectId = some call.strategyId ∧
      next = s.record admission.id (fun old => { old with currentStage := .paperValidated })
        .paperValidated (some call.sessionId) := by
  obtain ⟨profile, _, hrest⟩ := bind_ok h
  obtain ⟨_, hrest⟩ := guard_ok hrest
  dsimp only at hrest
  cases hget : getAdmission s call.strategyId (evidence.parametersSha256 call.parameters)
      call.profileName with
  | none =>
    rw [hget] at hrest
    cases hrest
  | some admission =>
    rw [hget] at hrest
    obtain ⟨hstage, hrest⟩ := guard_ok hrest
    cases hsession : evidence.sessions call.sessionId with
    | none =>
      rw [hsession] at hrest
      cases hrest
    | some session =>
      rw [hsession] at hrest
      obtain ⟨hproject, hrest⟩ := guard_ok hrest
      obtain ⟨hstopped, hrest⟩ := guard_ok hrest
      obtain ⟨_, hrest⟩ := guard_ok hrest
      obtain ⟨_, hrest⟩ := guard_ok hrest
      exact ⟨admission, session, rfl, hstage, rfl, not_ne_iff.mp hstopped,
        not_ne_iff.mp hproject, (Except.ok.inj hrest).symm⟩

end Calls

/-! ## A recorded stage -/

section Record

variable {evidence : Evidence} {s : State} {id : String} {change : Admission → Admission}
  {stage : Stage} {sourceId : Option String}

theorem mem_record {admission : Admission}
    (h : admission ∈ (s.record id change stage sourceId).admissions) :
    (admission ∈ s.admissions ∧ admission.id ≠ id) ∨
      ∃ old ∈ s.admissions, old.id = id ∧ admission = change old := by
  obtain ⟨old, hold, heq⟩ := List.mem_map.mp h
  by_cases hid : old.id = id
  · rw [if_pos hid] at heq
    exact .inr ⟨old, hold, hid, heq.symm⟩
  · rw [if_neg hid] at heq
    rw [← heq]
    exact .inl ⟨hold, hid⟩

theorem unique_record (h : Unique Admission.id s.admissions) (hid : ∀ old, (change old).id = old.id) :
    Unique Admission.id (s.record id change stage sourceId).admissions := by
  apply Unique.map h
  intro old _
  split_ifs
  · exact hid old
  · rfl

theorem validatingSession_append {events : List StageEvent} {event : StageEvent} {other : String}
    (h : event.admissionId ≠ other ∨ event.stage ≠ .paperValidated) :
    validatingSession (events ++ [event]) other = validatingSession events other := by
  have hnot : ¬ (event.admissionId = other ∧ event.stage = .paperValidated) := by
    rintro ⟨hother, hstage⟩
    cases h with
    | inl hne => exact hne hother
    | inr hne => exact hne hstage
  unfold validatingSession
  rw [List.filter_append, List.filter_cons_of_neg (by simpa using hnot), List.filter_nil,
    List.append_nil]

theorem StagesSound.record (h : StagesSound evidence s)
    (hevaluated : ∀ old ∈ s.admissions, old.id = id →
      (change old).currentStage ≠ .baselineRegistered → Evaluated (change old))
    (hvalidated : ∀ old ∈ s.admissions, old.id = id →
      (change old).currentStage = .paperValidated →
        Validated evidence (s.record id change stage sourceId).events (change old)) :
    StagesSound evidence (s.record id change stage sourceId) := by
  constructor
  · intro admission hadmission hstage
    cases mem_record hadmission with
    | inl hsame => exact h.evaluated admission hsame.1 hstage
    | inr hchanged =>
      obtain ⟨old, hold, hid, heq⟩ := hchanged
      rw [heq] at hstage ⊢
      exact hevaluated old hold hid hstage
  · intro admission hadmission hstage
    cases mem_record hadmission with
    | inl hsame =>
      obtain ⟨sessionId, session, hlast, hrest⟩ := h.validated admission hsame.1 hstage
      refine ⟨sessionId, session, ?_, hrest⟩
      rw [← hlast]
      exact validatingSession_append (.inl (Ne.symm hsame.2))
    | inr hchanged =>
      obtain ⟨old, hold, hid, heq⟩ := hchanged
      rw [heq] at hstage ⊢
      exact hvalidated old hold hid hstage

end Record

/-! ## Every run -/

section Run

variable {evidence : Evidence} {s next : State}

/-- The ids of the admissions are unique, and the stages stand for what they say. -/
structure Sound (evidence : Evidence) (s : State) : Prop where
  ids : Unique Admission.id s.admissions
  stages : StagesSound evidence s

theorem Sound.register (h : Sound evidence s) {call : RegisterCall}
    (hcall : registerBaseline evidence s call = .ok next) : Sound evidence next := by
  cases registerBaseline_cases hcall with
  | inl hexisting =>
    obtain ⟨existing, _, version, snapshot, sourceId, hnext⟩ := hexisting
    rw [hnext]
    refine ⟨unique_record h.ids (fun _ => rfl), h.stages.record ?_ ?_⟩
    · exact fun old _ _ hstage => absurd rfl hstage
    · exact fun old _ _ hstage => absurd hstage (by simp)
  | inr hadded =>
    obtain ⟨added, event, hfresh, hstage, hevent, hnext⟩ := hadded
    rw [hnext]
    have hnone : find Admission.id s.admissions added.id = none := by
      rw [find_eq_none_iff, List.mem_map]
      rintro ⟨old, hold, heq⟩
      exact hfresh old hold heq
    refine ⟨h.ids.append_singleton hnone, ?_, ?_⟩
    · intro admission hadmission hpast
      cases List.mem_append.mp hadmission with
      | inl hold => exact h.stages.evaluated admission hold hpast
      | inr hnew =>
        rw [List.mem_singleton.mp hnew] at hpast
        exact absurd hstage hpast
    · intro admission hadmission hpast
      cases List.mem_append.mp hadmission with
      | inl hold =>
        obtain ⟨sessionId, session, hlast, hrest⟩ := h.stages.validated admission hold hpast
        refine ⟨sessionId, session, ?_, hrest⟩
        rw [← hlast]
        exact validatingSession_append (.inr (by rw [hevent]; simp))
      | inr hnew =>
        rw [List.mem_singleton.mp hnew, hstage] at hpast
        cases hpast

theorem Sound.evaluate (h : Sound evidence s) {call : EvaluateCall}
    (hcall : evaluateAdmission evidence s call = .ok next) : Sound evidence next := by
  obtain ⟨admission, hmem, profile, runs, sourceId, hprofile, hnext⟩ := evaluateAdmission_cases hcall
  rw [hnext]
  refine ⟨unique_record h.ids (fun _ => rfl), h.stages.record ?_ ?_⟩
  · intro old hold hid hstage
    have hsame := Unique.eq h.ids hold hmem hid
    rw [hsame]
    refine ⟨profile, runs, hprofile, rfl, ?_⟩
    intro hfail
    apply hstage
    show (evaluationOf profile admission.baseline.aggregate runs).status.stage = _
    rw [hfail]
    rfl
  · intro old _ _ hstage
    have hnever : ∀ verdict : Verdict, verdict.stage ≠ .paperValidated := by
      intro verdict
      cases verdict <;> simp [Verdict.stage]
    exact absurd hstage (hnever _)

theorem Sound.validate (h : Sound evidence s) {call : ValidateCall}
    (hcall : validatePaperStage evidence s call = .ok next)
    (hmatches : SessionMatches evidence s (.validate call)) : Sound evidence next := by
  obtain ⟨admission, session, hget, hstage, hsession, hstopped, hproject, hnext⟩ :=
    validatePaperStage_cases hcall
  have hfound := getAdmission_some hget
  rw [hnext]
  refine ⟨unique_record h.ids (fun _ => rfl), h.stages.record ?_ ?_⟩
  · intro old hold hid _
    have hsame := Unique.eq h.ids hold hfound.1 hid
    rw [hsame]
    exact h.stages.evaluated admission hfound.1 hstage
  · intro old hold hid _
    have hsame := Unique.eq h.ids hold hfound.1 hid
    rw [hsame]
    refine ⟨call.sessionId, session, ?_, hsession, hstopped, ?_, ?_⟩
    · simp [validatingSession, State.record]
    · rw [hproject, ← hfound.2.1]
    · have hok := hmatches session hsession hstopped hproject admission hget
      rw [← hfound.2.2.1] at hok
      exact hok

theorem Sound.step (h : Sound evidence s) {call : Call} (hmatches : SessionMatches evidence s call) :
    Sound evidence ((admissions evidence).next s call) := by
  unfold admissions
  dsimp only
  cases hperform : perform evidence s call with
  | error message => exact h
  | ok next =>
    cases call with
    | register call => exact h.register hperform
    | evaluate call => exact h.evaluate hperform
    | validate call => exact h.validate hperform hmatches

theorem sound_start (evidence : Evidence) : Sound evidence start := by
  refine ⟨List.nodup_nil, ?_, ?_⟩
  · intro admission hadmission
    cases hadmission
  · intro admission hadmission
    cases hadmission

/-- In every run whose validations name matching sessions, the stages stand for what they say. -/
theorem paper_validated_sound (evidence : Evidence) (calls : List Call)
    (h : ((admissions evidence).restrict (SessionMatches evidence)).Accepts start calls) :
    StagesSound evidence ((admissions evidence).after start calls) := by
  have hrun := @Machine.invariant _ _ ((admissions evidence).restrict (SessionMatches evidence))
    (Sound evidence) (fun s call hs hcall => hs.step hcall.2) calls start (sound_start evidence) h
  exact hrun.stages

/-! ## A session with other parameters -/

/-- Metrics that pass every gate. -/
def goodMetrics : Metrics := fun
  | .mdd => some (1 / 10)
  | .trades => some 10
  | .profitFactor => some 2
  | _ => some 1

def sampleRun (id : String) : RunRow :=
  { id := id, projectId := some "strategy", status := "success",
    parameters := [("fast", .number "10" false)], hasMetrics := true, metrics := goodMetrics,
    validationPassed := true, gates := [], strategyVersionId := some "v1",
    projectTemplateKey := none }

def sampleSession (fast version : String) : PaperSession :=
  { projectId := some "strategy", status := "stopped", parameters := [("fast", .number fast false)],
    sourceBacktestId := none, strategyVersionId := some version,
    reports := [{ tradeDate := "2024-01-02", severity := some "ok", status := none,
                  passed := some true }] }

/-- Four runs, a session like them, and one with other parameters and another version. -/
def sampleEvidence : Evidence where
  runs := fun id => if id ∈ requiredRegimes then some (sampleRun id) else none
  sessions := fun id =>
    if id = "same" then some (sampleSession "10" "v1")
    else if id = "other" then some (sampleSession "50" "v2")
    else none
  templates := fun _ => none
  sha256 := fun parameters => String.join (parameters.map (fun entry => entry.1 ++ entry.2.str))

/-- A baseline, an evaluation with the same runs, and a validation. -/
def sampleCalls (sessionId : String) : List Call :=
  let regimes := requiredRegimes.map (fun regime => (regime, regime))
  let parameters : Parameters := [("fast", .number "10" false)]
  [.register { strategyId := "strategy", runIds := requiredRegimes, regimes := regimes,
               parameters := parameters, profileName := "institutional", sampleSet := "seed_v1",
               newId := "a" },
    .evaluate { strategyId := "strategy", runIds := requiredRegimes, regimes := regimes,
                parameters := parameters, profileName := "institutional" },
    .validate { strategyId := "strategy", sessionId := sessionId, parameters := parameters,
                profileName := "institutional", minReportDays := 1 }]

/-- A session with other parameters and another version validates the admission. -/
theorem other_session_validates :
    ¬ StagesSound sampleEvidence
      ((admissions sampleEvidence).after start (sampleCalls "other")) := by
  intro h
  have hrows : ((admissions sampleEvidence).after start (sampleCalls "other")).admissions.map
      (fun admission => (admission.id, admission.currentStage, admission.parametersSha256)) =
        [("a", Stage.paperValidated, "fast10feeModeldefaultslippageModeldefault")] := by
    decide +kernel
  have hevents : validatingSession ((admissions sampleEvidence).after start
      (sampleCalls "other")).events "a" = some "other" := by
    decide +kernel
  have hfirst : ("a", Stage.paperValidated, "fast10feeModeldefaultslippageModeldefault") ∈
      ((admissions sampleEvidence).after start (sampleCalls "other")).admissions.map
        (fun admission =>
          (admission.id, admission.currentStage, admission.parametersSha256)) := by
    rw [hrows]
    exact List.mem_singleton_self _
  obtain ⟨admission, hadmission, heq⟩ := List.mem_map.mp hfirst
  simp only [Prod.mk.injEq] at heq
  obtain ⟨sessionId, session, hlast, hsession, _, _, hmatches⟩ :=
    h.validated admission hadmission heq.2.1
  rw [heq.1, hevents] at hlast
  rw [← Option.some.inj hlast] at hsession
  have hother : sampleEvidence.sessions "other" = some (sampleSession "50" "v2") := rfl
  have hsame := Option.some.inj (hother.symm.trans hsession)
  have hhash := hmatches.parameters
  rw [← hsame, heq.2.2] at hhash
  have hwrong : sampleEvidence.parametersSha256
      (sessionParameters sampleEvidence (sampleSession "50" "v2")) ≠
        "fast10feeModeldefaultslippageModeldefault" := by
    decide +kernel
  exact hwrong hhash

theorem sampleCalls_sound : StagesSound sampleEvidence
    ((admissions sampleEvidence).after start (sampleCalls "same")) :=
  paper_validated_sound sampleEvidence (sampleCalls "same") (by decide +kernel)

end Run

end LocalPlatform.Strategies
