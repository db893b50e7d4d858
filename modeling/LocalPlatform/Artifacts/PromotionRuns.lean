import LocalPlatform.Artifacts.LineageRuns
import LocalPlatform.Artifacts.PromotionPaths

/-!
# Promotions over runs

* `Fine` pending writes keep the invariant when they are committed, whatever was committed before.
* The `_follows` lemmas discharge the obligation of each part of a call.
* `promotions_sound` is about every order of the statements of every number of calls, where each
  update of a promotion finds the status that its select has found.
* Without that, a second validation moves a target back from paper trading.
-/

namespace LocalPlatform.Qlib

open Paper Tables Results ReadCommitted
open Machines

variable {db next now : Db} {pending : List Write} {rest : Sql}

/-! ## Transactions without promotions -/

/-- Writes without a promotion that keep the invariant. -/
structure Fine (pending : List Write) : Prop where
  keeps : ∀ db next, Promoted db → platform.view pending db = .ok next →
    Promoted next ∧ Onward db next
  plain : ∀ id stage, Write.status id stage ∉ pending

theorem Fine.nil : Fine [] where
  keeps := by
    intro db next hdb h
    rw [view_nil h]
    exact ⟨hdb, Onward.refl db⟩
  plain := by simp

theorem Fine.append {more : List Write} (h : Fine pending) (h' : Fine more) :
    Fine (pending ++ more) where
  keeps := by
    intro db next hdb hview
    obtain ⟨middle, hfirst, hrest⟩ := view_append hview
    obtain ⟨hmiddle, honward⟩ := h.keeps db middle hdb hfirst
    obtain ⟨hnext, honward'⟩ := h'.keeps middle next hmiddle hrest
    exact ⟨hnext, honward.trans honward'⟩
  plain := by
    intro id stage hmem
    cases List.mem_append.mp hmem with
    | inl hold => exact h.plain id stage hold
    | inr hnew => exact h'.plain id stage hnew

theorem Fine.quiet (write : Write) (hplain : ∀ id stage, write ≠ .status id stage)
    (h : ∀ db next, write.apply db = .ok next → Quiet db next) : Fine [write] where
  keeps := by
    intro db next hdb hview
    obtain ⟨middle, hwrite, hnil⟩ := view_cons hview
    rw [view_nil hnil]
    exact ⟨(h db middle hwrite).promoted hdb, (h db middle hwrite).onward⟩
  plain := by
    intro id stage hmem
    exact hplain id stage (List.mem_singleton.mp hmem).symm

theorem Fine.registered (row : Registered) (hrow : ¬ row.Validated) (owner : Owner)
    (reason : String) : Fine [.registered row,
      .event ⟨row.artifactId, none, row.promotionStatus, owner, reason⟩] where
  keeps := by
    intro db next hdb hview
    obtain ⟨middle, hwrite, hview⟩ := view_cons hview
    obtain ⟨last, hevent, hnil⟩ := view_cons hview
    rw [view_nil hnil, ← Except.ok.inj hevent]
    exact promoted_registered hdb hwrite hrow owner reason
  plain := by simp

/-! ## Obligations -/

/-- A program that keeps its obligation from every state, with these writes pending. -/
def Safe (program : Sql) (pending : List Write) : Prop :=
  ∀ db, promotions.Follows program pending db

theorem Safe.select {choose : Db → Sql} (h : ∀ db, Safe (choose db) pending) :
    Safe (.select choose) pending :=
  fun _ now seen _ _ _ => h seen now

theorem Safe.write {write : Write} (h : Safe rest (pending ++ [write])) :
    Safe (.write write rest) pending :=
  fun _ now _ _ _ _ _ => h now

theorem Safe.commit (hpending : Fine pending) (h : Safe rest []) : Safe (.commit rest) pending := by
  intro db now next _ hnow hview
  obtain ⟨hnext, honward⟩ := hpending.keeps now next hnow hview
  exact ⟨hnext, honward, h next⟩

theorem Safe.halt (pending : List Write) : Safe .halt pending := fun _ => trivial

/-! ## Imports -/

theorem preflightParents_safe {ids : List String} (h : Safe rest pending) :
    ∀ parents, Safe (preflightParents ids rest parents) pending := by
  intro parents
  induction parents with
  | nil => exact h
  | cons parent parents ih =>
    unfold preflightParents
    split_ifs
    · exact ih
    · refine Safe.select (fun db => ?_)
      split_ifs
      · exact ih
      · exact Safe.halt pending

theorem preflightItems_safe {ids : List String} (h : Safe rest pending) :
    ∀ items, Safe (preflightItems ids rest items) pending := by
  intro items
  induction items with
  | nil => exact h
  | cons item items ih =>
    unfold preflightItems
    refine preflightParents_safe (Safe.select (fun db => ?_)) _
    cases db.artifact item.artifact.id with
    | none => exact ih
    | some existing =>
      dsimp only
      split_ifs
      · refine Safe.select (fun db => ?_)
        split_ifs
        · exact ih
        · exact Safe.halt pending
      · exact Safe.halt pending

theorem qlibStatus_ne {text : String} {status : PromotionStatus} (h : qlibStatus text = some status) :
    status ≠ .leanValidated ∧ status ≠ .paper := by
  have hmem : status ∈ [PromotionStatus.candidate, .researchReview, .researchPromoted, .rejected] := by
    unfold qlibStatus at h
    simp only [List.lookup_cons, List.lookup_nil] at h
    repeat' split at h
    all_goals simp_all
  constructor <;>
  · rintro rfl
    simp at hmem

variable {artifacts : List Artifact}

theorem preflightGraph_status {items : List RegistryItem} (h : preflightGraph artifacts = .ok items) :
    ∀ item ∈ items, item.promotionStatus ≠ .leanValidated ∧ item.promotionStatus ≠ .paper := by
  unfold preflightGraph at h
  obtain ⟨_, -, h⟩ := bind_ok h
  obtain ⟨_, -, h⟩ := bind_ok h
  obtain ⟨_, -, h⟩ := bind_ok h
  obtain ⟨checked, hitems, h⟩ := bind_ok h
  obtain ⟨_, -, h⟩ := bind_ok h
  obtain ⟨_, -, h⟩ := bind_ok h
  obtain ⟨_, -, h⟩ := bind_ok h
  obtain ⟨_, -, h⟩ := bind_ok h
  obtain rfl := Except.ok.inj h
  intro item hitem
  obtain ⟨artifact, -, hartifact⟩ := exists_of_mapM hitems hitem
  unfold preflightItem at hartifact
  obtain ⟨kind, -, hartifact⟩ := bind_ok hartifact
  obtain ⟨status, hstatus, hartifact⟩ := bind_ok hartifact
  obtain ⟨_, -, hartifact⟩ := bind_ok hartifact
  obtain ⟨_, -, hartifact⟩ := bind_ok hartifact
  obtain ⟨_, -, hartifact⟩ := bind_ok hartifact
  rw [← Except.ok.inj hartifact]
  exact qlibStatus_ne (orThrow_ok.mp hstatus)

theorem preflightProgram_safe {rest : List RegistryItem → Sql}
    (h : ∀ items, (∀ item ∈ items, item.promotionStatus ≠ .leanValidated ∧
      item.promotionStatus ≠ .paper) → Safe (rest items) pending) :
    Safe (preflightProgram artifacts rest) pending := by
  unfold preflightProgram
  cases hgraph : preflightGraph artifacts with
  | error message => exact Safe.halt pending
  | ok items => exact preflightItems_safe (h items (preflightGraph_status hgraph)) items

theorem registerRows_safe (h : ∀ pending, Fine pending → Safe rest pending) :
    ∀ items : List RegistryItem, (∀ item ∈ items, item.promotionStatus ≠ .leanValidated ∧
      item.promotionStatus ≠ .paper) → ∀ pending, Fine pending →
        Safe (registerRows rest items) pending := by
  intro items
  induction items with
  | nil => exact fun _ => h
  | cons item items ih =>
    intro hitems pending hpending
    have hrest := ih (fun other hother => hitems other (List.mem_cons_of_mem _ hother))
    unfold registerRows
    refine Safe.select (fun db => ?_)
    split_ifs
    · exact hrest pending hpending
    · cases hrow : registeredRow item with
      | error message => exact Safe.halt pending
      | ok row =>
        have hid := (registeredRow_ok hrow).1
        have hstatus : row.promotionStatus = item.promotionStatus := registeredRow_status hrow
        have hplain : ¬ row.Validated := by
          rintro ⟨-, hvalidated⟩
          rw [hstatus] at hvalidated
          have hitem := hitems item List.mem_cons_self
          cases hvalidated with
          | inl hlean => exact hitem.1 hlean
          | inr hpaper => exact hitem.2 hpaper
        have hpair := hpending.append (Fine.registered row hplain .qlib "initial_import")
        rw [hid, hstatus] at hpair
        refine Safe.write (Safe.write ?_)
        rw [List.append_assoc]
        exact hrest _ hpair

theorem insertParents_safe {child : String} (h : ∀ pending, Fine pending → Safe rest pending) :
    ∀ parents pending, Fine pending → Safe (insertParents child rest parents) pending := by
  intro parents
  induction parents with
  | nil => exact h
  | cons parent parents ih =>
    intro pending hpending
    exact Safe.write (ih _ (hpending.append
      (Fine.quiet (.edge parent child) (by simp) (fun _ _ hedge => quiet_insertEdge hedge))))

theorem insertEdges_safe (h : ∀ pending, Fine pending → Safe rest pending) :
    ∀ items pending, Fine pending → Safe (insertEdges rest items) pending := by
  intro items
  induction items with
  | nil => exact h
  | cons item items ih => exact insertParents_safe ih item.artifact.parents

theorem registerProgram_safe (h : ∀ pending, Fine pending → Safe rest pending)
    (hpending : Fine pending) : Safe (registerProgram artifacts rest) pending :=
  preflightProgram_safe (fun items hitems =>
    registerRows_safe (insertEdges_safe h items) items hitems pending hpending)

theorem importTransaction_safe (env : Environment) (input : Input) (payload : Payload)
    (validated : Validated) (latest : Option (Artifact × String)) :
    Safe (importTransaction env input payload validated latest) [] := by
  have hend : ∀ pending, Fine pending → Safe (.commit .halt) pending :=
    fun pending hpending => Safe.commit hpending (Safe.halt [])
  have hsignal : ∀ pending, Fine pending →
      Safe (signalProgram input validated (.commit .halt) latest) pending := by
    intro pending hpending
    cases latest with
    | none => exact hend pending hpending
    | some target =>
      dsimp only [signalProgram]
      cases signalRow input validated target with
      | error message => exact Safe.halt pending
      | ok row =>
        exact Safe.write (hend _ (hpending.append
          (Fine.quiet (.signal row) (by simp) (fun _ _ h => quiet_insertSignal h))))
  refine preflightProgram_safe (fun items _ => Safe.write (Safe.write ?_))
  refine registerProgram_safe hsignal ((Fine.quiet _ ?_ ?_).append (Fine.quiet _ ?_ ?_))
  · simp
  · exact fun _ _ h => quiet_insertResearchRun h
  · simp
  · exact fun _ _ h => quiet_insertImport h

theorem importProgram_safe (env : Environment) (input : Input) (payload : Payload) :
    Safe (importProgram env input payload) [] := by
  unfold importProgram
  cases validatePayload payload with
  | error message => exact Safe.halt []
  | ok validated =>
    refine Safe.select (fun first => Safe.select (fun second => Safe.select (fun third => ?_)))
    cases checkUniverse (find ReleaseRow.id third.releases validated.dataReleaseId)
        validated.universeReleaseId with
    | error message => exact Safe.halt []
    | ok u =>
      refine Safe.commit Fine.nil ?_
      cases checkImport env payload validated
          (find ImportRow.externalRunId first.imports validated.externalRunId)
          (find ReleaseRow.id second.releases validated.dataReleaseId) with
      | error message => exact Safe.halt []
      | ok latest =>
        refine preflightProgram_safe (fun items _ => Safe.commit Fine.nil ?_)
        cases find ImportRow.externalRunId first.imports validated.externalRunId with
        | some row => exact Safe.halt []
        | none => exact importTransaction_safe env input payload validated latest

/-! ## Promotions -/

/-- A program that keeps its obligation from every state of which something is known, with these
writes pending. -/
def SafeFrom (known : Db → Prop) (program : Sql) (pending : List Write) : Prop :=
  ∀ db, known db → promotions.Follows program pending db

def Lasting (known : Db → Prop) : Prop := ∀ db next, known db → Onward db next → known next

theorem evidenceProgram_safe {known : Db → Prop} (hknown : Lasting known)
    {artifact : PlatformArtifact} (h : ∀ pending, Fine pending → SafeFrom known rest pending) :
    SafeFrom known (evidenceProgram artifact rest) [] := by
  intro db hdb now seen hrely _ _
  have hnow := hknown _ _ hdb hrely.onward
  dsimp only
  cases hfound : seen.artifact artifact.artifactId with
  | some existing =>
    dsimp only
    split_ifs
    · exact h [] Fine.nil now hnow
    · trivial
  | none =>
    have hpair := Fine.registered artifact.row (by
      rintro ⟨htype, -⟩
      cases htype) .platform "lean_validation"
    intro now₁ _ hrely₁ _ _ _ now₂ _ hrely₂ _ _ _ now₃ seen₃ hrely₃ _ _
    have hnow₃ := hknown _ _ hnow ((hrely₁.onward.trans hrely₂.onward).trans hrely₃.onward)
    dsimp only
    split_ifs
    · intro now₄ _ hrely₄ _ _ _
      exact h _ (hpair.append (Fine.quiet (.edge artifact.parent artifact.artifactId) (by simp)
        (fun _ _ hedge => quiet_insertEdge hedge)))
        now₄ (hknown _ _ hnow₃ hrely₄.onward)
    · trivial

theorem promotionProgram_safe {known : Db → Prop} (hknown : Lasting known) {artifactId : String}
    {stage : Stage} {reason : String} {pending : List Write} (hstays : SafeFrom known rest pending)
    (hmoves : ∀ row, row.promotionStatus = stage.expected →
      SafeFrom (fun db => known db ∧ db.artifact artifactId = some row) rest
        (pending ++ [.status artifactId stage, .event (promotionEvent artifactId stage reason)])) :
    SafeFrom known (promotionProgram artifactId stage reason rest) pending := by
  intro db hdb now seen hrely _ _
  have hnow := hknown _ _ hdb hrely.onward
  dsimp only
  cases checkPromotion (seen.artifact artifactId) artifactId stage with
  | error message => trivial
  | ok moves =>
    cases moves with
    | false => exact hstays now hnow
    | true =>
      intro now₁ _ hrely₁ _ hexpected _ now₂ _ hrely₂ _ _ _
      obtain ⟨row, hrow, hstatus⟩ := Option.map_eq_some_iff.mp hexpected
      have hkept := hrely₂.row artifactId stage row (by simp) hrow
      have hlater := hknown _ _ hnow (hrely₁.onward.trans hrely₂.onward)
      have hrest := hmoves row hstatus now₂ ⟨hlater, hkept⟩
      rw [List.append_assoc]
      exact hrest

theorem view_promotion {more : List Write} {artifactId reason : String} {stage : Stage}
    {row : Registered} (hpending : Fine pending) (hdb : Promoted db)
    (hrow : db.artifact artifactId = some row) (hview : platform.view (pending ++
      [.status artifactId stage, .event (promotionEvent artifactId stage reason)] ++ more) db =
      .ok next) :
    ∃ middle, Promoted middle ∧ Onward db middle ∧ middle.artifact artifactId = some row ∧
      platform.view more (insertEvent (promotionEvent artifactId stage reason)
        (setStatus artifactId stage.status middle)) = .ok next := by
  obtain ⟨moved, hfirst, hmore⟩ := view_append hview
  obtain ⟨middle, hmiddle, hpromotion⟩ := view_append hfirst
  obtain ⟨hpromoted, honward⟩ := hpending.keeps db middle hdb hmiddle
  obtain ⟨updated, hstatus, hpromotion⟩ := view_cons hpromotion
  obtain ⟨inserted, hevent, hnil⟩ := view_cons hpromotion
  have hkept := view_artifact_kept hmiddle (fun stage => hpending.plain artifactId stage) hrow
  rw [view_nil hnil, ← Except.ok.inj hevent, ← Except.ok.inj hstatus] at hmore
  exact ⟨middle, hpromoted, honward, hkept, hmore⟩

variable {target : TargetContext}

theorem assertLeanBacktest_ok {found : Option Backtest} {backtest : Backtest}
    (h : assertLeanBacktest target found = .ok backtest) : Validates target backtest := by
  unfold assertLeanBacktest at h
  obtain ⟨read, -, h⟩ := bind_ok h
  obtain ⟨_, hstatus, h⟩ := bind_ok h
  obtain ⟨_, hrelease, h⟩ := bind_ok h
  obtain ⟨_, hartifact, h⟩ := bind_ok h
  obtain ⟨_, htargets, h⟩ := bind_ok h
  obtain ⟨_, hpassed, h⟩ := bind_ok h
  obtain rfl := Except.ok.inj h
  exact ⟨require_ok.mp hstatus, require_ok.mp hrelease, require_ok.mp hartifact,
    require_ok.mp htargets, require_ok.mp hpassed⟩

theorem prepareValidation_ok {input : ValidationInput} {backtest : Backtest}
    (h : prepareValidation input target = .ok backtest) : Validates target backtest := by
  unfold prepareValidation at h
  obtain ⟨_, -, h⟩ := bind_ok h
  obtain ⟨read, hread, h⟩ := bind_ok h
  obtain ⟨_, -, h⟩ := bind_ok h
  rw [← Except.ok.inj h]
  exact assertLeanBacktest_ok hread

/-- The targets of a signal. -/
def Targeted (target : TargetContext) (db : Db) : Prop :=
  ∃ signal imported, signal ∈ db.signals ∧
    find ImportRow.id db.imports signal.importId = some imported ∧
    signal.targetArtifactId = some target.targetArtifactId ∧
    imported.dataReleaseId = target.dataReleaseId ∧ signal.targetsSha256 = target.targetsSha256

theorem targeted_lasting (target : TargetContext) : Lasting (Targeted target) := by
  rintro db next ⟨signal, imported, hsignal, himported, hrest⟩ honward
  exact ⟨signal, imported, honward.signals hsignal, honward.imports _ _ himported, hrest⟩

theorem targetContext_targeted {researchRunId : String}
    (h : targetContext db researchRunId = .ok target) : Targeted target db := by
  obtain ⟨signal, imported, -, hsignal, himported, htarget, hrelease, hsha, -⟩ :=
    targetContext_ok h
  exact ⟨signal, imported, hsignal, himported, htarget, hrelease.symm, hsha.symm⟩

theorem Targeted.bound {backtest : Backtest} (h : Targeted target db)
    (hvalidates : Validates target backtest) (input : ValidationInput) :
    Bound db (validationRow input target backtest) := by
  obtain ⟨signal, imported, hsignal, himported, htarget, hrelease, hsha⟩ := h
  exact ⟨signal, imported, hsignal, himported, htarget, hrelease, hsha, hvalidates.successful,
    hvalidates.dataRelease, hvalidates.artifact, hvalidates.targets, hvalidates.passed⟩

theorem validationProgram_safe (input : ValidationInput) : Safe (validationProgram input) [] := by
  intro db now₁ first hrely₁ _ hview₁
  obtain rfl := view_nil hview₁
  dsimp only
  cases hread : targetContext first input.researchRunId with
  | error message => trivial
  | ok target =>
    have htargeted := targetContext_targeted hread
    have hlasting := targeted_lasting target
    intro now₂ next₂ hrely₂ hnow₂ hview₂
    obtain rfl := view_nil hview₂
    refine ⟨hnow₂, Onward.refl _, ?_⟩
    intro now₃ second hrely₃ _ hview₃
    dsimp only
    cases validationOf second target.targetArtifactId input.leanBacktestRunId with
    | some row => trivial
    | none =>
      intro now₄ next₄ hrely₄ hnow₄ hview₄
      obtain rfl := view_nil hview₄
      refine ⟨hnow₄, Onward.refl _, ?_⟩
      cases hprepared : prepareValidation input target with
      | error message => trivial
      | ok backtest =>
        have hvalidates : Validates target backtest := prepareValidation_ok hprepared
        have hknown := hlasting _ _ htargeted
          ((hrely₂.onward.trans hrely₃.onward).trans hrely₄.onward)
        refine evidenceProgram_safe hlasting (fun pending hpending => ?_) next₄ hknown
        refine promotionProgram_safe hlasting ?_ ?_
        · -- the target has its status already, so the validation is another one
          intro db _
          exact Safe.write (Safe.commit (hpending.append (Fine.quiet
            (.validation (validationRow input target backtest)) (by simp)
            (fun _ _ h => quiet_insertValidation h))) (Safe.halt [])) db
        · rintro row hstatus db ⟨htarget, hrow⟩ now₅ _ hrely₅ _ _ _ now₆ next₆ hrely₆ hnow₆ hview₆
          have hkept := hrely₆.row target.targetArtifactId .leanValidated row (by simp)
            (hrely₅.row target.targetArtifactId .leanValidated row (by simp) hrow)
          have htarget' := hlasting _ _ htarget (hrely₅.onward.trans hrely₆.onward)
          obtain ⟨middle, hmiddle, honward, hrow', hmore⟩ :=
            view_promotion hpending hnow₆ hkept hview₆
          obtain ⟨inserted, hinsert, hnil⟩ := view_cons hmore
          rw [view_nil hnil, insertValidation_ok hinsert]
          have hbound := (hlasting _ _ htarget' honward).bound hvalidates input
          have hmoved := promoted_moved hmiddle hrow' hstatus "authoritative_lean_validation"
            (middle.validations ++ [validationRow input target backtest])
            (fun _ hmem => List.mem_append_left _ hmem)
            (fun _ => ⟨_, List.mem_append_right _ (List.mem_singleton_self _), rfl, hbound⟩) rfl
          exact ⟨hmoved.1, honward.trans hmoved.2, trivial⟩

theorem paperProgram_safe (input : PaperInput) : Safe (paperProgram input) [] := by
  unfold paperProgram
  dsimp only
  split_ifs
  · exact Safe.halt []
  · refine Safe.select (fun first => Safe.select (fun second => ?_))
    split
    · rename_i validation artifact _ _
      split_ifs
      · refine Safe.commit Fine.nil (fun db => ?_)
        have hlasting : Lasting (fun _ => True) := fun _ _ _ _ => trivial
        refine promotionProgram_safe hlasting (fun now _ => ?_) ?_ db trivial
        · exact Safe.commit Fine.nil (Safe.halt []) now
        · rintro row hstatus db ⟨-, hrow⟩ now next hrely hnow hview
          have hkept := hrely.row validation.targetArtifactId .paper row (by simp) hrow
          rw [← List.append_nil ([] ++ _)] at hview
          obtain ⟨middle, hmiddle, honward, hrow', hmore⟩ :=
            view_promotion Fine.nil hnow hkept hview
          rw [view_nil hmore]
          have hmoved := promoted_moved hmiddle hrow' hstatus "paper_deployment_created"
            middle.validations (List.Subset.refl _)
            (fun htype => hmiddle.validated _ row hrow' ⟨htype, .inl hstatus⟩) rfl
          exact ⟨hmoved.1, honward.trans hmoved.2, trivial⟩
      · exact Safe.halt []
    · exact Safe.halt []

/-! ## Every order of statements -/

/-- The calls of `env`, statement by statement. -/
abbrev sessions (env : Environment) : Machine (World Db Write) (Action SessionCall) :=
  statements platform (SessionCall.program env)

instance (world : World Db Write) : ∀ action : Action SessionCall,
    Decidable (promotions.meets world action)
  | .step index => inferInstanceAs (Decidable (∀ statement ∈
      (world.sessions[index]?).bind Session.statement, Expected world.store statement))
  | .call _ => .isTrue trivial
  | .abort _ => .isTrue trivial

theorem SessionCall.safe (env : Environment) (call : SessionCall) : Safe (call.program env) [] := by
  cases call with
  | importRun input payload => exact importProgram_safe env input payload
  | recordLeanValidation input => exact validationProgram_safe input
  | markPaperStarted input => exact paperProgram_safe input

/-- In every order of the statements of every number of calls, the promotions of each target are one
path to its status and no status moves back, if each update of a promotion finds the status that its
select has found. -/
theorem promotions_sound (env : Environment) {db : Db} (hdb : Promoted db)
    (before after : List (Action SessionCall))
    (haccepts : ((sessions env).restrict promotions.meets).Accepts ⟨db, []⟩ (before ++ after)) :
    Promoted ((sessions env).after ⟨db, []⟩ before).store ∧
      Promoted ((sessions env).after ⟨db, []⟩ (before ++ after)).store ∧
      Onward ((sessions env).after ⟨db, []⟩ before).store
        ((sessions env).after ⟨db, []⟩ (before ++ after)).store := by
  have hprograms : ∀ (call : SessionCall) (store : Db), promotions.inv store →
      promotions.Follows (call.program env) [] store := fun call store _ => call.safe env store
  obtain ⟨hbefore, hafter⟩ := (Machine.accepts_append before _ after).mp haccepts
  have hstart : promotions.Keeps (⟨db, []⟩ : World Db Write) := Protocol.Keeps.start hdb
  have hmiddle := Protocol.run hprograms before hstart hbefore
  have hend := Protocol.run hprograms after hmiddle.1 hafter
  rw [Machine.after_append]
  exact ⟨hmiddle.1.inv, hend.1.inv, hend.2⟩

/-! ## Samples -/

def importedTarget : Registered :=
  ⟨"T", .targetPortfolio, .qlib, .researchPromoted, "ds-1", none, none, "payload-1", []⟩

def targetDb : Db where
  registry := [importedTarget]
  edges := []
  events := [⟨"T", none, .researchPromoted, .qlib, "initial_import"⟩]
  imports := [⟨"import-1", "run-1", "mlflow-1", "ds-1", "model-1", "manifest-1"⟩]
  signals := [⟨"signal-1", "import-1", "run-1", "model-1", "ds-1", "2024-01-02", "targets-1",
    some "T", 0⟩]
  validations := []
  researchRuns := ["run-1"]
  releases := []

theorem targetDb_promoted : Promoted targetDb := by
  have hartifact : ∀ id row, targetDb.artifact id = some row → id = "T" ∧ row = importedTarget := by
    intro id row hrow
    have hmem : row = importedTarget := List.mem_singleton.mp (mem_of_find hrow)
    have hkey : row.artifactId = id := find_key hrow
    exact ⟨by rw [← hkey, hmem]; rfl, hmem⟩
  refine ⟨fun id row hrow => ?_, fun id hnone => ?_, by decide, fun id row hrow hvalidated => ?_,
    fun id row hrow _ hpaper => ?_⟩
  · obtain ⟨rfl, rfl⟩ := hartifact id row hrow
    decide
  · have hne : id ≠ "T" := by
      rintro rfl
      exact absurd hnone (by decide)
    have hne' : "T" ≠ id := Ne.symm hne
    simp [Db.eventsOf, targetDb, hne']
  · obtain ⟨rfl, rfl⟩ := hartifact id row hrow
    cases hvalidated.2 with
    | inl hlean => cases hlean
    | inr hpaper => cases hpaper
  · obtain ⟨rfl, rfl⟩ := hartifact id row hrow
    cases hpaper

/-- A successful run that is bound to the target. -/
def boundBacktest : Backtest where
  status := "success"
  dataReleaseId := "ds-1"
  parameters := [("qlibTargetPortfolioArtifactId", .text "T"),
    ("qlibTargetsSha256", .text "targets-1")]
  validationPassed := true
  runtimeDigest := String.ofList (List.replicate 64 '0')

def validationInput (n : String) : ValidationInput :=
  ⟨"run-1", "backtest-" ++ n, "validation-" ++ n, "evidence-" ++ n, some boundBacktest, none⟩

def stepsOf (index count : ℕ) : List (Action SessionCall) := List.replicate count (.step index)

/-- The first validation promotes the target while the second one is under way, which then finds
it promoted, as does the paper account that starts. -/
def turnActions : List (Action SessionCall) :=
  [.call (.recordLeanValidation (validationInput "1")),
    .call (.recordLeanValidation (validationInput "2"))] ++ stepsOf 0 8 ++ stepsOf 1 4 ++
  stepsOf 0 6 ++ stepsOf 1 10 ++
  [.call (.markPaperStarted ⟨"backtest-1", boundBacktest.parameters⟩)] ++ stepsOf 2 7

theorem promotions_sound_sample :
    Promoted ((sessions sampleEnvironment).after ⟨targetDb, []⟩ turnActions).store :=
  (promotions_sound sampleEnvironment targetDb_promoted turnActions [] (by decide +kernel)).1

/-- Two validations read the status of the target, the first one promotes it and a paper account
starts, and then the second one promotes it. -/
def racingActions : List (Action SessionCall) :=
  [.call (.recordLeanValidation (validationInput "1")),
    .call (.recordLeanValidation (validationInput "2"))] ++ stepsOf 0 10 ++ stepsOf 1 10 ++
  stepsOf 0 4 ++
  [.call (.markPaperStarted ⟨"backtest-1", boundBacktest.parameters⟩)] ++ stepsOf 2 7 ++
  stepsOf 1 4

/-- The target is back at its validation, and its events are no path. -/
theorem racing_moves_back : ¬ ∀ (env : Environment) (db : Db) (actions : List (Action SessionCall)),
    Promoted db → (sessions env).Accepts ⟨db, []⟩ actions →
      Promoted ((sessions env).after ⟨db, []⟩ actions).store := by
  intro h
  have hend := h sampleEnvironment targetDb racingActions targetDb_promoted (by decide +kernel)
  have hrow : ((sessions sampleEnvironment).after ⟨targetDb, []⟩ racingActions).store.artifact "T" =
      some { importedTarget with promotionStatus := .leanValidated } := by decide +kernel
  exact absurd (hend.path "T" _ hrow) (by decide +kernel)

end LocalPlatform.Qlib
