import LocalPlatform.Artifacts.LineageSteps
import LocalPlatform.Artifacts.Sessions

/-!
# The path of a target to paper trading

* `Promoted` is the invariant of the committed database: the events of an artifact are one path to
  its status, and a validated target has a validation whose run was bound to it.
* `Onward` is what a commit may do: a status does not move back, and what was recorded stays.
* A transaction without promotions is `Fine` as a whole.  `promotionProgram_follows` is the
  transaction that promotes: what it may rely on is that nobody else writes the row that it has
  updated.
-/

namespace LocalPlatform.Qlib

open Paper Tables Results ReadCommitted

variable {db middle next now : Db}

/-! ## The promise -/

def Db.eventsOf (db : Db) (artifactId : String) : List PromotionEvent :=
  db.events.filter (fun event => event.artifactId = artifactId)

/-- Events lead from one status to another, each from where the one before it has led. -/
def Leads : Option PromotionStatus → List PromotionEvent → Option PromotionStatus → Prop
  | start, [], goal => start = goal
  | start, event :: events, goal =>
    event.fromStatus = start ∧ Leads (some event.toStatus) events goal

instance decidableLeads : ∀ (start : Option PromotionStatus) (events : List PromotionEvent)
    (goal : Option PromotionStatus), Decidable (Leads start events goal)
  | start, [], goal => inferInstanceAs (Decidable (start = goal))
  | start, event :: events, goal =>
    have := decidableLeads (some event.toStatus) events goal
    inferInstanceAs (Decidable (event.fromStatus = start ∧ Leads (some event.toStatus) events goal))

/-- How far a status is. -/
def PromotionStatus.rank : PromotionStatus → ℕ
  | .candidate => 0
  | .researchReview => 1
  | .researchPromoted => 2
  | .rejected => 2
  | .leanValidated => 3
  | .paper => 4
  | .production => 5
  | .retired => 6

/-- The LEAN run of a validation was a success for the target, as the target was imported. -/
def Bound (db : Db) (row : ValidationRow) : Prop :=
  ∃ signal imported, signal ∈ db.signals ∧
    find ImportRow.id db.imports signal.importId = some imported ∧
    signal.targetArtifactId = some row.targetArtifactId ∧
    imported.dataReleaseId = row.dataReleaseId ∧ signal.targetsSha256 = row.targetsSha256 ∧
    (row.backtest.status = "success" ∨ row.backtest.status = "succeeded") ∧
    row.backtest.dataReleaseId = row.dataReleaseId ∧
    rawText (row.backtest.parameters.get "qlibTargetPortfolioArtifactId") = row.targetArtifactId ∧
    rawText (row.backtest.parameters.get "qlibTargetsSha256") = row.targetsSha256 ∧
    row.backtest.validationPassed = true

/-- A target that is validated, or in paper trading. -/
def Registered.Validated (row : Registered) : Prop :=
  row.artifactType = .targetPortfolio ∧
    (row.promotionStatus = .leanValidated ∨ row.promotionStatus = .paper)

structure Promoted (db : Db) : Prop where
  path : ∀ id row, db.artifact id = some row →
    Leads none (db.eventsOf id) (some row.promotionStatus)
  unregistered : ∀ id, db.artifact id = none → db.eventsOf id = []
  forward : ∀ event ∈ db.events, ∀ status ∈ event.fromStatus, status.rank < event.toStatus.rank
  validated : ∀ id row, db.artifact id = some row → row.Validated →
    ∃ validation ∈ db.validations, validation.targetArtifactId = id ∧ Bound db validation
  paper : ∀ id row, db.artifact id = some row → row.artifactType = .targetPortfolio →
    row.promotionStatus = .paper → ∃ event ∈ db.eventsOf id, event.toStatus = .leanValidated

/-- What a commit may do. -/
structure Onward (db next : Db) : Prop where
  rows : ∀ id row, db.artifact id = some row → ∃ kept, next.artifact id = some kept ∧
    kept.artifactType = row.artifactType ∧ row.promotionStatus.rank ≤ kept.promotionStatus.rank
  signals : db.signals ⊆ next.signals
  imports : ∀ id row, find ImportRow.id db.imports id = some row →
    find ImportRow.id next.imports id = some row
  validations : db.validations ⊆ next.validations

theorem Onward.refl (db : Db) : Onward db db :=
  ⟨fun _ row hrow => ⟨row, hrow, rfl, Nat.le_refl _⟩, List.Subset.refl _, fun _ _ h => h,
    List.Subset.refl _⟩

theorem Onward.trans (h : Onward db middle) (h' : Onward middle next) : Onward db next where
  rows := by
    intro id row hrow
    obtain ⟨kept, hkept, htype, hrank⟩ := h.rows id row hrow
    obtain ⟨last, hlast, htype', hrank'⟩ := h'.rows id kept hkept
    exact ⟨last, hlast, htype'.trans htype, Nat.le_trans hrank hrank'⟩
  signals := List.Subset.trans h.signals h'.signals
  imports := fun id row hrow => h'.imports id row (h.imports id row hrow)
  validations := List.Subset.trans h.validations h'.validations

theorem Bound.onward {row : ValidationRow} (h : Bound db row) (honward : Onward db next) :
    Bound next row := by
  obtain ⟨signal, imported, hsignal, himported, hrest⟩ := h
  exact ⟨signal, imported, honward.signals hsignal, honward.imports _ _ himported, hrest⟩

theorem Leads.concat {start middle : Option PromotionStatus} {events : List PromotionEvent}
    (h : Leads start events middle) (event : PromotionEvent) (hfrom : event.fromStatus = middle) :
    Leads start (events ++ [event]) (some event.toStatus) := by
  induction events generalizing start with
  | nil =>
    have hstart : start = middle := h
    exact ⟨hfrom.trans hstart.symm, rfl⟩
  | cons first events ih => exact ⟨h.1, ih h.2⟩

theorem Leads.exists_to {start : Option PromotionStatus} {events : List PromotionEvent}
    {status : PromotionStatus} (h : Leads start events (some status)) (hstart : start ≠ some status) :
    ∃ event ∈ events, event.toStatus = status := by
  induction events generalizing start with
  | nil => exact absurd h hstart
  | cons first events ih =>
    by_cases hfirst : first.toStatus = status
    · exact ⟨first, List.mem_cons_self, hfirst⟩
    · obtain ⟨event, hevent, hto⟩ := ih h.2 (fun heq => hfirst (Option.some.inj heq))
      exact ⟨event, List.mem_cons_of_mem _ hevent, hto⟩

/-! ## Writes without promotions -/

/-- A write that leaves the registry and the events alone, and takes nothing away. -/
structure Quiet (db next : Db) : Prop where
  registry : next.registry = db.registry
  events : next.events = db.events
  signals : db.signals ⊆ next.signals
  imports : ∀ id row, find ImportRow.id db.imports id = some row →
    find ImportRow.id next.imports id = some row
  validations : db.validations ⊆ next.validations

theorem Quiet.artifact (h : Quiet db next) (id : String) : next.artifact id = db.artifact id := by
  unfold Db.artifact
  rw [h.registry]

theorem Quiet.onward (h : Quiet db next) : Onward db next where
  rows := fun id row hrow => ⟨row, by rw [h.artifact, hrow], rfl, Nat.le_refl _⟩
  signals := h.signals
  imports := h.imports
  validations := h.validations

theorem Quiet.promoted (h : Quiet db next) (hdb : Promoted db) : Promoted next := by
  have hevents : ∀ id, next.eventsOf id = db.eventsOf id := by
    intro id
    unfold Db.eventsOf
    rw [h.events]
  refine ⟨fun id row hrow => ?_, fun id hnone => ?_, fun event hevent => ?_,
    fun id row hrow hvalidated => ?_, fun id row hrow htype hpaper => ?_⟩
  · rw [h.artifact] at hrow
    rw [hevents]
    exact hdb.path id row hrow
  · rw [h.artifact] at hnone
    rw [hevents]
    exact hdb.unregistered id hnone
  · rw [h.events] at hevent
    exact hdb.forward event hevent
  · rw [h.artifact] at hrow
    obtain ⟨validation, hmem, htarget, hbound⟩ := hdb.validated id row hrow hvalidated
    exact ⟨validation, h.validations hmem, htarget, hbound.onward h.onward⟩
  · rw [h.artifact] at hrow
    rw [hevents]
    exact hdb.paper id row hrow htype hpaper

theorem quiet_insertEdge {parent child : String} (h : insertEdge parent child db = .ok next) :
    Quiet db next := by
  obtain ⟨hnext, -⟩ := insertEdge_ok h
  rw [hnext]
  exact ⟨rfl, rfl, List.Subset.refl _, fun _ _ h => h, List.Subset.refl _⟩

variable {id : String}

theorem quiet_insertResearchRun (h : insertResearchRun id db = .ok next) : Quiet db next := by
  unfold insertResearchRun at h
  obtain ⟨_, -, h⟩ := bind_ok h
  obtain rfl := Except.ok.inj h
  exact ⟨rfl, rfl, List.Subset.refl _, fun _ _ h => h, List.Subset.refl _⟩

theorem quiet_insertImport {row : ImportRow} (h : insertImport row db = .ok next) :
    Quiet db next := by
  unfold insertImport at h
  obtain ⟨_, -, h⟩ := bind_ok h
  obtain ⟨_, -, h⟩ := bind_ok h
  obtain ⟨_, -, h⟩ := bind_ok h
  obtain rfl := Except.ok.inj h
  exact ⟨rfl, rfl, List.Subset.refl _, fun _ _ h => find_append_of_some h, List.Subset.refl _⟩

theorem quiet_insertSignal {row : SignalRow} (h : insertSignal row db = .ok next) :
    Quiet db next := by
  unfold insertSignal at h
  obtain ⟨_, -, h⟩ := bind_ok h
  obtain ⟨_, -, h⟩ := bind_ok h
  obtain rfl := Except.ok.inj h
  exact ⟨rfl, rfl, fun _ hmem => List.mem_append_left _ hmem, fun _ _ h => h, List.Subset.refl _⟩

theorem quiet_insertValidation {row : ValidationRow} (h : insertValidation row db = .ok next) :
    Quiet db next := by
  rw [insertValidation_ok h]
  exact ⟨rfl, rfl, List.Subset.refl _, fun _ _ h => h, fun _ hmem => List.mem_append_left _ hmem⟩

/-! ## A new artifact and a promotion -/

theorem eventsOf_insertEvent (db : Db) (event : PromotionEvent) (id : String) :
    (insertEvent event db).eventsOf id =
      if event.artifactId = id then db.eventsOf id ++ [event] else db.eventsOf id := by
  unfold insertEvent Db.eventsOf
  rw [List.filter_append]
  split_ifs with hid <;> simp [hid]

variable {row : Registered}

theorem promoted_registered (hdb : Promoted db) (h : insertRegistered row db = .ok middle)
    (hrow : ¬ row.Validated) (owner : Owner) (reason : String) :
    Promoted (insertEvent ⟨row.artifactId, none, row.promotionStatus, owner, reason⟩ middle) ∧
      Onward db (insertEvent ⟨row.artifactId, none, row.promotionStatus, owner, reason⟩ middle) := by
  obtain ⟨hfresh, rfl⟩ := insertRegistered_ok h
  generalize hevent : (⟨row.artifactId, none, row.promotionStatus, owner, reason⟩ :
    PromotionEvent) = event
  have hartifact : ∀ id, Db.artifact (insertEvent event
      { db with registry := db.registry ++ [row] }) id =
      if id = row.artifactId then some row else db.artifact id := artifact_append hfresh
  have hevents : ∀ id, (insertEvent event { db with registry := db.registry ++ [row] }).eventsOf id =
      if row.artifactId = id then db.eventsOf id ++ [event] else db.eventsOf id := by
    intro id
    rw [eventsOf_insertEvent, ← hevent]
    rfl
  have honward : Onward db (insertEvent event { db with registry := db.registry ++ [row] }) := by
    refine ⟨fun id old hold => ⟨old, ?_, rfl, Nat.le_refl _⟩, List.Subset.refl _, fun _ _ h => h,
      List.Subset.refl _⟩
    rw [hartifact, if_neg]
    · exact hold
    · rintro rfl
      rw [hfresh] at hold
      cases hold
  refine ⟨⟨fun id new hnew => ?_, fun id hnone => ?_, fun other hother => ?_,
    fun id new hnew hvalidated => ?_, fun id new hnew htype hpaper => ?_⟩, honward⟩
  · rw [hartifact] at hnew
    rw [hevents]
    by_cases hid : id = row.artifactId
    · rw [if_pos hid] at hnew
      obtain rfl := Option.some.inj hnew
      rw [if_pos hid.symm, hid, hdb.unregistered _ hfresh, ← hevent]
      exact ⟨rfl, rfl⟩
    · rw [if_neg hid] at hnew
      rw [if_neg (Ne.symm hid)]
      exact hdb.path id new hnew
  · rw [hartifact] at hnone
    split_ifs at hnone with hid
    rw [hevents, if_neg (Ne.symm hid)]
    exact hdb.unregistered id hnone
  · cases List.mem_append.mp hother with
    | inl hold => exact hdb.forward other hold
    | inr hnew =>
      rw [List.mem_singleton.mp hnew, ← hevent]
      simp
  · rw [hartifact] at hnew
    split_ifs at hnew with hid
    · rw [← Option.some.inj hnew] at hvalidated
      exact absurd hvalidated hrow
    · obtain ⟨validation, hmem, htarget, hbound⟩ := hdb.validated id new hnew hvalidated
      exact ⟨validation, hmem, htarget, hbound.onward honward⟩
  · rw [hartifact] at hnew
    split_ifs at hnew with hid
    · rw [← Option.some.inj hnew] at htype hpaper
      exact absurd ⟨htype, .inr hpaper⟩ hrow
    · obtain ⟨found, hfound, hto⟩ := hdb.paper id new hnew htype hpaper
      rw [hevents, if_neg (Ne.symm hid)]
      exact ⟨found, hfound, hto⟩

theorem Stage.rank_lt (stage : Stage) : stage.expected.rank < stage.status.rank := by
  cases stage <;> decide

theorem artifact_moved (hrow : db.artifact id = some row) (status : PromotionStatus)
    (other : String) :
    (setStatus id status db).artifact other =
      if other = id then some { row with promotionStatus := status } else db.artifact other := by
  rw [artifact_setStatus]
  by_cases hother : other = id
  · rw [hother, hrow, Option.map_some, if_pos (find_key hrow), if_pos rfl]
  · rw [if_neg hother]
    cases hfound : db.artifact other with
    | none => rfl
    | some found =>
      have hkey : found.artifactId = other := find_key hfound
      rw [Option.map_some, if_neg (fun heq => hother (hkey.symm.trans heq))]

/-- A target that is moved from the status before the stage, with the validations after it. -/
theorem promoted_moved {stage : Stage} (hdb : Promoted db) (hrow : db.artifact id = some row)
    (hstatus : row.promotionStatus = stage.expected) (reason : String)
    (validations : List ValidationRow) (hmore : db.validations ⊆ validations)
    (hbound : row.artifactType = .targetPortfolio →
      ∃ validation ∈ validations, validation.targetArtifactId = id ∧ Bound db validation)
    (hnext : next = { insertEvent (promotionEvent id stage reason)
      (setStatus id stage.status db) with validations := validations }) :
    Promoted next ∧ Onward db next := by
  have hartifact : ∀ other, next.artifact other =
      if other = id then some { row with promotionStatus := stage.status }
      else db.artifact other := by
    rw [hnext]
    exact artifact_moved hrow stage.status
  have hevents : ∀ other, next.eventsOf other =
      if id = other then db.eventsOf other ++ [promotionEvent id stage reason]
      else db.eventsOf other := by
    rw [hnext]
    exact eventsOf_insertEvent (setStatus id stage.status db) (promotionEvent id stage reason)
  have hpath : Leads none (db.eventsOf id) (some stage.expected) := hstatus ▸ hdb.path id row hrow
  have honward : Onward db next := by
    refine ⟨fun other old hold => ?_, ?_, fun key found hfound => ?_, ?_⟩
    · rw [hartifact]
      by_cases hother : other = id
      · rw [hother, hrow] at hold
        obtain rfl := Option.some.inj hold
        refine ⟨_, if_pos hother, rfl, ?_⟩
        rw [hstatus]
        exact Nat.le_of_lt stage.rank_lt
      · exact ⟨old, by rw [if_neg hother, hold], rfl, Nat.le_refl _⟩
    · rw [hnext]
      exact List.Subset.refl _
    · rw [hnext]
      exact hfound
    · rw [hnext]
      exact hmore
  have hvalidations : next.validations = validations := by rw [hnext]
  refine ⟨⟨fun other new hnew => ?_, fun other hnone => ?_, fun event hevent => ?_,
    fun other new hnew hvalidated => ?_, fun other new hnew htype hpaper => ?_⟩, honward⟩
  · rw [hartifact] at hnew
    rw [hevents]
    by_cases hother : other = id
    · rw [if_pos hother] at hnew
      rw [if_pos hother.symm, hother, ← Option.some.inj hnew]
      exact hpath.concat (promotionEvent id stage reason) rfl
    · rw [if_neg hother] at hnew
      rw [if_neg (Ne.symm hother)]
      exact hdb.path other new hnew
  · rw [hartifact] at hnone
    split_ifs at hnone with hother
    rw [hevents, if_neg (Ne.symm hother)]
    exact hdb.unregistered other hnone
  · have hmem : event ∈ db.events ++ [promotionEvent id stage reason] := by
      rw [hnext] at hevent
      exact hevent
    cases List.mem_append.mp hmem with
    | inl hold => exact hdb.forward event hold
    | inr hnew =>
      rw [List.mem_singleton.mp hnew]
      intro status hfrom
      rw [← Option.some.inj hfrom]
      exact stage.rank_lt
  · rw [hartifact] at hnew
    rw [hvalidations]
    by_cases hother : other = id
    · rw [if_pos hother] at hnew
      have htype := hvalidated.1
      rw [← Option.some.inj hnew] at htype
      obtain ⟨validation, hmem, htarget, hrun⟩ := hbound htype
      exact ⟨validation, hmem, by rw [htarget, hother], hrun.onward honward⟩
    · rw [if_neg hother] at hnew
      obtain ⟨validation, hmem, htarget, hrun⟩ := hdb.validated other new hnew hvalidated
      exact ⟨validation, hmore hmem, htarget, hrun.onward honward⟩
  · rw [hartifact] at hnew
    rw [hevents]
    by_cases hother : other = id
    · rw [if_pos hother] at hnew
      rw [← Option.some.inj hnew] at hpaper
      rw [if_pos hother.symm, hother]
      cases stage with
      | leanValidated => cases hpaper
      | paper =>
        obtain ⟨event, hevent, hto⟩ := hpath.exists_to (by simp)
        exact ⟨event, List.mem_append_left _ hevent, hto⟩
    · rw [if_neg hother] at hnew
      rw [if_neg (Ne.symm hother)]
      exact hdb.paper other new hnew htype hpaper

/-! ## Pending writes -/

theorem view_append {pending more : List Write} (h : platform.view (pending ++ more) db = .ok next) :
    ∃ middle, platform.view pending db = .ok middle ∧ platform.view more middle = .ok next := by
  unfold Database.view at h
  rw [List.foldlM_append] at h
  exact bind_ok h

theorem view_cons {write : Write} {pending : List Write}
    (h : platform.view (write :: pending) db = .ok next) :
    ∃ middle, write.apply db = .ok middle ∧ platform.view pending middle = .ok next := by
  unfold Database.view at h
  rw [List.foldlM_cons] at h
  exact bind_ok h

theorem view_nil (h : platform.view [] db = .ok next) : next = db := (Except.ok.inj h).symm

theorem Write.artifact_kept {write : Write} (h : write.apply db = .ok next)
    (hwrite : ∀ stage, write ≠ .status id stage) (hrow : db.artifact id = some row) :
    next.artifact id = some row := by
  cases write with
  | researchRun _ => rw [(quiet_insertResearchRun h).artifact, hrow]
  | imported _ => rw [(quiet_insertImport h).artifact, hrow]
  | signal _ => rw [(quiet_insertSignal h).artifact, hrow]
  | edge _ _ => rw [(quiet_insertEdge h).artifact, hrow]
  | validation _ => rw [(quiet_insertValidation h).artifact, hrow]
  | event promotion =>
    obtain rfl := Except.ok.inj h
    exact hrow
  | registered new =>
    obtain ⟨hfresh, rfl⟩ := insertRegistered_ok h
    rw [artifact_append hfresh, if_neg]
    · exact hrow
    · rintro rfl
      rw [hfresh] at hrow
      cases hrow
  | status artifactId stage =>
    obtain rfl := Except.ok.inj h
    have hne : artifactId ≠ id := fun heq => hwrite stage (heq ▸ rfl)
    have hkey : row.artifactId = id := find_key hrow
    rw [artifact_setStatus, hrow, Option.map_some, if_neg]
    exact fun heq => hne (heq.symm.trans hkey)

theorem view_artifact_kept : ∀ {pending : List Write} {db : Db},
    platform.view pending db = .ok next → (∀ stage, Write.status id stage ∉ pending) →
      db.artifact id = some row → next.artifact id = some row := by
  intro pending
  induction pending with
  | nil =>
    intro db h _ hrow
    rw [view_nil h, hrow]
  | cons write pending ih =>
    intro db h hpending hrow
    obtain ⟨middle, hwrite, hrest⟩ := view_cons h
    refine ih hrest (fun stage hmem => hpending stage (List.mem_cons_of_mem _ hmem)) ?_
    refine write.artifact_kept hwrite (fun stage heq => hpending stage ?_) hrow
    rw [heq]
    exact List.mem_cons_self

/-! ## The protocol -/

/-- What a transaction may rely on: the others go on, and do not touch a row that it has updated. -/
structure Rely (pending : List Write) (db now : Db) : Prop where
  onward : Onward db now
  row : ∀ id stage row, Write.status id stage ∈ pending → db.artifact id = some row →
    now.artifact id = some row

/-- The update of a promotion finds the status that its select has found. -/
def Expected (db : Db) : Write → Prop
  | .status id stage => (db.artifact id).map Registered.promotionStatus = some stage.expected
  | _ => True

instance (db : Db) : ∀ write : Write, Decidable (Expected db write)
  | .status id stage => inferInstanceAs
      (Decidable ((db.artifact id).map Registered.promotionStatus = some stage.expected))
  | .researchRun _ | .imported _ | .registered _ | .event _ | .edge _ _ | .signal _
  | .validation _ => .isTrue trivial

def promotions : Protocol platform where
  inv := Promoted
  rely := Rely
  guarantee := Onward
  condition := Expected
  relyRefl := fun _ db => ⟨Onward.refl db, fun _ _ _ _ hrow => hrow⟩
  relyTrans := fun _ _ _ _ h h' => ⟨h.onward.trans h'.onward,
    fun id stage row hmem hrow => h'.row id stage row hmem (h.row id stage row hmem hrow)⟩
  guaranteeRefl := Onward.refl
  guaranteeTrans := fun _ _ _ h h' => h.trans h'
  interference := by
    intro pending other db next hapart _ hview honward
    refine ⟨honward, fun id stage row hmem hrow => view_artifact_kept hview (fun stage' hother => ?_) hrow⟩
    exact hapart _ hmem _ hother (.artifact id) (List.mem_singleton_self _) (List.mem_singleton_self _)

end LocalPlatform.Qlib
