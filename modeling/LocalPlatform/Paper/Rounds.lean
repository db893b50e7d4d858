import LocalPlatform.Paper.Pipeline

/-!
# What a round does

The round of a captured intent is a dozen transactions, and a worker can die
between any two of them or be stopped by an error.  This module says what holds
of the database at every one of these points.

* `Advances i` is what a round of the intent `i` leaves alone: the intents, and
  the transitions, the order and the fills of every other intent.
* `Synced` says that the read model of a session is the projection of its
  ledger, so the checks of a round read the ledger through it.
* `Touches` is what a round does to the ledger: nothing, or one fill of its
  intent that passed the checks (`FillStep`).
* `CreatedOk` says that an intent in its first state has its first transition
  only, so a round that returns has taken its intent out of that state.
-/

namespace LocalPlatform.Paper

open CostBasis Transaction

/-! ## What a round leaves alone -/

/-- What the round of the intent `i` leaves alone. -/
structure Advances (i : IntentId) (db t : Db) : Prop where
  intents : t.intents = db.intents
  transitions : ∀ k, k ≠ i → t.transitions k = db.transitions k
  orders : ∀ k, k ≠ i → findOrder t k = findOrder db k
  fills : ∀ k, k ≠ i → intentFills t k = intentFills db k
  histories : HistoriesOk db → HistoriesOk t
  created : ∀ k, currentState t k = some .intentCreated → t.transitions k = db.transitions k
  runs : t.runs = db.runs
  checkpoints : t.checkpoints = db.checkpoints
  events : t.events = db.events
  snapshots : t.snapshots = db.snapshots
  reports : t.reports = db.reports
  reconciliations : t.reconciliations = db.reconciliations
  cycles : t.cycles = db.cycles

theorem Advances.refl (i : IntentId) (db : Db) : Advances i db db :=
  ⟨rfl, fun _ _ => rfl, fun _ _ => rfl, fun _ _ => rfl, id, fun _ _ => rfl, rfl, rfl, rfl, rfl,
    rfl, rfl, rfl⟩

variable {db t : Db}

theorem currentState_congr {k : IntentId} (h : t.transitions k = db.transitions k) :
    currentState t k = currentState db k := by
  rw [currentState, currentState, latestTransition, latestTransition, h]

variable {i : IntentId}

theorem Advances.pending {k : IntentId} (h : Advances i db t)
    (hk : currentState t k = some .intentCreated) : currentState db k = some .intentCreated := by
  rw [← currentState_congr (h.created k hk)]
  exact hk

theorem Advances.trans (s t u : Db) (hst : Advances i s t) (htu : Advances i t u) :
    Advances i s u where
  intents := htu.intents.trans hst.intents
  transitions := fun k hk => (htu.transitions k hk).trans (hst.transitions k hk)
  orders := fun k hk => (htu.orders k hk).trans (hst.orders k hk)
  fills := fun k hk => (htu.fills k hk).trans (hst.fills k hk)
  histories := fun h => htu.histories (hst.histories h)
  created := fun k h => (htu.created k h).trans (hst.created k (htu.pending h))
  runs := htu.runs.trans hst.runs
  checkpoints := htu.checkpoints.trans hst.checkpoints
  events := htu.events.trans hst.events
  snapshots := htu.snapshots.trans hst.snapshots
  reports := htu.reports.trans hst.reports
  reconciliations := htu.reconciliations.trans hst.reconciliations
  cycles := htu.cycles.trans hst.cycles

theorem getIntent_congr (h : t.intents = db.intents) (i : IntentId) :
    getIntent t i = getIntent db i := by
  unfold getIntent
  rw [h]

variable {payload : TransitionPayload}

theorem appendTransition_advances {toState eventType key : String} {row : Transition}
    (hlater : toState ≠ OrderState.intentCreated.name)
    (h : appendTransition i toState eventType key payload db = .ok (row, t)) : Advances i db t := by
  have hhistories : HistoriesOk db → HistoriesOk t := fun hdb => appendTransition_historiesOk hdb h
  obtain ⟨state, intent, hstate, hintent, -, -, hcase⟩ := appendTransition_cases h
  rcases hcase with ⟨-, rfl⟩ | ⟨-, -, rfl, rfl⟩
  · exact .refl i t
  · refine ⟨rfl, fun k hk => addTransition_other db _ hk, fun _ _ => rfl, fun _ _ => rfl,
      hhistories, ?_, rfl, rfl, rfl, rfl, rfl, rfl, rfl⟩
    intro k hk
    by_cases hsame : k = i
    · obtain rfl := getIntent_id hintent
      subst hsame
      rw [currentState_addNext] at hk
      obtain rfl := Option.some.inj hk
      exact absurd (OrderState.ofName?_eq hstate) hlater
    · exact addTransition_other db _ hsame

variable {projection : LedgerProjection}

theorem applyLedgerProjection_advances {sessionId : SessionId}
    (h : applyLedgerProjection sessionId db = .ok (projection, t)) : Advances i db t := by
  rw [(applyLedgerProjection_ok h).2]
  exact ⟨rfl, fun _ _ => rfl, fun _ _ => rfl, fun _ _ => rfl, fun hdb => ⟨hdb.history, hdb.stored⟩,
    fun _ _ => rfl, rfl, rfl, rfl, rfl, rfl, rfl, rfl⟩

theorem recordConstraintDecision_advances {row found : ConstraintDecision}
    (h : recordConstraintDecision row db = .ok (found, t)) : Advances i db t := by
  rcases recordConstraintDecision_cases h with rfl | rfl
  · exact .refl i t
  · exact ⟨rfl, fun _ _ => rfl, fun _ _ => rfl, fun _ _ => rfl,
      fun hdb => ⟨hdb.history, hdb.stored⟩, fun _ _ => rfl, rfl, rfl, rfl, rfl, rfl, rfl, rfl⟩

theorem findOrder_addOrder (db : Db) (order : PaperOrder) (k : IntentId) :
    findOrder (db.addOrder order) k =
      (findOrder db k).or (if order.id = k then some order else none) := by
  unfold findOrder Db.addOrder
  rw [List.find?_append]
  by_cases h : order.id = k <;> simp [h]

theorem projectOrder_advances {row found : PaperOrder} (h : projectOrder row db = .ok (found, t)) :
    Advances row.id db t := by
  rcases projectOrder_cases h with ⟨-, rfl⟩ | ⟨-, -, rfl⟩
  · exact .refl row.id t
  · refine ⟨rfl, fun _ _ => rfl, ?_, fun _ _ => rfl, fun hdb => ⟨hdb.history, hdb.stored⟩,
      fun _ _ => rfl, rfl, rfl, rfl, rfl, rfl, rfl, rfl⟩
    intro k hk
    rw [findOrder_addOrder, if_neg (Ne.symm hk), Option.or_none]

theorem intentFills_addFill {intent : Intent} {fill : Fill} {context : AccountContext}
    {currency : String} (k : IntentId) :
    intentFills (db.addFill intent fill context currency) k =
      intentFills db k ++ if fill.intentId = k then [fill] else [] := by
  unfold intentFills Db.addFill
  rw [List.filter_append]
  by_cases h : fill.intentId = k <;> simp [h]

theorem recordFillAndLedger_advances {request : FillRequest} {fill : Fill}
    (h : recordFillAndLedger request db = .ok (fill, t)) : Advances request.intentId db t := by
  obtain ⟨intent, -, hcase⟩ := recordFillAndLedger_cases h
  rcases hcase with ⟨-, rfl⟩ | ⟨-, rfl, -, rfl⟩
  · exact .refl _ t
  · refine ⟨rfl, fun _ _ => rfl, fun _ _ => rfl, ?_, fun hdb => ⟨hdb.history, hdb.stored⟩,
      fun _ _ => rfl, rfl, rfl, rfl, rfl, rfl, rfl, rfl⟩
    intro k hk
    simp [intentFills_addFill, FillRequest.fill, Ne.symm hk]

theorem composes_advances (i : IntentId) : TxM.Composes (Advances i)
    (fun {α} (m : TxM Db PaperError α) => TxM.Within (Advances i) m) :=
  TxM.composes_within (Advances.refl i) Advances.trans

section Round

variable (market : Market) (session : Session) (item : Captured)

theorem decideConstraints_advances :
    TxM.Within (Advances item.intent.id) (decideConstraints market session item) := by
  have hW := composes_advances item.intent.id
  unfold decideConstraints
  refine hW.bind (hW.read _) fun session => ?_
  refine hW.bind (hW.read _) fun reason => ?_
  refine hW.bind (hW.read _) fun row => ?_
  refine hW.bind (hW.tx fun _ _ _ h => recordConstraintDecision_advances h) fun _ => ?_
  exact hW.pure _

theorem validateIntent_advances :
    TxM.Within (Advances item.intent.id) (validateIntent market session item) := by
  have hW := composes_advances item.intent.id
  unfold validateIntent
  refine hW.bind (hW.tx fun _ _ _ h => appendTransition_advances (by decide) h) fun _ => ?_
  exact decideConstraints_advances market session item

theorem rejectIntent_advances (reason : String) :
    TxM.Within (Advances item.intent.id) (rejectIntent session item reason) := by
  have hW := composes_advances item.intent.id
  unfold rejectIntent
  refine hW.bind (hW.tx fun _ _ _ h => appendTransition_advances (by decide) h) fun _ => ?_
  refine hW.bind (hW.tx fun _ _ _ h => projectOrder_advances h) fun order => ?_
  exact hW.pure _

theorem expireIntent_advances (reason : String) :
    TxM.Within (Advances item.intent.id) (expireIntent session item reason) := by
  have hW := composes_advances item.intent.id
  unfold expireIntent
  refine hW.bind (hW.tx fun _ _ _ h => appendTransition_advances (by decide) h) fun _ => ?_
  refine hW.bind (hW.tx fun _ _ _ h => projectOrder_advances h) fun order => ?_
  exact hW.pure _

theorem fillIntent_advances (price : ℚ) :
    TxM.Within (Advances item.intent.id) (fillIntent session item price) := by
  have hW := composes_advances item.intent.id
  unfold fillIntent
  refine hW.bind (hW.read _) fun charges => ?_
  refine hW.bind (hW.tx fun _ _ _ h => recordFillAndLedger_advances h) fun _ => ?_
  refine hW.bind (hW.tx fun _ _ _ h => applyLedgerProjection_advances h) fun _ => ?_
  unfold completeFill
  refine hW.bind (hW.tx fun _ _ _ h => appendTransition_advances (by decide) h) fun _ => ?_
  refine hW.bind (hW.tx fun _ _ _ h => projectOrder_advances h) fun order => ?_
  refine hW.bind (hW.tx fun _ _ _ h => appendTransition_advances (by decide) h) fun _ => ?_
  exact hW.pure _

theorem matchIntent_advances :
    TxM.Within (Advances item.intent.id) (matchIntent market session item) := by
  have hW := composes_advances item.intent.id
  unfold matchIntent
  refine hW.bind (hW.tx fun _ _ _ h => appendTransition_advances (by decide) h) fun _ => ?_
  refine hW.bind (hW.tx fun _ _ _ h => appendTransition_advances (by decide) h) fun _ => ?_
  split
  · exact expireIntent_advances session item _
  · exact fillIntent_advances session item _

theorem afterValidation_advances (validated : Session × Option String) :
    TxM.Within (Advances item.intent.id) (match validated.2 with
      | some reason => rejectIntent validated.1 item reason
      | none => matchIntent market validated.1 item) := by
  rcases validated with ⟨session, _ | reason⟩
  · exact matchIntent_advances market session item
  · exact rejectIntent_advances session item reason

theorem processIntent_advances :
    TxM.Within (Advances item.intent.id) (processIntent market session item) := by
  have hW := composes_advances item.intent.id
  unfold processIntent
  refine hW.bind (hW.read _) fun state => ?_
  split_ifs
  · exact hW.read _
  · unfold decideIntent
    exact hW.bind (validateIntent_advances market session item)
      (afterValidation_advances market item)

end Round

/-! ## The first state -/

/-- An intent that has not left its first state has its first transition only. -/
def CreatedOk (db : Db) : Prop :=
  ∀ i, currentState db i = some .intentCreated →
    ∀ row ∈ db.transitions i, row.idempotencyKey = "intent_created"

theorem CreatedOk.of_same (h : CreatedOk db)
    (hcreated : ∀ i, currentState t i = some .intentCreated →
      t.transitions i = db.transitions i) : CreatedOk t := by
  intro i hstate
  have hrows := hcreated i hstate
  rw [currentState_congr hrows] at hstate
  rw [hrows]
  exact h i hstate

theorem Advances.createdOk (h : Advances i db t) (hdb : CreatedOk db) :
    CreatedOk t := hdb.of_same h.created

theorem appendTransition_leaves {toState eventType key : String} {row : Transition}
    (hcreated : CreatedOk db) (hstate : currentState db i = some .intentCreated)
    (hkey : key ≠ "intent_created") (hlater : toState ≠ OrderState.intentCreated.name)
    (h : appendTransition i toState eventType key payload db = .ok (row, t)) :
    currentState t i ≠ some .intentCreated := by
  obtain ⟨state, intent, hname, hintent, -, hrowKey, hcase⟩ := appendTransition_cases h
  rcases hcase with ⟨hstored, -⟩ | ⟨-, -, rfl, rfl⟩
  · exact absurd (hrowKey.symm.trans (hcreated i hstate row hstored)) hkey
  · obtain rfl := getIntent_id hintent
    rw [currentState_addNext]
    intro hsame
    obtain rfl := Option.some.inj hsame
    exact hlater (OrderState.ofName?_eq hname)

theorem wp_left {α : Type} {m : TxM Db PaperError α} (hm : TxM.Within (Advances i) m)
    (hstate : currentState db i ≠ some .intentCreated) :
    TxM.wp (fun t => currentState t i ≠ some .intentCreated) m
      (fun _ t => currentState t i ≠ some .intentCreated) db := by
  refine TxM.wp_mono (hm db) ?_ ?_
  · exact fun t ht hcreated => hstate (ht.pending hcreated)
  · exact fun _ t ht hcreated => hstate (ht.pending hcreated)

theorem processIntent_leaves (market : Market) (session : Session) (item : Captured)
    (hcreated : CreatedOk db) :
    TxM.wp (fun _ => True) (processIntent market session item)
      (fun r t => ∀ p, r = .ok p → currentState t item.intent.id ≠ some .intentCreated) db := by
  unfold processIntent
  refine TxM.wp_bind (TxM.wp_read ?_)
  simp only
  split_ifs with hstate
  · exact TxM.wp_read fun _ _ => hstate
  unfold decideIntent validateIntent
  have hvalidation : TxM.wp (fun _ => True)
      (TxM.tx (appendTransition item.intent.id "VALIDATION_PENDING"
          "constraint_validation_started" "validation_pending" .empty) >>= fun _ =>
        decideConstraints market session item)
      (fun r t => ∀ p, r = .ok p → currentState t item.intent.id ≠ some .intentCreated) db := by
    refine TxM.wp_bind (TxM.wp_tx ?_ fun e _ p h => nomatch h)
    intro row t h
    have hleft := appendTransition_leaves hcreated (not_not.mp hstate) (by decide) (by decide) h
    refine ⟨trivial, TxM.wp_mono (wp_left (decideConstraints_advances market session item) hleft)
      (fun _ _ => trivial) (fun _ _ hu _ _ => hu)⟩
  refine TxM.wp_bind (TxM.wp_mono hvalidation (fun _ _ => trivial) ?_)
  rintro (e | validated) t ht
  · exact fun _ h => nomatch h
  · exact TxM.wp_mono (wp_left (afterValidation_advances market item validated) (ht validated rfl))
      (fun _ _ => trivial) (fun _ _ hu _ _ => hu)

/-! ## The read model -/

/-- A step that writes neither the ledger nor the read model. -/
structure Kept (db t : Db) : Prop where
  intents : t.intents = db.intents
  fills : t.fills = db.fills
  ledger : t.ledger = db.ledger
  positions : t.positions = db.positions
  sessions : t.sessions = db.sessions

theorem Kept.refl (db : Db) : Kept db db := ⟨rfl, rfl, rfl, rfl, rfl⟩

theorem Kept.trans (s t u : Db) (hst : Kept s t) (htu : Kept t u) : Kept s u :=
  ⟨htu.intents.trans hst.intents, htu.fills.trans hst.fills, htu.ledger.trans hst.ledger,
    htu.positions.trans hst.positions, htu.sessions.trans hst.sessions⟩

theorem composes_kept :
    TxM.Composes Kept (fun {α} (m : TxM Db PaperError α) => TxM.Within Kept m) :=
  TxM.composes_within Kept.refl Kept.trans

theorem appendTransition_kept {toState eventType key : String} {row : Transition}
    (h : appendTransition i toState eventType key payload db = .ok (row, t)) : Kept db t := by
  obtain ⟨state, intent, -, -, -, -, hcase⟩ := appendTransition_cases h
  rcases hcase with ⟨-, rfl⟩ | ⟨-, -, -, rfl⟩
  · exact .refl t
  · exact ⟨rfl, rfl, rfl, rfl, rfl⟩

theorem recordConstraintDecision_kept {row found : ConstraintDecision}
    (h : recordConstraintDecision row db = .ok (found, t)) : Kept db t := by
  rcases recordConstraintDecision_cases h with rfl | rfl
  · exact .refl t
  · exact ⟨rfl, rfl, rfl, rfl, rfl⟩

theorem projectOrder_kept {row found : PaperOrder} (h : projectOrder row db = .ok (found, t)) :
    Kept db t := by
  rcases projectOrder_cases h with ⟨-, rfl⟩ | ⟨-, -, rfl⟩
  · exact .refl t
  · exact ⟨rfl, rfl, rfl, rfl, rfl⟩

theorem completeCheckpoint_kept {paperRunId : RunId} {phase : RunPhase}
    {payload : CheckpointPayload} {row : Checkpoint}
    (h : completeCheckpoint paperRunId phase payload db = .ok (row, t)) : Kept db t := by
  rcases completeCheckpoint_cases h with ⟨-, -, rfl⟩ | ⟨-, -, rfl⟩
  · exact .refl t
  · exact ⟨rfl, rfl, rfl, rfl, rfl⟩

theorem ledgerProjection_congr (hledger : t.ledger = db.ledger) (hfills : t.fills = db.fills)
    (sessionId : SessionId) : ledgerProjection sessionId t = ledgerProjection sessionId db := by
  simp only [ledgerProjection, projectionItems, projectionSymbols, positionEntries,
    sessionEntries, fillTradeDate, hledger, hfills]

theorem leanIntentRejection_congr (h : Kept db t) (market : Market) (session : Session)
    (order : LeanOrder) (tradeDate : String) :
    leanIntentRejection market session order tradeDate t =
      leanIntentRejection market session order tradeDate db := by
  obtain ⟨hintents, hfills, -, hpositions, -⟩ := h
  cases db
  cases t
  subst hintents hfills hpositions
  rfl

/-- The read model of a session is the projection of its ledger. -/
structure SyncedWith (session : Session) (projection : LedgerProjection) (db : Db) : Prop where
  projected : ledgerProjection session.id db = .ok projection
  row : db.sessions session.id = some { session with cash := projection.cash }
  positions : db.positions session.id = projection.positions.map ProjectedPosition.row

/-- The read model of a session is in step with its ledger. -/
def Synced (session : Session) (db : Db) : Prop := ∃ projection, SyncedWith session projection db

variable {session : Session}

theorem Synced.of_same (h : Synced session db) (hledger : t.ledger = db.ledger)
    (hfills : t.fills = db.fills) (hpositions : t.positions = db.positions)
    (hsessions : t.sessions = db.sessions) : Synced session t := by
  obtain ⟨projection, hprojected, hrow, hrows⟩ := h
  refine ⟨projection, ?_, ?_, ?_⟩
  · rw [ledgerProjection_congr hledger hfills]
    exact hprojected
  · rw [hsessions]
    exact hrow
  · rw [hpositions]
    exact hrows

theorem Synced.of_kept (h : Synced session db) (hkept : Kept db t) : Synced session t :=
  h.of_same hkept.ledger hkept.fills hkept.positions hkept.sessions

theorem synced_refresh {cash : ℚ}
    (hrow : db.sessions session.id = some { session with cash := cash })
    (h : applyLedgerProjection session.id db = .ok (projection, t)) : Synced session t := by
  obtain ⟨hprojected, rfl⟩ := applyLedgerProjection_ok h
  refine ⟨projection, ?_, ?_, ?_⟩
  · have hsame : ledgerProjection session.id (db.refresh session.id projection) =
        ledgerProjection session.id db := ledgerProjection_congr rfl rfl _
    rw [hsame]
    exact hprojected
  · simp [Db.refresh, hrow]
  · simp [Db.refresh]

theorem SyncedWith.getSession_eq (h : SyncedWith session projection db) :
    getSession session db = { session with cash := projection.cash } := by
  rw [getSession, h.row, Option.getD_some]

/-! ## The fill of a round -/

/-- A fill that passed the checks: `db` is the database that the checks read,
and the session is the one they read there. -/
structure FillStep (market : Market) (session : Session) (item : Captured) (db : Db)
    (fill : Fill) : Prop where
  pending : currentState db item.intent.id = some .intentCreated
  fresh : findFill db item.intent.id fill.externalFillKey = none
  id : fill.id = db.fills.length
  intentId : fill.intentId = item.intent.id
  tradeDate : fill.tradeDate = item.intent.tradeDate
  quantity : fill.quantity = item.intent.quantity
  slippage : fill.slippage = 0
  price : deterministicMatchPrice market (getSession session db) item.intent = .ok fill.price
  charges : ∃ charges,
    feeBreakdown item.intent.quantity fill.price item.intent.side (getSession session db) =
      .ok charges ∧ fill.fee = charges.commission + charges.statutory ∧ fill.tax = charges.tax
  passed : leanIntentRejection market (getSession session db) item.order item.intent.tradeDate db =
    .ok none

/-- What a round does to the ledger: nothing, or one fill. -/
def Touches (market : Market) (session : Session) (item : Captured) (db t : Db) : Prop :=
  (t.fills = db.fills ∧ t.ledger = db.ledger) ∨
    ∃ fill context currency, FillStep market session item db fill ∧
      t.fills = (db.addFill item.intent fill context currency).fills ∧
      t.ledger = (db.addFill item.intent fill context currency).ledger

section Fill

variable {market : Market} {session : Session} {item : Captured} {db t : Db}

theorem Kept.touches (h : Kept db t) : Touches market session item db t :=
  Or.inl ⟨h.fills, h.ledger⟩

theorem Touches.of_same {u : Db} (h : Touches market session item db t)
    (hfills' : u.fills = t.fills) (hledger' : u.ledger = t.ledger) :
    Touches market session item db u := by
  rcases h with ⟨hfills, hledger⟩ | ⟨fill, context, currency, hstep, hfills, hledger⟩
  · exact Or.inl ⟨hfills'.trans hfills, hledger'.trans hledger⟩
  · exact Or.inr ⟨fill, context, currency, hstep, hfills'.trans hfills, hledger'.trans hledger⟩

theorem Touches.of_kept {u : Db} (h : Touches market session item db t) (hkept : Kept t u) :
    Touches market session item db u :=
  h.of_same hkept.fills hkept.ledger

theorem validateIntent_spec (market : Market) (session : Session) (item : Captured) (db : Db) :
    TxM.wp (Kept db) (validateIntent market session item)
      (fun r t => Kept db t ∧ ∀ current reason, r = .ok (current, reason) →
        current = getSession session db ∧
          leanIntentRejection market current item.order item.intent.tradeDate db = .ok reason)
      db := by
  unfold validateIntent decideConstraints
  refine TxM.wp_bind (TxM.wp_tx ?_ ?_)
  · intro _ t h
    have hkept := appendTransition_kept h
    refine ⟨hkept, ?_⟩
    refine TxM.wp_bind (TxM.wp_read ?_)
    have hsession : getSession session t = getSession session db := by
      rw [getSession, getSession, hkept.sessions]
    refine TxM.wp_bind (TxM.wp_read ?_)
    rw [hsession, leanIntentRejection_congr hkept]
    cases hreason : leanIntentRejection market (getSession session db) item.order
        item.intent.tradeDate db with
    | error e => exact ⟨hkept, fun _ _ h => nomatch h⟩
    | ok reason =>
      refine TxM.wp_bind (TxM.wp_read ?_)
      refine TxM.wp_bind (TxM.wp_tx ?_ ?_)
      · intro _ u h
        have hdecided := Kept.trans _ _ _ hkept (recordConstraintDecision_kept h)
        refine ⟨hdecided, TxM.wp_pure ⟨hdecided, ?_⟩⟩
        intro current reason' hr
        obtain ⟨rfl, rfl⟩ := ok_inj hr
        exact ⟨rfl, hreason⟩
      · intro e _
        exact ⟨hkept, fun _ _ h => nomatch h⟩
  · intro e _
    exact ⟨Kept.refl db, fun _ _ h => nomatch h⟩

/-- What holds on the way of a round, and the read model where it returns. -/
def Round (market : Market) (session : Session) (item : Captured) (db : Db)
    (r : Except PaperError Processed) (t : Db) : Prop :=
  Touches market session item db t ∧ ∀ p, r = .ok p → Synced session t

theorem wp_of_kept {m : TxM Db PaperError Processed} (hm : TxM.Within Kept m)
    (hsync : Synced session db) (hkept : Kept db t) :
    TxM.wp (Touches market session item db) m (Round market session item db) t := by
  refine TxM.wp_mono (hm t) ?_ ?_
  · intro u hu
    exact (Kept.trans _ _ _ hkept hu).touches
  · intro r u hu
    have hall := Kept.trans _ _ _ hkept hu
    exact ⟨hall.touches, fun _ _ => hsync.of_kept hall⟩

theorem recordFillAndLedger_touches {price : ℚ} {charges : FeeBreakdown} {fill : Fill} {u : Db}
    (hkept : Kept db t) (hpending : currentState db item.intent.id = some .intentCreated)
    (hstored : getIntent db item.intent.id = some item.intent)
    (hpassed : leanIntentRejection market (getSession session db) item.order
      item.intent.tradeDate db = .ok none)
    (hprice : deterministicMatchPrice market (getSession session db) item.intent = .ok price)
    (hcharges : feeBreakdown item.intent.quantity price item.intent.side (getSession session db) =
      .ok charges)
    (h : recordFillAndLedger (fillRequest (getSession session db) item price charges) t =
      .ok (fill, u)) :
    Touches market session item db u ∧ u.sessions = db.sessions := by
  obtain ⟨intent, hintent, hcase⟩ := recordFillAndLedger_cases h
  rw [getIntent_congr hkept.intents] at hintent
  obtain rfl : item.intent = intent := Option.some.inj (hstored.symm.trans hintent)
  rcases hcase with ⟨-, rfl⟩ | ⟨hfresh, hfill, -, hstate⟩
  · exact ⟨hkept.touches, hkept.sessions⟩
  · have hnew : findFill db item.intent.id (FillKey.event item.eventKey) = none := by
      rw [← hfresh, findFill, findFill, hkept.fills]
      rfl
    have hstep : FillStep market session item db fill := by
      subst hfill
      exact
        { pending := hpending
          fresh := hnew
          id := congrArg List.length hkept.fills
          intentId := rfl
          tradeDate := rfl
          quantity := rfl
          slippage := rfl
          price := hprice
          charges := ⟨charges, hcharges, rfl, rfl⟩
          passed := hpassed }
    obtain ⟨context, currency, rfl⟩ : ∃ context currency,
      u = t.addFill item.intent fill context currency := ⟨_, _, hstate⟩
    refine ⟨Or.inr ⟨fill, context, currency, hstep, ?_, ?_⟩, hkept.sessions⟩
    · show t.fills ++ [fill] = db.fills ++ [fill]
      rw [hkept.fills]
    · show t.ledger ++ numbered _ (fillSequence _ t.ledger) _ =
        db.ledger ++ numbered _ (fillSequence _ db.ledger) _
      rw [hkept.ledger]

theorem fillIntent_touches {price : ℚ} (hsync : Synced session db) (hkept : Kept db t)
    (hpending : currentState db item.intent.id = some .intentCreated)
    (hstored : getIntent db item.intent.id = some item.intent)
    (hpassed : leanIntentRejection market (getSession session db) item.order
      item.intent.tradeDate db = .ok none)
    (hprice : deterministicMatchPrice market (getSession session db) item.intent = .ok price) :
    TxM.wp (Touches market session item db) (fillIntent (getSession session db) item price)
      (Round market session item db) t := by
  obtain ⟨projection, hprojection⟩ := hsync
  have hid : (getSession session db).id = session.id := by rw [hprojection.getSession_eq]
  have hstart : Touches market session item db t := hkept.touches
  unfold fillIntent
  refine TxM.wp_bind (TxM.wp_read ?_)
  cases hcharges : feeBreakdown item.intent.quantity price item.intent.side
      (getSession session db) with
  | error e => exact ⟨hstart, fun _ h => nomatch h⟩
  | ok charges =>
    refine TxM.wp_bind (TxM.wp_tx ?_ fun e _ => ⟨hstart, fun _ h => nomatch h⟩)
    intro fill u hfill
    obtain ⟨hrecorded, hsessions⟩ :=
      recordFillAndLedger_touches hkept hpending hstored hpassed hprice hcharges hfill
    refine ⟨hrecorded, TxM.wp_bind (TxM.wp_tx ?_ fun e _ => ⟨hrecorded, fun _ h => nomatch h⟩)⟩
    intro refreshed v hrefresh
    rw [hid] at hrefresh
    have hrow : u.sessions session.id = some { session with cash := projection.cash } := by
      rw [hsessions]
      exact hprojection.row
    have hsynced : Synced session v := synced_refresh hrow hrefresh
    have htouched : Touches market session item db v := by
      rw [(applyLedgerProjection_ok hrefresh).2]
      exact hrecorded.of_same rfl rfl
    -- What is left writes neither the ledger nor the read model.
    refine ⟨htouched, ?_⟩
    have hrest : TxM.Within Kept (completeFill (getSession session db) item price charges) := by
      unfold completeFill
      refine composes_kept.bind
        (composes_kept.tx fun _ _ _ h => appendTransition_kept h) fun _ => ?_
      refine composes_kept.bind
        (composes_kept.tx fun _ _ _ h => projectOrder_kept h) fun order => ?_
      refine composes_kept.bind
        (composes_kept.tx fun _ _ _ h => appendTransition_kept h) fun _ => ?_
      exact composes_kept.pure _
    refine TxM.wp_mono (hrest v) (fun w hw => htouched.of_kept hw) ?_
    exact fun r w hw => ⟨htouched.of_kept hw, fun _ _ => hsynced.of_kept hw⟩

theorem processIntent_touches (hsync : Synced session db)
    (hstored : getIntent db item.intent.id = some item.intent) :
    TxM.wp (Touches market session item db) (processIntent market session item)
      (Round market session item db) db := by
  unfold processIntent
  refine TxM.wp_bind (TxM.wp_read ?_)
  simp only
  split_ifs with hstate
  · exact TxM.wp_read ⟨(Kept.refl db).touches, fun _ _ => hsync⟩
  unfold decideIntent
  refine TxM.wp_bind (TxM.wp_mono (validateIntent_spec market session item db)
    (fun t h => h.touches) ?_)
  rintro (e | ⟨current, reason⟩) t ⟨hkept, hverdict⟩
  · exact ⟨hkept.touches, fun _ h => nomatch h⟩
  obtain ⟨rfl, hreason⟩ := hverdict current reason rfl
  cases reason with
  | some reason =>
    refine wp_of_kept ?_ hsync hkept
    unfold rejectIntent
    refine composes_kept.bind (composes_kept.tx fun _ _ _ h => appendTransition_kept h) fun _ => ?_
    refine composes_kept.bind (composes_kept.tx fun _ _ _ h => projectOrder_kept h) fun order => ?_
    exact composes_kept.pure _
  | none =>
    simp only
    unfold matchIntent
    refine TxM.wp_bind (TxM.wp_tx ?_ fun e _ => ⟨hkept.touches, fun _ h => nomatch h⟩)
    intro _ u hu
    have haccepted := Kept.trans _ _ _ hkept (appendTransition_kept hu)
    refine ⟨haccepted.touches, TxM.wp_bind (TxM.wp_tx ?_ fun e _ =>
      ⟨haccepted.touches, fun _ h => nomatch h⟩)⟩
    intro _ v hv
    have hmatching := Kept.trans _ _ _ haccepted (appendTransition_kept hv)
    refine ⟨hmatching.touches, ?_⟩
    cases hprice : deterministicMatchPrice market (getSession session db) item.intent with
    | ok price => exact fillIntent_touches hsync hmatching (not_not.mp hstate) hstored hreason hprice
    | error reason =>
      refine wp_of_kept ?_ hsync hmatching
      unfold expireIntent
      refine composes_kept.bind
        (composes_kept.tx fun _ _ _ h => appendTransition_kept h) fun _ => ?_
      refine composes_kept.bind
        (composes_kept.tx fun _ _ _ h => projectOrder_kept h) fun order => ?_
      exact composes_kept.pure _

end Fill

end LocalPlatform.Paper
