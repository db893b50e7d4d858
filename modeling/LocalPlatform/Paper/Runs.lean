import LocalPlatform.Paper.Rounds

/-!
# Runs of the pipeline

A session is processed by many calls of `_process_v2_lean_intents`, and every
call can raise, or its worker can die after any commit.  `ProcessRun` is the
relation between the database before such a run and one that it can reach.

`process_safe` is the rule for one call.  A predicate that the opening keeps,
that growing tables keep, and that a round keeps whenever it writes a fill that
passed the checks, holds of everything the call leaves behind.  The rule takes
care of the capture: the intent of a captured order carries the symbol, the
side, the quantity and the date of the order (`Matches`).
-/

namespace LocalPlatform.Paper

open Transaction

/-! ## What the capture writes -/

variable {db t : Db}

theorem insertIntent_cases {request : IntentRequest} {intent : Intent} {created : Bool}
    (h : insertIntent request db = .ok ((intent, created), t)) :
    (created = false ∧ t = db) ∨
      (created = true ∧ intent = request.row db ∧ t = db.addIntent request) := by
  unfold insertIntent at h
  split at h
  · obtain ⟨hpair, rfl⟩ := ok_inj h
    exact Or.inl ⟨(Prod.mk.inj hpair).2.symm, rfl⟩
  · split_ifs at h
    obtain ⟨hpair, rfl⟩ := ok_inj h
    obtain ⟨rfl, rfl⟩ := Prod.mk.inj hpair
    exact Or.inr ⟨rfl, rfl, rfl⟩

section Capture

variable (session : Session) (paperRunId : RunId) (child : Child)

/-- What the capture loop writes: new intents, and transitions of these. -/
structure CapturesFrom (db t : Db) : Prop where
  ok : IntentsOk t
  rows : ∃ rows, t.intents = db.intents ++ rows ∧
    ∀ row ∈ rows, ∃ order before, row = (intentRequest session paperRunId child order).row before
  transitions : ∀ i, i < db.intents.length → t.transitions i = db.transitions i
  keys : ∀ i, db.intents.length ≤ i →
    ∀ row ∈ t.transitions i, row.idempotencyKey = "intent_created"
  rest : t = { db with intents := t.intents, transitions := t.transitions }

variable {db : Db}

theorem transitions_unstored (h : IntentsOk db) {i : IntentId} (hi : db.intents.length ≤ i) :
    db.transitions i = [] := by
  by_contra hrows
  have hstored := h.histories.stored i hrows
  rw [h.getIntent_eq, List.getElem?_eq_none hi] at hstored
  cases hstored

theorem CapturesFrom.refl (h : IntentsOk db) : CapturesFrom session paperRunId child db db := by
  refine ⟨h, ⟨[], (List.append_nil _).symm, fun _ h => absurd h (List.not_mem_nil)⟩,
    fun _ _ => rfl, ?_, rfl⟩
  intro i hi row hrow
  rw [transitions_unstored h hi] at hrow
  cases hrow

variable {session paperRunId child}

theorem CapturesFrom.trans {s t u : Db} (hst : CapturesFrom session paperRunId child s t)
    (htu : CapturesFrom session paperRunId child t u) :
    CapturesFrom session paperRunId child s u := by
  obtain ⟨rows, hrows, hsource⟩ := hst.rows
  obtain ⟨rows', hrows', hsource'⟩ := htu.rows
  refine ⟨htu.ok, ⟨rows ++ rows', ?_, ?_⟩, ?_, ?_, ?_⟩
  · rw [hrows', hrows, List.append_assoc]
  · intro row hrow
    rcases List.mem_append.mp hrow with hrow | hrow
    · exact hsource row hrow
    · exact hsource' row hrow
  · intro i hi
    rw [htu.transitions i (by rw [hrows, List.length_append]; omega), hst.transitions i hi]
  · intro i hi
    rcases Nat.lt_or_ge i t.intents.length with hlt | hge
    · rw [htu.transitions i hlt]
      exact hst.keys i hi
    · exact htu.keys i hge
  · rw [htu.rest, hst.rest]

theorem capturesFrom_addIntent (h : IntentsOk db) (order : LeanOrder) :
    CapturesFrom session paperRunId child db
      (db.addIntent (intentRequest session paperRunId child order)) := by
  refine ⟨h.addIntent _, ⟨[_], rfl, ?_⟩, fun _ _ => rfl, ?_, rfl⟩
  · intro row hrow
    exact ⟨order, db, List.mem_singleton.mp hrow⟩
  · exact (CapturesFrom.refl session paperRunId child h).keys

theorem capturesFrom_capture (h : IntentsOk db) (order : LeanOrder) :
    CapturesFrom session paperRunId child db
      (db.capture (intentRequest session paperRunId child order)) := by
  refine ⟨h.capture _, ⟨[_], rfl, ?_⟩, ?_, ?_, rfl⟩
  · intro row hrow
    exact ⟨order, db, List.mem_singleton.mp hrow⟩
  · intro i hi
    exact addTransition_other _ _ (Nat.ne_of_lt hi)
  · intro i hi row hrow
    by_cases hlast : i = db.intents.length
    · subst hlast
      rw [Db.capture, addTransition_same, addIntent_transitions,
        transitions_unstored h (Nat.le_refl _), List.nil_append] at hrow
      rw [List.mem_singleton.mp hrow]
      rfl
    · rw [Db.capture, addTransition_other _ _ hlast, addIntent_transitions,
        transitions_unstored h hi] at hrow
      cases hrow

variable (session paperRunId child)

theorem captureOrder_captures (order : LeanOrder) (h : IntentsOk db) :
    TxM.wp (CapturesFrom session paperRunId child db)
      (captureOrder session paperRunId child order)
      (fun _ t => CapturesFrom session paperRunId child db t) db := by
  have hrefl := CapturesFrom.refl session paperRunId child h
  unfold captureOrder recordIntent
  refine TxM.wp_bind (TxM.wp_bind (TxM.wp_tx ?_ fun _ _ => hrefl))
  rintro ⟨intent, created⟩ t hinsert
  rcases insertIntent_cases hinsert with ⟨rfl, rfl⟩ | ⟨rfl, rfl, rfl⟩
  · exact ⟨hrefl, TxM.wp_pure (TxM.wp_pure hrefl)⟩
  · refine ⟨capturesFrom_addIntent h order, ?_⟩
    refine TxM.wp_bind (TxM.wp_tx ?_ fun _ _ => capturesFrom_addIntent h order)
    intro row u happend
    rw [appendTransition_captured h] at happend
    obtain ⟨-, rfl⟩ := ok_inj happend
    have hcapture : CapturesFrom session paperRunId child db
        (db.capture (intentRequest session paperRunId child order)) := capturesFrom_capture h order
    exact ⟨hcapture, TxM.wp_read (TxM.wp_pure hcapture)⟩

/-- An item whose intent was not stored before, and that is the first of its
intent, is the order that the intent was made from. -/
def FirstOfIntent (db : Db) (captured : List Captured) : Prop :=
  ∀ pre item post, captured = pre ++ item :: post →
    (∀ other ∈ pre, other.intent.id ≠ item.intent.id) →
      capturedIntent session paperRunId child db item.order = some item.intent ∨
        item.intent.requestedPrice = some item.price

theorem captureOrders_first (orders : List LeanOrder) :
    ∀ (db : Db) (captured : List Captured), IntentsOk db →
      (captureOrders session paperRunId child orders db).value = .ok captured →
      FirstOfIntent session paperRunId child db captured := by
  induction orders with
  | nil =>
    intro db captured _ h pre item post hsplit
    obtain rfl := Except.ok.inj h
    simp at hsplit
  | cons order orders ih =>
    intro db captured hdb h pre item post hsplit hfirst
    obtain ⟨head, rest, hhead, hrest, rfl⟩ := TxM.forEach_cons_ok_iff.mp h
    cases hcaptured : capturedIntent session paperRunId child db order with
    | some intent =>
      have hskip := captureOrder_existing hcaptured
      rw [hskip.1] at hhead
      rw [hskip.2] at hrest
      obtain rfl := Except.ok.inj hhead
      rcases pre with _ | ⟨first, pre⟩
      · obtain ⟨rfl, -⟩ := List.cons.inj hsplit
        exact Or.inl hcaptured
      · obtain ⟨rfl, htail⟩ := List.cons.inj hsplit
        exact ih db rest hdb hrest pre item post htail
          (fun other hother => hfirst other (List.mem_cons_of_mem _ hother))
    | none =>
      cases hused : eventKeyUsed db session.id (orderEventKey order) with
      | true =>
        rw [captureOrder_conflict hcaptured hused] at hhead
        cases hhead
      | false =>
        obtain ⟨hvalue, hstate⟩ := captureOrder_created hdb hcaptured hused
        rw [hvalue] at hhead
        rw [hstate] at hrest
        obtain rfl := Except.ok.inj hhead
        rcases pre with _ | ⟨first, pre⟩
        · obtain ⟨rfl, -⟩ := List.cons.inj hsplit
          exact Or.inr rfl
        · obtain ⟨rfl, htail⟩ := List.cons.inj hsplit
          obtain ⟨hnew, hfirst⟩ := List.forall_mem_cons.mp hfirst
          rcases ih _ rest (hdb.capture _) hrest pre item post htail hfirst with hstored | hprice
          · -- The only intent that is new in the rest is the one of the head.
            left
            rw [capturedIntent, findIntent, capture_intents, List.find?_append] at hstored
            rw [capturedIntent, findIntent]
            rcases Option.or_eq_some_iff.mp hstored with hstored | ⟨-, hlast⟩
            · exact hstored
            · have hmem := List.mem_of_find?_eq_some hlast
              rw [List.mem_singleton.mp hmem] at hnew
              exact absurd rfl hnew
          · exact Or.inr hprice

theorem captureOrders_captures (orders : List LeanOrder) (h : IntentsOk db) :
    TxM.wp (CapturesFrom session paperRunId child db)
      (captureOrders session paperRunId child orders)
      (fun r t => CapturesFrom session paperRunId child db t ∧ ∀ captured, r = .ok captured →
        FirstOfIntent session paperRunId child db captured ∧ List.Forall₂ (fun order item =>
          ∃ intent, capturedIntent session paperRunId child t order = some intent ∧
            item = capturedItem order intent) orders captured) db := by
  have hloop : TxM.wp (CapturesFrom session paperRunId child db)
      (captureOrders session paperRunId child orders)
      (fun _ t => CapturesFrom session paperRunId child db t) db := by
    refine TxM.wp_forEach_keep _ ?_ orders db (CapturesFrom.refl session paperRunId child h)
    intro order t ht
    refine TxM.wp_mono (captureOrder_captures session paperRunId child order ht.ok) ?_ ?_
    · exact fun u hu => ht.trans hu
    · exact fun _ u hu => ht.trans hu
  refine ⟨hloop.1, hloop.2, ?_⟩
  intro captured hcaptured
  exact ⟨captureOrders_first session paperRunId child orders db captured h hcaptured,
    (captureOrders_items orders db captured h hcaptured).2.2⟩

end Capture

/-! ## Captured orders and their intents -/

/-- The columns of an intent agree with its idempotency key. -/
structure Identified (intent : Intent) : Prop where
  symbol : intent.symbol = intent.idempotencyKey.payload.normalizedOrder.symbol
  side : intent.side = intent.idempotencyKey.payload.normalizedOrder.side
  quantity : intent.quantity = intent.idempotencyKey.payload.normalizedOrder.quantity
  tradeDate : intent.tradeDate = intent.idempotencyKey.payload.tradeDate

/-- The intents of a session agree with their idempotency keys. -/
def AllIdentified (sessionId : SessionId) (db : Db) : Prop :=
  ∀ intent ∈ db.intents, intent.sessionId = sessionId → Identified intent

/-- A captured order and its intent: they agree on what the checks and the fill
read. -/
structure Matches (session : Session) (item : Captured) : Prop where
  symbol : item.intent.symbol = upper (firstText [item.order.symbol, some session.symbol])
  side : item.intent.side = lower (firstText [item.order.side])
  quantity : item.intent.quantity = |firstNumber [item.order.quantity]|
  tradeDate : item.intent.tradeDate = orderTradeDate item.order
  sessionId : item.intent.sessionId = session.id
  eventKey : item.eventKey = orderEventKey item.order
  price : item.price = item.order.eventPrice

section Matching

variable {session : Session} {paperRunId : RunId} {child : Child} {db t : Db}

theorem identified_row (order : LeanOrder) (before : Db) :
    Identified ((intentRequest session paperRunId child order).row before) := by
  refine ⟨?_, ?_, ?_, rfl⟩
  · exact (upper_upper _).symm
  · exact (lower_lower _).symm
  · exact (abs_abs _).symm

theorem CapturesFrom.createdOk (h : CapturesFrom session paperRunId child db t)
    (hdb : CreatedOk db) : CreatedOk t := by
  intro i hstate
  rcases Nat.lt_or_ge i db.intents.length with hlt | hge
  · have hrows := h.transitions i hlt
    rw [currentState_congr hrows] at hstate
    rw [hrows]
    exact hdb i hstate
  · exact h.keys i hge

theorem CapturesFrom.identified (h : CapturesFrom session paperRunId child db t)
    {sessionId : SessionId} (hdb : AllIdentified sessionId db) : AllIdentified sessionId t := by
  obtain ⟨rows, hrows, hsource⟩ := h.rows
  intro intent hintent hsession
  rw [hrows] at hintent
  rcases List.mem_append.mp hintent with hintent | hintent
  · exact hdb intent hintent hsession
  · obtain ⟨order, before, rfl⟩ := hsource intent hintent
    exact identified_row order before

theorem matches_of_captured {order : LeanOrder} {intent : Intent} (hok : IntentsOk t)
    (hidentified : AllIdentified session.id t)
    (h : capturedIntent session paperRunId child t order = some intent) :
    Matches session (capturedItem order intent) ∧ getIntent t intent.id = some intent := by
  obtain ⟨hmem, hkey⟩ := capturedIntent_mem h
  have hsession : intent.sessionId = session.id := by
    have hfound := List.find?_some h
    simp only [Bool.and_eq_true, beq_iff_eq] at hfound
    exact hfound.1
  have hcolumns := hidentified intent hmem hsession
  refine ⟨⟨?_, ?_, ?_, ?_, hsession, rfl, rfl⟩, ?_⟩
  · show intent.symbol = _
    rw [hcolumns.symbol, hkey]
    exact upper_upper _
  · show intent.side = _
    rw [hcolumns.side, hkey]
    exact lower_lower _
  · show intent.quantity = _
    rw [hcolumns.quantity, hkey]
    exact abs_abs _
  · show intent.tradeDate = _
    rw [hcolumns.tradeDate, hkey]
    rfl
  · obtain ⟨n, hn, rfl⟩ := List.mem_iff_getElem.mp hmem
    rw [hok.getIntent_eq, hok.ids n hn, List.getElem?_eq_getElem hn]

end Matching

/-- What the loop over the captured intents starts on, after the capture of a
list of orders from `db`. -/
structure CaptureDone (session : Session) (paperRunId : RunId) (child : Child)
    (orders : List LeanOrder) (captured : List Captured) (db t : Db) : Prop where
  ok : IntentsOk t
  intents : ∃ rows, t.intents = db.intents ++ rows
  transitions : ∀ i, i < db.intents.length → t.transitions i = db.transitions i
  fills : t.fills = db.fills
  first : FirstOfIntent session paperRunId child db captured
  items : List.Forall₂ (fun order item =>
    ∃ intent, capturedIntent session paperRunId child t order = some intent ∧
      item = capturedItem order intent) orders captured

variable {session : Session}

theorem CaptureDone.captured {paperRunId : RunId} {child : Child} {orders : List LeanOrder}
    {captured : List Captured} (h : CaptureDone session paperRunId child orders captured db t) :
    captured.map Captured.order = orders ∧ ∀ item ∈ captured,
      capturedIntent session paperRunId child t item.order = some item.intent ∧
        item = capturedItem item.order item.intent := by
  have hitems := h.items
  clear h
  induction hitems with
  | nil => exact ⟨rfl, fun _ hitem => absurd hitem List.not_mem_nil⟩
  | cons hfirst _ ih =>
    obtain ⟨intent, hintent, rfl⟩ := hfirst
    obtain ⟨horders, hrest⟩ := ih
    refine ⟨by rw [List.map_cons, horders]; rfl, ?_⟩
    rw [List.forall_mem_cons]
    exact ⟨⟨hintent, rfl⟩, hrest⟩

/-! ## The opening -/

/-- What the opening and the first refresh write: the opening entries, unless
they are there, and the read model. -/
structure OpenedFrom (session : Session) (db t : Db) : Prop where
  ledger : t.ledger = db.ledger ∨ (db.ledger.any (isOpeningCash session.id) = false ∧
    t.ledger = (db.addOpening (openingRequest session db)).ledger)
  rest : t = { db with ledger := t.ledger, positions := t.positions, sessions := t.sessions }

theorem openSession_spec (hrow : db.sessions session.id = some session) :
    TxM.wp (OpenedFrom session db) (openSession session)
      (fun r t => OpenedFrom session db t ∧ ∀ current, r = .ok current →
        ∃ cash, current = { session with cash := cash } ∧ Synced current t) db := by
  have hstart : OpenedFrom session db db := ⟨Or.inl rfl, rfl⟩
  unfold openSession
  refine TxM.wp_bind (TxM.wp_read ?_)
  refine TxM.wp_bind (TxM.wp_tx ?_ fun e _ => ⟨hstart, fun _ h => nomatch h⟩)
  intro _ opened hopened
  have hfirst : OpenedFrom session db opened ∧ opened.sessions = db.sessions := by
    rcases ensureOpeningLedger_cases hopened with ⟨-, rfl⟩ | ⟨hmarker, rfl⟩
    · exact ⟨hstart, rfl⟩
    · exact ⟨⟨Or.inr ⟨hmarker, rfl⟩, rfl⟩, rfl⟩
  obtain ⟨hfirst, hsessions⟩ := hfirst
  refine ⟨hfirst, TxM.wp_bind (TxM.wp_tx ?_ fun e _ => ⟨hfirst, fun _ h => nomatch h⟩)⟩
  intro projection refreshed hrefreshed
  have hsecond : OpenedFrom session db refreshed := by
    rw [(applyLedgerProjection_ok hrefreshed).2]
    refine ⟨hfirst.ledger, ?_⟩
    rw [Db.refresh, hfirst.rest]
  refine ⟨hsecond, TxM.wp_read ⟨hsecond, ?_⟩⟩
  have hrow' : opened.sessions session.id = some { session with cash := session.cash } := by
    rw [hsessions]
    exact hrow
  obtain ⟨projected, hprojected⟩ := synced_refresh hrow' hrefreshed
  intro current hcurrent
  rw [hprojected.getSession_eq] at hcurrent
  obtain rfl := Except.ok.inj hcurrent
  exact ⟨projected.cash, rfl, projected, hprojected.projected, hprojected.row,
    hprojected.positions⟩

/-! ## The rule of a call -/

section Safety

variable {market : Market} {Safe : Db → Prop} (Inv : List Captured → Db → Prop)

theorem processLoop_safe {session : Session} (hsafe : ∀ items db, Inv items db → Safe db)
    (hround : ∀ item items db t, Inv (item :: items) db → Synced session db →
      Matches session item → getIntent db item.intent.id = some item.intent →
      Touches market session item db t → Advances item.intent.id db t → Safe t)
    (hnext : ∀ item items db t, Inv (item :: items) db → Synced session db →
      Matches session item → getIntent db item.intent.id = some item.intent →
      Touches market session item db t → Advances item.intent.id db t →
      currentState t item.intent.id ≠ some .intentCreated → Inv items t)
    (hcreated : ∀ items db, Inv items db → CreatedOk db) (items : List Captured) (db : Db) (hinv : Inv items db) (hsync : Synced session db)
    (hitems : ∀ item ∈ items,
      Matches session item ∧ getIntent db item.intent.id = some item.intent) :
    TxM.wp Safe (TxM.forEach (processIntent market session) items) (fun _ t => Safe t) db := by
  have hloop := TxM.wp_forEach (I := Safe) (f := processIntent market session)
    (fun items t => Inv items t ∧ Synced session t ∧ ∀ item ∈ items,
      Matches session item ∧ getIntent t item.intent.id = some item.intent)
    (fun _ t => Safe t) ?_ items db ⟨hinv, hsync, hitems⟩
  · refine TxM.wp_mono hloop (fun _ h => h) ?_
    rintro (e | processed) t ht
    · exact ht
    · exact hsafe [] t ht.1
  · rintro item items t ⟨hinv, hsync, hitems⟩
    obtain ⟨⟨hmatches, hstored⟩, hrest⟩ := List.forall_mem_cons.mp hitems
    have hround' := fun u => hround item items t u hinv hsync hmatches hstored
    refine TxM.wp_mono (TxM.wp_and (TxM.wp_and (processIntent_touches hsync hstored)
      (processIntent_advances market session item t))
      (processIntent_leaves market session item (hcreated _ t hinv))) ?_ ?_
    · exact fun u hu => hround' u hu.1.1 hu.1.2
    · rintro (e | p) u ⟨⟨⟨htouches, hsynced⟩, hadvances⟩, hleft⟩
      · exact hround' u htouches hadvances
      · refine ⟨hnext item items t u hinv hsync hmatches hstored htouches hadvances (hleft p rfl),
          hsynced p rfl, ?_⟩
        intro other hother
        rw [getIntent_congr hadvances.intents]
        exact hrest other hother

/-- The tables of intents and transitions are in order, and the intents of a
session agree with their keys. -/
structure TablesOk (sessionId : SessionId) (db : Db) : Prop where
  intents : IntentsOk db
  created : CreatedOk db
  identified : AllIdentified sessionId db

variable {sessionId : SessionId}

theorem TablesOk.of_same {db t : Db} (h : TablesOk sessionId db) (hintents : t.intents = db.intents)
    (hhistories : HistoriesOk t) (hcreated : CreatedOk t) : TablesOk sessionId t := by
  refine ⟨⟨?_, hhistories⟩, hcreated, ?_⟩
  · rw [hintents]
    exact h.intents.ids
  · intro intent hintent
    rw [hintents] at hintent
    exact h.identified intent hintent

theorem TablesOk.of_eq {db t : Db} (h : TablesOk sessionId db) (hintents : t.intents = db.intents)
    (htransitions : t.transitions = db.transitions) : TablesOk sessionId t := by
  have hhistories := h.intents.histories
  refine h.of_same hintents ⟨?_, ?_⟩ (h.created.of_same fun i _ => by rw [htransitions])
  · intro i
    rw [htransitions]
    exact hhistories.history i
  · intro i hrows
    rw [htransitions] at hrows
    rw [getIntent_congr hintents]
    exact hhistories.stored i hrows

theorem TablesOk.of_advances {i : IntentId} {db t : Db} (h : TablesOk sessionId db)
    (hadvances : Advances i db t) : TablesOk sessionId t :=
  h.of_same hadvances.intents (hadvances.histories h.intents.histories)
    (hadvances.createdOk h.created)

theorem completeCheckpoint_rest {paperRunId : RunId} {phase : RunPhase}
    {payload : CheckpointPayload} {row : Checkpoint} {db t : Db}
    (h : completeCheckpoint paperRunId phase payload db = .ok (row, t)) :
    t = { db with checkpoints := t.checkpoints } := by
  rcases completeCheckpoint_cases h with ⟨-, -, rfl⟩ | ⟨-, -, rfl⟩ <;> rfl

def OnlyCheckpoints (db t : Db) : Prop := t = { db with checkpoints := t.checkpoints }

theorem completeProcessing_rest (paperRunId : RunId) (processed : List Processed) :
    TxM.Within OnlyCheckpoints (completeProcessing paperRunId processed) := by
  have hrefl : ∀ s, OnlyCheckpoints s s := fun _ => rfl
  have htrans : ∀ s t u, OnlyCheckpoints s t → OnlyCheckpoints t u → OnlyCheckpoints s u := by
    intro s t u hst htu
    rw [OnlyCheckpoints, htu, hst]
  have hW : TxM.Composes OnlyCheckpoints
      (fun {α} (m : TxM Db PaperError α) => TxM.Within OnlyCheckpoints m) :=
    TxM.composes_within hrefl htrans
  unfold completeProcessing
  refine hW.bind (hW.tx fun _ _ _ h => completeCheckpoint_rest h) fun _ => ?_
  refine hW.bind (hW.tx fun _ _ _ h => completeCheckpoint_rest h) fun _ => ?_
  refine hW.bind (hW.tx fun _ _ _ h => completeCheckpoint_rest h) fun _ => ?_
  exact hW.pure _

/-- The rule of a call: what the opening, the capture and every round keep
holds of everything the call leaves behind. -/
theorem process_safe (session : Session) (paperRunId : RunId) (child : Child)
    (orders : List LeanOrder) (db : Db) (htables : TablesOk session.id db)
    (hrow : db.sessions session.id = some session) (hstart : Safe db)
    (hgrows : ∀ t u, Safe t → (∃ rows, u.intents = t.intents ++ rows) → u.fills = t.fills →
      u.ledger = t.ledger → Safe u)
    (hopen : db.ledger.any (isOpeningCash session.id) = false →
      Safe (db.addOpening (openingRequest session db)))
    (hinit : ∀ captured t, CaptureDone session paperRunId child orders captured db t →
      TablesOk session.id t → Safe t → Inv captured t)
    (hsafe : ∀ items t, Inv items t → Safe t)
    (hround : ∀ cash item items t u, Inv (item :: items) t →
      Synced { session with cash := cash } t → Matches { session with cash := cash } item →
      getIntent t item.intent.id = some item.intent →
      Touches market { session with cash := cash } item t u → Advances item.intent.id t u →
      Safe u)
    (hnext : ∀ cash item items t u, Inv (item :: items) t →
      Synced { session with cash := cash } t → Matches { session with cash := cash } item →
      getIntent t item.intent.id = some item.intent →
      Touches market { session with cash := cash } item t u → Advances item.intent.id t u →
      currentState u item.intent.id ≠ some .intentCreated → Inv items u) :
    TxM.wp (fun t => Safe t ∧ TablesOk session.id t)
      (processV2LeanIntents market session paperRunId child orders)
      (fun _ t => Safe t ∧ TablesOk session.id t) db := by
  have hcheckpoints : ∀ t u, OnlyCheckpoints t u → Safe t ∧ TablesOk session.id t →
      Safe u ∧ TablesOk session.id u := by
    intro t u hrest ht
    refine ⟨hgrows t u ht.1 ⟨[], by rw [hrest, List.append_nil]⟩ (by rw [hrest]) (by rw [hrest]), ?_⟩
    exact ht.2.of_eq (by rw [hrest]) (by rw [hrest])
  have hopened : ∀ t, OpenedFrom session db t → Safe t ∧ TablesOk session.id t := by
    intro t ht
    refine ⟨?_, htables.of_eq (by rw [ht.rest]) (by rw [ht.rest])⟩
    obtain ⟨hledger | ⟨hmarker, hledger⟩, hrest⟩ := ht
    · exact hgrows db t hstart ⟨[], by rw [hrest, List.append_nil]⟩ (by rw [hrest]) hledger
    · exact hgrows _ t (hopen hmarker) ⟨[], by rw [hrest, List.append_nil]; rfl⟩ (by rw [hrest]; rfl) hledger
  unfold processV2LeanIntents
  -- The opening.
  refine TxM.wp_bind (TxM.wp_mono (openSession_spec hrow) hopened ?_)
  rintro (e | current) t ⟨hopen', hcurrent⟩
  · exact hopened t hopen'
  obtain ⟨cash, rfl, hsync⟩ := hcurrent current rfl
  obtain ⟨hsafeOpened, htablesOpened⟩ := hopened t hopen'
  -- The capture.
  have hcaptured : ∀ u, CapturesFrom { session with cash := cash } paperRunId child t u →
      Safe u ∧ TablesOk session.id u := by
    intro u hu
    obtain ⟨rows, hrows, -⟩ := hu.rows
    exact ⟨hgrows t u hsafeOpened ⟨rows, hrows⟩ (by rw [hu.rest]) (by rw [hu.rest]),
      hu.ok, hu.createdOk htablesOpened.created, hu.identified htablesOpened.identified⟩
  refine TxM.wp_bind (TxM.wp_mono (captureOrders_captures { session with cash := cash } paperRunId
    child orders htablesOpened.intents) hcaptured ?_)
  rintro (e | captured) u ⟨hcaptures, hitems⟩
  · exact hcaptured u hcaptures
  obtain ⟨hfirst, hitems⟩ := hitems captured rfl
  have hbefore := hcaptured u hcaptures
  have hsyncCaptured : Synced { session with cash := cash } u :=
    hsync.of_same (by rw [hcaptures.rest]) (by rw [hcaptures.rest]) (by rw [hcaptures.rest])
      (by rw [hcaptures.rest])
  -- The checkpoint, and the loop.
  refine TxM.wp_bind (TxM.wp_tx ?_ fun e _ => hbefore)
  intro row v hcheckpoint
  have hrest := completeCheckpoint_rest hcheckpoint
  obtain ⟨hsafeLoop, htablesLoop⟩ := hcheckpoints u v hrest hbefore
  have hdone : CaptureDone session paperRunId child orders captured db v := by
    obtain ⟨rows, hrows, -⟩ := hcaptures.rows
    refine ⟨htablesLoop.intents, ⟨rows, ?_⟩, ?_, ?_, ?_, ?_⟩
    · rw [hrest, hrows, hopen'.rest]
    · intro i hi
      rw [hrest, hcaptures.transitions i (by rw [hopen'.rest]; exact hi), hopen'.rest]
    · rw [hrest, hcaptures.rest, hopen'.rest]
    · rw [hopen'.rest] at hfirst
      exact hfirst
    · rw [hrest]
      exact hitems
  have hstored : ∀ item ∈ captured, Matches { session with cash := cash } item ∧
      getIntent v item.intent.id = some item.intent := by
    intro item hitem
    obtain ⟨hintent, hsame⟩ := hdone.captured.2 item hitem
    rw [hsame]
    exact matches_of_captured hdone.ok htablesLoop.identified hintent
  have hloop : TxM.wp (fun t => Safe t ∧ TablesOk session.id t)
      (TxM.forEach (processIntent market { session with cash := cash }) captured)
      (fun _ t => Safe t ∧ TablesOk session.id t) v := processLoop_safe
    (fun items t => Inv items t ∧ TablesOk session.id t)
    (fun items t ht => ⟨hsafe items t ht.1, ht.2⟩)
    (fun item items t u ht hsync hmatches hstored htouches hadvances =>
      ⟨hround cash item items t u ht.1 hsync hmatches hstored htouches hadvances,
        ht.2.of_advances hadvances⟩)
    (fun item items t u ht hsync hmatches hstored htouches hadvances hleft =>
      ⟨hnext cash item items t u ht.1 hsync hmatches hstored htouches hadvances hleft,
        ht.2.of_advances hadvances⟩)
    (fun items t ht => ht.2.created) captured v ⟨hinit captured v hdone htablesLoop hsafeLoop, htablesLoop⟩
    (hsyncCaptured.of_kept (completeCheckpoint_kept hcheckpoint)) hstored
  refine ⟨⟨hsafeLoop, htablesLoop⟩, TxM.wp_bind (TxM.wp_mono hloop (fun _ h => h) ?_)⟩
  rintro (e | processed) w hw
  · exact hw
  · refine TxM.wp_bind (TxM.wp_mono (completeProcessing_rest paperRunId processed w)
      (fun x hx => hcheckpoints w x hx hw) ?_)
    rintro (e | _) x hx
    · exact hcheckpoints w x hx hw
    · exact TxM.wp_pure (hcheckpoints w x hx hw)

end Safety

/-! ## Runs -/

/-- The arguments of one call of `_process_v2_lean_intents`. -/
structure ProcessCall where
  session : Session
  paperRunId : RunId
  child : Child
  orders : List LeanOrder

def ProcessCall.run (market : Market) (call : ProcessCall) : TxM Db PaperError ProcessedOrders :=
  processV2LeanIntents market call.session call.paperRunId call.child call.orders

/-- An order whose intent has not left `INTENT_CREATED`, if it is captured. -/
def Pending (db : Db) (call : ProcessCall) (order : LeanOrder) : Prop :=
  ∀ intent, capturedIntent call.session call.paperRunId call.child db order = some intent →
    currentState db intent.id = some .intentCreated

theorem CaptureDone.pending {call : ProcessCall} {captured : List Captured}
    (hdone : CaptureDone call.session call.paperRunId call.child call.orders captured db t)
    (hdb : IntentsOk db) {order : LeanOrder} {intent : Intent}
    (hintent : capturedIntent call.session call.paperRunId call.child t order = some intent)
    (hstate : currentState t intent.id = some .intentCreated) : Pending db call order := by
  intro before hbefore
  obtain ⟨rows, hrows⟩ := hdone.intents
  have hsame := capturedIntent_append hrows hbefore
  obtain rfl : intent = before := Option.some.inj (hintent.symm.trans hsame)
  obtain ⟨n, hn, hget⟩ :=
    List.mem_iff_getElem.mp (capturedIntent_mem hbefore).1
  have hid : intent.id = n := by
    rw [← hget]
    exact hdb.ids n hn
  rw [currentState, latestTransition, hid, hdone.transitions n hn] at hstate
  rw [currentState, latestTransition, hid]
  exact hstate

/-- What other code may do between two calls: anything but write intents, fills
or ledger entries, as long as the histories stay in order and no intent is taken
back to its first state. -/
structure Elsewhere (db t : Db) : Prop where
  intents : t.intents = db.intents
  fills : t.fills = db.fills
  ledger : t.ledger = db.ledger
  histories : HistoriesOk t
  created : ∀ i, currentState t i = some .intentCreated → t.transitions i = db.transitions i

theorem TablesOk.of_elsewhere {sessionId : SessionId} (h : TablesOk sessionId db)
    (hrest : Elsewhere db t) : TablesOk sessionId t :=
  h.of_same hrest.intents hrest.histories (h.created.of_same hrest.created)

/-- What a sequence of calls can reach.  A call can return, raise, or be left
after any of its commits. -/
inductive ProcessRun (market : Market) (Allowed : Db → ProcessCall → Prop) (start : Db) :
    Db → Prop where
  | start : ProcessRun market Allowed start start
  | call {db t : Db} (call : ProcessCall) (hdb : ProcessRun market Allowed start db)
      (hallowed : Allowed db call) (hleaves : TxM.Leaves (call.run market) db t) :
      ProcessRun market Allowed start t
  | elsewhere {db t : Db} (hdb : ProcessRun market Allowed start db) (hrest : Elsewhere db t) :
      ProcessRun market Allowed start t

theorem ProcessRun.single {market : Market} {Allowed : Db → ProcessCall → Prop} {start : Db}
    (call : ProcessCall) (hallowed : Allowed start call) :
    ProcessRun market Allowed start (call.run market start).state :=
  .call call .start hallowed (Or.inr rfl)

/-! ## A plain start -/

/-- A market in which every symbol trades at one price and nothing is blocked. -/
def flatMarket (price : ℚ) : Market where
  ashareBar := fun _ _ _ => some ⟨some price, some price, some 1000000⟩
  marketBar := fun _ _ _ _ _ => some ⟨some price, some price, some 1000000⟩
  qualityGate := fun _ _ => ⟨true, []⟩
  getSecurity := fun _ => some ⟨none, none⟩
  statusFor := fun _ _ => some ⟨false, false, none, none⟩
  securityIndustry := fun _ _ _ => none
  accountEquity := fun _ => none

/-- A database with one session and its opening positions. -/
def startDb (session : Session) (positions : List Position) : Db :=
  { Db.empty with
    sessions := fun id => if id = session.id then some session else none
    positions := fun id => if id = session.id then positions else [] }

theorem tablesOk_startDb (session : Session) (positions : List Position) :
    TablesOk session.id (startDb session positions) := by
  refine ⟨⟨?_, fun _ => historyOk_nil, ?_⟩, ?_, ?_⟩
  · intro n h
    exact absurd h (Nat.not_lt_zero n)
  · intro i h
    exact absurd rfl h
  · intro i hstate
    cases hstate
  · intro intent hintent
    cases hintent

/-- An opening position at ten a share. -/
def plainPosition (symbol : String) (quantity : ℚ) : Position where
  symbol := symbol
  quantity := quantity
  averagePrice := 10
  marketPrice := 10
  marketValue := quantity * 10
  lastBuyDate := none

def dayTrade : ProcessCall :=
  ⟨plainSession, "run", ⟨"child", none⟩, [plainBuy 1 10, plainSell 2 50]⟩

def dayTraded : Db := (dayTrade.run (flatMarket 10) (startDb plainSession [])).state

/-! ## The fills of a session -/

/-- No fill is recorded twice, and a fill is one of its whole intent. -/
structure FillsOk (db : Db) : Prop where
  once : (db.fills.map (fun fill => (fill.intentId, fill.externalFillKey))).Nodup
  whole : ∀ fill ∈ db.fills, ∃ intent, getIntent db fill.intentId = some intent ∧
    fill.quantity = intent.quantity ∧ fill.tradeDate = intent.tradeDate

theorem FillsOk.of_grown (h : FillsOk db) (hintents : ∃ rows, t.intents = db.intents ++ rows)
    (hfills : t.fills = db.fills) : FillsOk t := by
  obtain ⟨rows, hrows⟩ := hintents
  refine ⟨by rw [hfills]; exact h.once, fun fill hfill => ?_⟩
  rw [hfills] at hfill
  obtain ⟨intent, hintent, hsame⟩ := h.whole fill hfill
  refine ⟨intent, ?_, hsame⟩
  rw [getIntent, hrows, List.find?_append, ← getIntent, hintent, Option.some_or]

theorem FillsOk.touches {market : Market} {item : Captured} (h : FillsOk db)
    (hstored : getIntent db item.intent.id = some item.intent) (hintents : t.intents = db.intents)
    (htouches : Touches market session item db t) : FillsOk t := by
  rcases htouches with ⟨hfills, -⟩ | ⟨fill, context, currency, hstep, hfills, -⟩
  · exact h.of_grown ⟨[], by rw [hintents, List.append_nil]⟩ hfills
  · replace hfills : t.fills = db.fills ++ [fill] := hfills
    constructor
    · rw [hfills, List.map_append, List.nodup_append]
      refine ⟨h.once, List.nodup_singleton _, ?_⟩
      intro a ha b hb hab
      obtain ⟨old, hold, rfl⟩ := List.mem_map.mp ha
      obtain rfl := List.mem_singleton.mp hb
      have hmiss := List.find?_eq_none.mp hstep.fresh old hold
      rw [← hstep.intentId] at hmiss
      simp [(Prod.mk.inj hab).1, (Prod.mk.inj hab).2] at hmiss
    · intro row hrow
      rw [getIntent_congr hintents]
      rw [hfills] at hrow
      rcases List.mem_append.mp hrow with hold | hnew
      · exact h.whole row hold
      · rw [List.mem_singleton.mp hnew, hstep.intentId]
        exact ⟨item.intent, hstored, hstep.quantity, hstep.tradeDate⟩

/-- In every state that calls on a session can leave, the histories of the intents are legal and no
fill is recorded twice. -/
theorem tables_kept (market : Market) {sessionId : SessionId} {start db : Db}
    (htables : TablesOk sessionId start) (hfills : FillsOk start)
    (hrun : ProcessRun market (fun db call => call.session.id = sessionId ∧
      db.sessions sessionId = some call.session) start db) :
    TablesOk sessionId db ∧ FillsOk db := by
  induction hrun with
  | start => exact ⟨htables, hfills⟩
  | @call db t call _ hallowed hleaves ih =>
    obtain ⟨rfl, hrow⟩ := hallowed
    have hsafe := @process_safe market FillsOk (fun _ t => FillsOk t) call.session
      call.paperRunId call.child call.orders db ih.1 hrow ih.2
      (fun t u ht hrows hsame _ => ht.of_grown hrows hsame)
      (fun _ => ih.2.of_grown ⟨[], (List.append_nil _).symm⟩ rfl)
      (fun _ _ _ _ ht => ht) (fun _ _ ht => ht)
      (fun _ _ _ _ _ ht _ _ hstored htouches hadvances =>
        ht.touches hstored hadvances.intents htouches)
      (fun _ _ _ _ _ ht _ _ hstored htouches hadvances _ =>
        ht.touches hstored hadvances.intents htouches)
    exact (hleaves.of_wp (I := fun t => FillsOk t ∧ TablesOk call.session.id t) ih.symm hsafe).symm
  | elsewhere _ hrest ih =>
    exact ⟨ih.1.of_elsewhere hrest,
      ih.2.of_grown ⟨[], by rw [hrest.intents, List.append_nil]⟩ hrest.fills⟩

theorem tables_kept_dayTraded : TablesOk plainSession.id dayTraded ∧ FillsOk dayTraded :=
  tables_kept (flatMarket 10) (tablesOk_startDb plainSession []) ⟨List.nodup_nil, by simp [startDb, Db.empty]⟩
    (.single dayTrade ⟨rfl, by simp [startDb, dayTrade]⟩)

end LocalPlatform.Paper
