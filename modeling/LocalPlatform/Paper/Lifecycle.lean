import LocalPlatform.Lib.Path
import LocalPlatform.Lib.Transaction
import LocalPlatform.Paper.Schema

/-!
# The life cycle of an order intent

`append_transition` of `paper_order_pipeline.py` and the transition table it
enforces.  The function finds the latest row of the intent by its sequence
number, so the proofs need to know that the rows are numbered in the order
they were written.  `HistoriesOk` says that and a little more: the rows of
every intent are a path of `LEGAL_TRANSITIONS`, their keys are distinct, and
only stored intents have rows.

`appendTransition_cases` is what a successful call can do, and everything else
follows from it.
-/

namespace LocalPlatform.Paper

open Paths Transaction

/-- `LEGAL_TRANSITIONS` -/
def legalTransitions : Option OrderState → List OrderState
  | none => [.intentCreated]
  | some .intentCreated => [.validationPending, .failed]
  | some .validationPending => [.accepted, .rejected, .failed]
  | some .accepted => [.matching, .cancelled, .expired, .failed]
  | some .matching => [.partiallyFilled, .filled, .cancelled, .expired, .failed]
  | some .partiallyFilled => [.partiallyFilled, .filled, .cancelled, .expired, .failed]
  | some .filled => [.reconciliationPending]
  | some .rejected => [.reconciliationPending]
  | some .cancelled => [.reconciliationPending]
  | some .expired => [.reconciliationPending]
  | some .failed => [.reconciliationPending]
  | some .reconciliationPending => [.reconciled, .reconciliationFailed]
  | some .reconciled => []
  | some .reconciliationFailed => []

/-- `get_intent` -/
def getIntent (db : Db) (intentId : IntentId) : Option Intent :=
  db.intents.find? (fun intent => intent.id == intentId)

/-- The row of an intent with the greatest sequence number. -/
def latestTransition (db : Db) (intentId : IntentId) : Option Transition :=
  (db.transitions intentId).argmax Transition.sequence

/-- `current_state` -/
def currentState (db : Db) (intentId : IntentId) : Option OrderState :=
  (latestTransition db intentId).map Transition.toState

/-- Append a row to the transitions of an intent. -/
def Db.addTransition (db : Db) (intentId : IntentId) (row : Transition) : Db :=
  { db with
    transitions := Function.update db.transitions intentId (db.transitions intentId ++ [row]) }

/-- The row that a fresh call of `append_transition` writes. -/
def nextTransition (db : Db) (intent : Intent) (toState : OrderState)
    (eventType idempotencyKey : String) (payload : TransitionPayload) : Transition where
  sequence := ((latestTransition db intent.id).map Transition.sequence).getD 0 + 1
  fromState := currentState db intent.id
  toState := toState
  eventType := eventType
  idempotencyKey := idempotencyKey
  correlationId := intent.correlationId
  attempt := if intent.attempt = 0 then 1 else intent.attempt
  payload := payload

/-- `append_transition`.  A call with a used key returns the stored row; the
unique constraints of the table cannot fail after these checks. -/
def appendTransition (intentId : IntentId) (toState : String)
    (eventType idempotencyKey : String) (payload : TransitionPayload) (db : Db) :
    Except PaperError (Transition × Db) :=
  match OrderState.ofName? toState with
  | none => .error (.valueError s!"Unknown Paper order state: {toState}")
  | some state =>
    match getIntent db intentId with
    | none => .error (.keyError "Paper order intent not found.")
    | some intent =>
      match (db.transitions intentId).find? (fun row => row.idempotencyKey == idempotencyKey) with
      | some existing =>
        if existing.toState = state then .ok (existing, db)
        else .error (.valueError "Transition idempotency key was reused for a different state.")
      | none =>
        if state ∈ legalTransitions (currentState db intentId) then
          let row := nextTransition db intent state eventType idempotencyKey payload
          .ok (row, db.addTransition intentId row)
        else
          let fromName := ((currentState db intentId).map OrderState.name).getD "null"
          .error (.valueError s!"Illegal Paper order transition: {fromName} -> {toState}")

/-! ## What a call can do -/

variable {state : OrderState}

theorem OrderState.ofName?_eq {name : String} (h : OrderState.ofName? name = some state) :
    name = state.name := by
  have hfound := List.find?_some h
  exact (beq_iff_eq.mp hfound).symm

variable {db : Db} {intentId : IntentId} {intent : Intent}

theorem getIntent_id (h : getIntent db intentId = some intent) : intent.id = intentId := by
  simpa using List.find?_some h

variable {payload : TransitionPayload} {row : Transition}

theorem appendTransition_cases {toState eventType key : String} {db' : Db}
    (h : appendTransition intentId toState eventType key payload db = .ok (row, db')) :
    ∃ state intent, OrderState.ofName? toState = some state ∧
      getIntent db intentId = some intent ∧ row.toState = state ∧ row.idempotencyKey = key ∧
      (row ∈ db.transitions intentId ∧ db' = db ∨
        (∀ r ∈ db.transitions intentId, r.idempotencyKey ≠ key) ∧
          state ∈ legalTransitions (currentState db intentId) ∧
          row = nextTransition db intent state eventType key payload ∧
          db' = db.addTransition intentId row) := by
  unfold appendTransition at h
  split at h
  · cases h
  rename_i state hstate
  split at h
  · cases h
  rename_i intent hintent
  refine ⟨state, intent, hstate, hintent, ?_⟩
  split at h
  · rename_i existing hfind
    split at h
    · rename_i hsame
      simp only [Except.ok.injEq, Prod.mk.injEq] at h
      obtain ⟨rfl, rfl⟩ := h
      have hkey : existing.idempotencyKey = key := by simpa using List.find?_some hfind
      exact ⟨hsame, hkey, Or.inl ⟨List.mem_of_find?_eq_some hfind, rfl⟩⟩
    · cases h
  · rename_i hfind
    have hfresh : ∀ r ∈ db.transitions intentId, r.idempotencyKey ≠ key := by
      intro r hr hkey
      have := (List.find?_eq_none.mp hfind) r hr
      simp [hkey] at this
    split at h
    · rename_i hlegal
      simp only [Except.ok.injEq, Prod.mk.injEq] at h
      obtain ⟨rfl, rfl⟩ := h
      exact ⟨rfl, rfl, Or.inr ⟨hfresh, hlegal, rfl, rfl⟩⟩
    · cases h

theorem appendTransition_fresh {eventType key : String}
    (hintent : getIntent db intentId = some intent)
    (hfresh : ∀ r ∈ db.transitions intentId, r.idempotencyKey ≠ key)
    (hlegal : state ∈ legalTransitions (currentState db intentId)) :
    appendTransition intentId state.name eventType key payload db =
      .ok (nextTransition db intent state eventType key payload,
        db.addTransition intentId (nextTransition db intent state eventType key payload)) := by
  have hfind : (db.transitions intentId).find? (fun row => row.idempotencyKey == key) = none := by
    rw [List.find?_eq_none]
    intro r hr
    simpa using hfresh r hr
  simp only [appendTransition, OrderState.ofName?_name, hintent, hfind, if_pos hlegal]

@[simp] theorem addTransition_same (db : Db) (intentId : IntentId) (row : Transition) :
    (db.addTransition intentId row).transitions intentId = db.transitions intentId ++ [row] := by
  simp [Db.addTransition]

variable {i : IntentId}

theorem addTransition_other (db : Db) (row : Transition) (h : i ≠ intentId) :
    (db.addTransition intentId row).transitions i = db.transitions i := by
  simp [Db.addTransition, Function.update_of_ne h]

theorem currentState_addNext (db : Db) (intent : Intent) (state : OrderState)
    (eventType key : String) (payload : TransitionPayload) :
    currentState (db.addTransition intent.id
      (nextTransition db intent state eventType key payload)) intent.id = some state := by
  rw [currentState, latestTransition, addTransition_same, List.argmax_concat]
  cases hlatest : (db.transitions intent.id).argmax Transition.sequence with
  | none => rfl
  | some last =>
    have hlater : last.sequence <
        (nextTransition db intent state eventType key payload).sequence := by
      simp [nextTransition, latestTransition, hlatest]
    show Option.map Transition.toState (if _ < _ then _ else _) = _
    rw [if_pos hlater]
    rfl

/-! ## Histories -/

/-- A row as a step of the transition relation. -/
def Transition.step (row : Transition) : Step OrderState where
  sequence := row.sequence
  source := row.fromState
  target := row.toState

/-- The rows are a path of `LEGAL_TRANSITIONS` and their keys are distinct. -/
structure HistoryOk (rows : List Transition) : Prop where
  path : Path (fun source target => target ∈ legalTransitions source) (rows.map Transition.step)
  keys : (rows.map Transition.idempotencyKey).Nodup

/-- Every intent has a history, and only a stored intent has rows. -/
structure HistoriesOk (db : Db) : Prop where
  history : ∀ i, HistoryOk (db.transitions i)
  stored : ∀ i, db.transitions i ≠ [] → (getIntent db i).isSome

theorem historyOk_nil : HistoryOk [] := ⟨Path.nil, List.nodup_nil⟩

theorem latestTransition_eq (h : HistoryOk (db.transitions i)) :
    latestTransition db i = (db.transitions i).getLast? := by
  apply argmax_eq_getLast?
  have hpath := h.path.pairwise_sequence
  rw [List.pairwise_map] at hpath
  exact hpath

theorem currentState_eq (h : HistoryOk (db.transitions i)) :
    currentState db i = (db.transitions i).getLast?.map Transition.toState := by
  rw [currentState, latestTransition_eq h]

theorem HistoryOk.snoc {eventType key : String} (h : HistoryOk (db.transitions intent.id))
    (hfresh : ∀ r ∈ db.transitions intent.id, r.idempotencyKey ≠ key)
    (hlegal : state ∈ legalTransitions (currentState db intent.id)) :
    HistoryOk (db.transitions intent.id ++
      [nextTransition db intent state eventType key payload]) := by
  constructor
  · rw [List.map_append, List.map_singleton]
    refine Path.snoc h.path ?_ ?_ hlegal
    · simp only [Transition.step, nextTransition, latestTransition_eq h, List.length_map]
      cases hlast : (db.transitions intent.id).getLast? with
      | none =>
        rw [List.getLast?_eq_none_iff] at hlast
        simp [hlast]
      | some last =>
        have hindex : (db.transitions intent.id).length - 1 < (db.transitions intent.id).length := by
          have := List.length_pos_of_mem (List.mem_of_getLast? hlast)
          omega
        rw [List.getLast?_eq_getElem?, List.getElem?_eq_getElem hindex] at hlast
        have hnumber := h.path.sequence_getElem (n := (db.transitions intent.id).length - 1)
          (by simpa using hindex)
        simp only [List.getElem_map, Transition.step, Option.some.inj hlast] at hnumber
        simp only [Option.map_some, Option.getD_some]
        omega
    · rw [List.getLast?_map, Option.map_map]
      simp only [Transition.step, nextTransition, currentState_eq h]
      rfl
  · rw [List.map_append, List.nodup_append]
    refine ⟨h.keys, by simp, ?_⟩
    intro a ha b hb hab
    obtain ⟨r, hr, rfl⟩ := List.mem_map.mp ha
    simp only [List.map_singleton, List.mem_singleton, nextTransition] at hb
    exact hfresh r hr (hab.trans hb)

theorem appendTransition_historiesOk {toState eventType key : String} {db' : Db}
    (hdb : HistoriesOk db)
    (h : appendTransition intentId toState eventType key payload db = .ok (row, db')) :
    HistoriesOk db' := by
  obtain ⟨state, intent, -, hintent, -, -, hcase⟩ := appendTransition_cases h
  rcases hcase with ⟨-, rfl⟩ | ⟨hfresh, hlegal, rfl, rfl⟩
  · exact hdb
  have hid := getIntent_id hintent
  subst hid
  constructor
  · intro i
    by_cases hi : i = intent.id
    · subst hi
      rw [addTransition_same]
      exact (hdb.history intent.id).snoc hfresh hlegal
    · rw [addTransition_other db _ hi]
      exact hdb.history i
  · intro i hrows
    by_cases hi : i = intent.id
    · subst hi
      change (getIntent db intent.id).isSome
      simp [hintent]
    · rw [addTransition_other db _ hi] at hrows
      exact hdb.stored i hrows

theorem appendTransition_replay (hdb : HistoriesOk db) (hrow : row ∈ db.transitions intentId)
    (eventType : String) (payload : TransitionPayload) :
    appendTransition intentId row.toState.name eventType row.idempotencyKey payload db =
      .ok (row, db) := by
  have hstored := hdb.stored intentId (List.ne_nil_of_mem hrow)
  obtain ⟨intent, hintent⟩ := Option.isSome_iff_exists.mp hstored
  have hfind : (db.transitions intentId).find?
      (fun r => r.idempotencyKey == row.idempotencyKey) = some row := by
    cases hcase : (db.transitions intentId).find?
        (fun r => r.idempotencyKey == row.idempotencyKey) with
    | none =>
      have := (List.find?_eq_none.mp hcase) row hrow
      simp at this
    | some found =>
      have hkey : found.idempotencyKey = row.idempotencyKey := by
        simpa using List.find?_some hcase
      have hmem := List.mem_of_find?_eq_some hcase
      rw [List.inj_on_of_nodup_map (hdb.history intentId).keys hmem hrow hkey]
  simp only [appendTransition, OrderState.ofName?_name, hintent, hfind, if_pos]

/-! ## Sequences of calls -/

/-- The arguments of one call of `append_transition`. -/
structure TransitionCall where
  intentId : IntentId
  toState : String
  eventType : String
  idempotencyKey : String
  payload : TransitionPayload

def TransitionCall.run (call : TransitionCall) (db : Db) : Except PaperError (Transition × Db) :=
  appendTransition call.intentId call.toState call.eventType call.idempotencyKey call.payload db

/-- The database after a sequence of calls, each committed or rolled back. -/
def runTransitions (calls : List TransitionCall) (db : Db) : Db :=
  calls.foldl (fun db call => settle call.run db) db

theorem runTransitions_historiesOk (calls : List TransitionCall) (hdb : HistoriesOk db) :
    HistoriesOk (runTransitions calls db) := by
  refine settle_invariant TransitionCall.run ?_ calls db hdb
  intro call s row t hs h
  exact appendTransition_historiesOk hs h

/-- The transitions of an intent form a single path from its capture to its
reconciliation. -/
structure LifecycleLog (rows : List Transition) : Prop where
  numbered : ∀ n (h : n < rows.length), rows[n].sequence = n + 1
  first : ∀ h : 0 < rows.length,
    rows[0].fromState = none ∧ rows[0].toState = .intentCreated
  linked : ∀ n (h : n + 1 < rows.length), rows[n + 1].fromState = some rows[n].toState
  legal : ∀ row ∈ rows, row.toState ∈ legalTransitions row.fromState
  notBoth : ¬ ((∃ row ∈ rows, row.toState = .rejected) ∧ ∃ row ∈ rows, row.toState = .filled)
  reconciledLast : ∀ n (h : n < rows.length),
    rows[n].toState = .reconciled ∨ rows[n].toState = .reconciliationFailed →
      n + 1 = rows.length

/-- The states from which an order can no longer be filled or rejected. -/
def Settling (state : OrderState) : Prop :=
  state = .reconciliationPending ∨ state = .reconciled ∨ state = .reconciliationFailed

theorem settling_closed (a b : OrderState) (ha : Settling a)
    (h : b ∈ legalTransitions (some a)) : Settling b := by
  rcases ha with rfl | rfl | rfl <;> simp [legalTransitions] at h
  rcases h with rfl | rfl
  · exact Or.inr (Or.inl rfl)
  · exact Or.inr (Or.inr rfl)

theorem HistoryOk.settling_after {rows : List Transition} (h : HistoryOk rows) {i j : Nat}
    (hij : i < j) (hi : i < rows.length) (hj : j < rows.length)
    (hnext : ∀ b ∈ legalTransitions (some rows[i].toState), Settling b) :
    Settling rows[j].toState := by
  have hafter : i + 1 < (rows.map Transition.step).length := by
    simp only [List.length_map]
    omega
  have hlen : j < (rows.map Transition.step).length := by simpa using hj
  have hmove := h.path.legal_of_mem (List.getElem_mem hafter)
  rw [h.path.source_succ hafter] at hmove
  have hfirst : Settling (rows.map Transition.step)[i + 1].target := by
    apply hnext
    simpa [Transition.step] using hmove
  have := h.path.closed settling_closed (by omega : i + 1 ≤ j) hafter hlen hfirst
  simpa [Transition.step] using this

theorem HistoryOk.lifecycleLog {rows : List Transition} (h : HistoryOk rows) :
    LifecycleLog rows := by
  have hlegal : ∀ row ∈ rows, row.toState ∈ legalTransitions row.fromState := by
    intro row hrow
    exact h.path.legal_of_mem (List.mem_map_of_mem (f := Transition.step) hrow)
  have hfirst : ∀ hpos : 0 < rows.length, rows[0].fromState = none := by
    intro hpos
    have hsource := h.path.source_zero (by simpa using hpos)
    simp only [List.getElem_map, Transition.step] at hsource
    exact hsource
  refine ⟨?_, ?_, ?_, hlegal, ?_, ?_⟩
  · intro n hn
    have hnumber := h.path.sequence_getElem (n := n) (by simpa using hn)
    simp only [List.getElem_map, Transition.step] at hnumber
    exact hnumber
  · intro hpos
    have hcreated := hlegal rows[0] (List.getElem_mem hpos)
    rw [hfirst hpos] at hcreated
    exact ⟨hfirst hpos, by simpa [legalTransitions] using hcreated⟩
  · intro n hn
    have hsource := h.path.source_succ (n := n) (by simpa using hn)
    simp only [List.getElem_map, Transition.step] at hsource
    exact hsource
  · rintro ⟨⟨r, hr, hrejected⟩, r', hr', hfilled⟩
    obtain ⟨i, hi, rfl⟩ := List.mem_iff_getElem.mp hr
    obtain ⟨j, hj, rfl⟩ := List.mem_iff_getElem.mp hr'
    -- Whichever of the two comes first is followed by settlement only.
    rcases Nat.lt_trichotomy i j with hlt | heq | hgt
    · have := h.settling_after hlt hi hj (by simp [hrejected, legalTransitions, Settling])
      simp [hfilled, Settling] at this
    · subst heq
      rw [hrejected] at hfilled
      cases hfilled
    · have := h.settling_after hgt hj hi (by simp [hfilled, legalTransitions, Settling])
      simp [hrejected, Settling] at this
  · intro n hn hstate
    have hterminal : ∀ b, b ∉ legalTransitions (some rows[n].toState) := by
      intro b
      rcases hstate with hstate | hstate <;> simp [hstate, legalTransitions]
    have := h.path.eq_last_of_terminal hterminal (i := n) (by simpa using hn)
      (by simp [Transition.step])
    simpa using this

/-- After any sequence of calls on any intents, every intent's transitions are
one life-cycle path.  From there a call that raises changes nothing, and a
call with a used key and its state returns the stored row. -/
theorem append_transition_keeps_lifecycle (db : Db) (calls : List TransitionCall) :
    let final := runTransitions calls { db with transitions := fun _ => [] }
    (∀ i, LifecycleLog (final.transitions i)) ∧
      (∀ (call : TransitionCall) (e : PaperError), call.run final = .error e →
        (runTransitions [call] final).transitions = final.transitions) ∧
      (∀ (call : TransitionCall) (row : Transition),
        row ∈ final.transitions call.intentId → row.idempotencyKey = call.idempotencyKey →
        row.toState.name = call.toState →
          call.run final = .ok (row, final) ∧ runTransitions [call] final = final) := by
  intro final
  have hstart : HistoriesOk { db with transitions := fun _ => [] } :=
    ⟨fun _ => historyOk_nil, fun _ h => absurd rfl h⟩
  have hfinal : HistoriesOk final := runTransitions_historiesOk calls hstart
  refine ⟨fun i => (hfinal.history i).lifecycleLog, ?_, ?_⟩
  · intro call e h
    simp only [runTransitions, List.foldl_cons, List.foldl_nil, settle_error h]
  · intro call row hrow hkey hstate
    have hreplay : call.run final = .ok (row, final) := by
      rw [TransitionCall.run, ← hstate, ← hkey]
      exact appendTransition_replay hfinal hrow _ _
    exact ⟨hreplay, settle_ok hreplay⟩

end LocalPlatform.Paper
