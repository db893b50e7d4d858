import LocalPlatform.Paper.Ledger

/-!
# Conservation in the Paper ledger

Whatever sequence of fills and transitions follows an opening, the ledger
holds the opening and the recorded fills, and nothing else.  `LedgerInv` says
so for each way of reading the ledger.

* The cash of the session is the opening cash and the cash effects of its
  fills.
* The moves of a symbol are its opening quantities and the signed quantities
  of its fills.
* The entries of a fill debit and credit the clearing account by the same
  amount.
* Every entry of an account generation that had none before the opening is
  numbered, without gap or repeat.

One recorded fill keeps each of these (`LedgerInv.addFill`), and a run of
operations keeps them all (`runLedger_inv`).
-/

namespace LocalPlatform.Paper

open CostBasis Transaction

/-! ## Reading fills and openings -/

/-- The signed quantity of a fill: a buy adds, everything else takes. -/
def Fill.signedQuantity (intent : Intent) (fill : Fill) : ℚ :=
  if intent.side = "buy" then fill.quantity else -fill.quantity

def Fill.cashEffect (intent : Intent) (fill : Fill) : ℚ :=
  (if intent.side = "buy" then -(fill.quantity * fill.price) else fill.quantity * fill.price) -
    fill.fee - fill.tax - fill.slippage

/-- The recorded fills of a session with their intents, in order. -/
def sessionFills (db : Db) (sessionId : SessionId) : List (Intent × Fill) :=
  db.fills.filterMap (fun fill => (getIntent db fill.intentId).bind (fun intent =>
    if intent.sessionId = sessionId then some (intent, fill) else none))

/-- The signed quantities of the fills of a symbol. -/
def symbolFills (db : Db) (sessionId : SessionId) (symbol : String) : List ℚ :=
  ((sessionFills db sessionId).filter (fun p => p.1.symbol = symbol)).map
    (fun p => p.2.signedQuantity p.1)

def OpeningRequest.quantities (request : OpeningRequest) (symbol : String) : List ℚ :=
  (request.positions.filter (fun position => position.quantity ≠ 0 ∧
    upper position.symbol = symbol)).map Position.quantity

/-- The quantities that the ledger of a session moves of a symbol. -/
def symbolQuantities (sessionId : SessionId) (symbol : String) (ledger : List LedgerEntry) :
    List ℚ :=
  ledger.filterMap (fun entry =>
    if entry.sessionId = sessionId ∧ entry.asset = .equity ∧ entry.symbol = some symbol
    then some entry.quantity else none)

/-- What the entries of a fill debit an account. -/
def fillDebits (account : LedgerAccount) (fillId : FillId) (ledger : List LedgerEntry) : ℚ :=
  (ledger.map (fun entry =>
    if entry.fillId = some fillId ∧ entry.debitAccount = some account then |entry.amount|
    else 0)).sum

/-- What the entries of a fill credit an account. -/
def fillCredits (account : LedgerAccount) (fillId : FillId) (ledger : List LedgerEntry) : ℚ :=
  (ledger.map (fun entry =>
    if entry.fillId = some fillId ∧ entry.creditAccount = some account then |entry.amount|
    else 0)).sum

/-- The number before the first one of an account generation. -/
def OpeningRequest.base (request : OpeningRequest) (account : String) (generation : Nat) : Nat :=
  if request.paperAccountId = some account ∧ request.accountGeneration = some generation
  then request.ledgerSequence else 0

/-! ## The entries of one fill and of an opening -/

theorem sessionCash_append (sessionId : SessionId) (ledger entries : List LedgerEntry) :
    sessionCash sessionId (ledger ++ entries) =
      sessionCash sessionId ledger + sessionCash sessionId entries := by
  simp [sessionCash]

theorem sessionCash_numbered (sessionId : SessionId) (tagged : Bool) (sequence : Nat)
    (entries : List LedgerEntry) :
    sessionCash sessionId (numbered tagged sequence entries) = sessionCash sessionId entries := by
  rw [sessionCash, sessionCash, numbered_map _ (fun _ _ => rfl)]

theorem symbolQuantities_numbered (sessionId : SessionId) (symbol : String) (tagged : Bool)
    (sequence : Nat) (entries : List LedgerEntry) :
    symbolQuantities sessionId symbol (numbered tagged sequence entries) =
      symbolQuantities sessionId symbol entries := by
  have hmap := numbered_map (fun entry =>
    if entry.sessionId = sessionId ∧ entry.asset = .equity ∧ entry.symbol = some symbol
    then some entry.quantity else none) (fun _ _ => rfl) tagged entries sequence
  have hread := congrArg (List.filterMap id) hmap
  rw [List.filterMap_map, List.filterMap_map] at hread
  exact hread

theorem fillDebits_numbered (account : LedgerAccount) (fillId : FillId) (tagged : Bool)
    (sequence : Nat) (entries : List LedgerEntry) :
    fillDebits account fillId (numbered tagged sequence entries) =
      fillDebits account fillId entries := by
  rw [fillDebits, fillDebits, numbered_map _ (fun _ _ => rfl)]

theorem fillCredits_numbered (account : LedgerAccount) (fillId : FillId) (tagged : Bool)
    (sequence : Nat) (entries : List LedgerEntry) :
    fillCredits account fillId (numbered tagged sequence entries) =
      fillCredits account fillId entries := by
  rw [fillCredits, fillCredits, numbered_map _ (fun _ _ => rfl)]

theorem sessionCash_fillEntries (sessionId : SessionId) (intent : Intent) (fill : Fill)
    (context : AccountContext) (currency : String) :
    sessionCash sessionId (fillEntries intent fill context currency) =
      if intent.sessionId = sessionId then fill.cashEffect intent else 0 := by
  by_cases hsession : intent.sessionId = sessionId
  · by_cases hbuy : intent.side = "buy" <;> by_cases htax : fill.tax = 0 <;>
      by_cases hslippage : fill.slippage = 0 <;>
      simp [sessionCash, fillEntries, fillEntry, Fill.cashEffect, hsession, hbuy, htax,
        hslippage] <;> ring
  · by_cases hbuy : intent.side = "buy" <;> by_cases htax : fill.tax = 0 <;>
      by_cases hslippage : fill.slippage = 0 <;>
      simp [sessionCash, fillEntries, fillEntry, hsession, hbuy, htax, hslippage]

theorem symbolQuantities_fillEntries (sessionId : SessionId) (symbol : String) (intent : Intent)
    (fill : Fill) (context : AccountContext) (currency : String) :
    symbolQuantities sessionId symbol (fillEntries intent fill context currency) =
      if intent.sessionId = sessionId ∧ intent.symbol = symbol
      then [fill.signedQuantity intent] else [] := by
  by_cases hsession : intent.sessionId = sessionId <;> by_cases hsymbol : intent.symbol = symbol <;>
    by_cases hbuy : intent.side = "buy" <;> by_cases htax : fill.tax = 0 <;>
      by_cases hslippage : fill.slippage = 0 <;>
      simp [symbolQuantities, fillEntries, fillEntry, Fill.signedQuantity, hsession, hsymbol,
        hbuy, htax, hslippage]

theorem fillEntries_clear (intent : Intent) (fill : Fill) (context : AccountContext)
    (currency : String) :
    fillDebits .tradeClearing fill.id (fillEntries intent fill context currency) =
      fillCredits .tradeClearing fill.id (fillEntries intent fill context currency) := by
  by_cases hbuy : intent.side = "buy" <;> by_cases htax : fill.tax = 0 <;>
    by_cases hslippage : fill.slippage = 0 <;>
    simp [fillDebits, fillCredits, fillEntries, fillEntry, hbuy, htax, hslippage]

/-! ## Sequence numbers -/

/-- The entries of an account generation. -/
def accountEntries (account : String) (generation : Nat) (ledger : List LedgerEntry) :
    List LedgerEntry :=
  ledger.filter (fun entry =>
    entry.paperAccountId = some account ∧ entry.accountGeneration = some generation)

/-- Every entry of an account generation is numbered, from the number after `base` on. -/
def NumberedFrom (base : Nat) (account : String) (generation : Nat) (ledger : List LedgerEntry) :
    Prop :=
  (accountEntries account generation ledger).map LedgerEntry.ledgerSequence =
    (List.range' (base + 1) (accountEntries account generation ledger).length).map some

variable {generation : Nat} {account : String} {ledger : List LedgerEntry}

theorem NumberedFrom.sequences {base : Nat} (h : NumberedFrom base account generation ledger) :
    accountSequences (some account) (some generation) ledger =
      List.range' (base + 1) (accountEntries account generation ledger).length := by
  have hread : accountSequences (some account) (some generation) ledger =
      ((accountEntries account generation ledger).map LedgerEntry.ledgerSequence).filterMap id := by
    rw [accountSequences, accountEntries, List.filterMap_map, List.filterMap_filter]
    simp
  rw [hread, h, List.filterMap_map]
  exact List.filterMap_some

variable {entries : List LedgerEntry}

theorem NumberedFrom.append {base : Nat} (h : NumberedFrom base account generation ledger)
    (hentries : NumberedFrom (base + (accountEntries account generation ledger).length) account
      generation entries) : NumberedFrom base account generation (ledger ++ entries) := by
  unfold NumberedFrom accountEntries at h hentries ⊢
  rw [List.filter_append, List.map_append, h, hentries, ← List.map_append, List.length_append,
    Nat.add_right_comm, List.range'_append_1]

theorem numberedFrom_numbered (entries : List LedgerEntry) (h : ∀ entry ∈ entries,
      entry.paperAccountId = some account ∧ entry.accountGeneration = some generation) :
    ∀ base, NumberedFrom base account generation (numbered true base entries) ∧
      (accountEntries account generation (numbered true base entries)).length =
        entries.length := by
  induction entries with
  | nil => exact fun base => ⟨rfl, rfl⟩
  | cons entry entries ih =>
    intro base
    obtain ⟨hentry, hrest⟩ := List.forall_mem_cons.mp h
    obtain ⟨htail, hlength⟩ := ih hrest (base + 1)
    unfold NumberedFrom at htail ⊢
    unfold accountEntries at htail hlength ⊢
    rw [numbered_cons, List.filter_cons_of_pos (by simpa [LedgerEntry.withSequence] using hentry),
      List.map_cons, htail, List.length_cons, hlength, List.range'_succ]
    exact ⟨rfl, rfl⟩

theorem accountEntries_other (h : ∀ entry ∈ entries,
      ¬ (entry.paperAccountId = some account ∧ entry.accountGeneration = some generation))
    (tagged : Bool) (base : Nat) :
    accountEntries account generation (numbered tagged base entries) = [] := by
  refine List.filter_eq_nil_iff.mpr (fun entry hentry hsame => ?_)
  obtain ⟨plain, hplain, n, rfl⟩ := mem_numbered hentry
  exact h plain hplain (of_decide_eq_true hsame)

theorem NumberedFrom.of_nil {base : Nat} (h : accountEntries account generation ledger = []) :
    NumberedFrom base account generation ledger := by
  unfold NumberedFrom
  rw [h]
  rfl

theorem foldl_max_range' (start n : Nat) (hn : 0 < n) :
    (List.range' (start + 1) n).foldl max 0 = start + n := by
  induction n with
  | zero => omega
  | succ n ih =>
    rw [List.range'_concat, List.foldl_append, List.foldl_cons, List.foldl_nil]
    rcases Nat.eq_zero_or_pos n with hzero | hpos
    · subst hzero
      simp
    · rw [ih hpos]
      omega

/-! ## The invariant -/

/-- A session without entries and fills, among the rows of other sessions.  Fills are distinct by
intent and external key, and an entry names a stored fill. -/
structure Unopened (sessionId : SessionId) (db : Db) : Prop where
  entries : ∀ entry ∈ db.ledger, entry.sessionId ≠ sessionId
  fills : sessionFills db sessionId = []
  distinct : db.fills.Pairwise (fun f g =>
    ¬ (f.intentId = g.intentId ∧ f.externalFillKey = g.externalFillKey))
  fillIds : ∀ fill ∈ db.fills, fill.id < db.fills.length
  owned : ∀ entry ∈ db.ledger, ∀ id, entry.fillId = some id → id < db.fills.length

/-- The ledger after an opening: of the session it holds the opening and the recorded fills. -/
structure LedgerInv (request : OpeningRequest) (before : List LedgerEntry) (db : Db) : Prop where
  cash : sessionCash request.sessionId db.ledger = request.cash +
    ((sessionFills db request.sessionId).map (fun p => p.2.cashEffect p.1)).sum
  quantities : ∀ symbol, symbolQuantities request.sessionId symbol db.ledger =
    request.quantities symbol ++ symbolFills db request.sessionId symbol
  distinct : db.fills.Pairwise (fun f g =>
    ¬ (f.intentId = g.intentId ∧ f.externalFillKey = g.externalFillKey))
  fillIds : ∀ fill ∈ db.fills, fill.id < db.fills.length
  owned : ∀ entry ∈ db.ledger, ∀ id, entry.fillId = some id → id < db.fills.length
  clearing : ∀ p ∈ sessionFills db request.sessionId,
    fillDebits .tradeClearing p.2.id db.ledger = fillCredits .tradeClearing p.2.id db.ledger
  sequences : ∀ account generation, account ≠ "" → accountEntries account generation before = [] →
    NumberedFrom (request.base account generation) account generation db.ledger ∧
      (accountEntries account generation db.ledger = [] → request.base account generation = 0)

theorem mem_fills_of_session {db : Db} {sessionId : SessionId} {p : Intent × Fill}
    (h : p ∈ sessionFills db sessionId) : p.2 ∈ db.fills := by
  obtain ⟨fill, hfill, hread⟩ := List.mem_filterMap.mp h
  obtain ⟨intent, -, hif⟩ := Option.bind_eq_some_iff.mp hread
  split_ifs at hif
  rw [← Option.some.inj hif]
  exact hfill

theorem fill_eq_zero (account : LedgerAccount) {fillId : FillId}
    (h : ∀ entry ∈ entries, entry.fillId ≠ some fillId) :
    fillDebits account fillId entries = 0 ∧ fillCredits account fillId entries = 0 := by
  constructor
  all_goals
    refine List.sum_eq_zero (fun x hx => ?_)
    obtain ⟨entry, hentry, rfl⟩ := List.mem_map.mp hx
    rw [if_neg (fun hboth => h entry hentry hboth.1)]

theorem fillDebits_append (account : LedgerAccount) (fillId : FillId)
    (ledger entries : List LedgerEntry) :
    fillDebits account fillId (ledger ++ entries) =
      fillDebits account fillId ledger + fillDebits account fillId entries := by
  simp [fillDebits]

theorem fillCredits_append (account : LedgerAccount) (fillId : FillId)
    (ledger entries : List LedgerEntry) :
    fillCredits account fillId (ledger ++ entries) =
      fillCredits account fillId ledger + fillCredits account fillId entries := by
  simp [fillCredits]

theorem ledgerInv_opening {db : Db} {request : OpeningRequest} (h : Unopened request.sessionId db) :
    LedgerInv request db.ledger (db.addOpening request) := by
  have hcolumns : ∀ entry ∈ request.entries, entry.paperAccountId = request.paperAccountId ∧
      entry.accountGeneration = request.accountGeneration ∧ entry.fillId = none := by
    intro entry hentry
    rcases List.mem_cons.mp hentry with rfl | hentry
    · exact ⟨rfl, rfl, rfl⟩
    · obtain ⟨position, -, rfl⟩ := List.mem_map.mp hentry
      exact ⟨rfl, rfl, rfl⟩
  have hsession : sessionFills (db.addOpening request) request.sessionId = [] := h.fills
  constructor
  · show sessionCash request.sessionId (db.ledger ++ numbered _ _ request.entries) = _
    have hbefore : sessionCash request.sessionId db.ledger = 0 := by
      refine List.sum_eq_zero (fun x hx => ?_)
      obtain ⟨entry, hentry, rfl⟩ := List.mem_map.mp hx
      exact if_neg (fun hboth => h.entries entry hentry hboth.1)
    have hpositions : sessionCash request.sessionId ((request.positions.filter
        (fun position => position.quantity ≠ 0)).map request.positionEntry) = 0 := by
      apply List.sum_eq_zero
      intro x hx
      rw [List.map_map] at hx
      obtain ⟨position, -, rfl⟩ := List.mem_map.mp hx
      simp [OpeningRequest.positionEntry]
    rw [sessionCash_append, sessionCash_numbered, hbefore, hsession, OpeningRequest.entries,
      ← List.singleton_append, sessionCash_append, hpositions]
    simp [sessionCash, OpeningRequest.cashEntry]
  · intro symbol
    have hbefore : symbolQuantities request.sessionId symbol db.ledger = [] := by
      refine List.filterMap_eq_nil_iff.mpr (fun entry hentry => ?_)
      exact if_neg (fun hboth => h.entries entry hentry hboth.1)
    show symbolQuantities request.sessionId symbol (db.ledger ++ numbered _ _ request.entries) = _
    rw [symbolQuantities, List.filterMap_append, ← symbolQuantities, ← symbolQuantities, hbefore,
      List.nil_append, symbolQuantities_numbered, OpeningRequest.entries, symbolQuantities,
      List.filterMap_cons_none (by simp [OpeningRequest.cashEntry]), List.filterMap_map,
      symbolFills, hsession]
    simp only [List.filter_nil, List.map_nil, List.append_nil, OpeningRequest.quantities]
    rw [← List.filterMap_eq_map, ← List.filterMap_eq_filter, ← List.filterMap_eq_filter,
      List.filterMap_filterMap, List.filterMap_filterMap]
    apply List.filterMap_congr
    intro position _
    by_cases hzero : position.quantity = 0 <;> by_cases hsymbol : upper position.symbol = symbol <;>
      simp [Option.guard, OpeningRequest.positionEntry, hzero, hsymbol]
  · exact h.distinct
  · exact h.fillIds
  · intro entry hentry id hid
    rcases List.mem_append.mp hentry with hentry | hentry
    · exact h.owned entry hentry id hid
    · obtain ⟨plain, hplain, n, rfl⟩ := mem_numbered hentry
      rw [show (plain.withSequence n).fillId = none from (hcolumns plain hplain).2.2] at hid
      cases hid
  · intro p hp
    rw [hsession] at hp
    cases hp
  · intro account generation haccount hbefore
    show NumberedFrom _ _ _ (db.ledger ++ numbered (isTagged request.paperAccountId)
      request.ledgerSequence request.entries) ∧ (accountEntries _ _ (db.ledger ++ _) = [] → _)
    have hlater : accountEntries account generation (db.ledger ++
        numbered (isTagged request.paperAccountId) request.ledgerSequence request.entries) =
          accountEntries account generation (numbered (isTagged request.paperAccountId)
            request.ledgerSequence request.entries) := by
      unfold accountEntries at hbefore ⊢
      rw [List.filter_append, hbefore, List.nil_append]
    unfold NumberedFrom
    rw [hlater, ← NumberedFrom]
    by_cases hgroup : request.paperAccountId = some account ∧
        request.accountGeneration = some generation
    · rw [hgroup.1, show isTagged (some account) = true by simpa [isTagged] using haccount,
        OpeningRequest.base, if_pos hgroup]
      have hgrouped : ∀ entry ∈ request.entries, entry.paperAccountId = some account ∧
          entry.accountGeneration = some generation := by
        intro entry hentry
        rw [← hgroup.1, ← hgroup.2]
        exact ⟨(hcolumns entry hentry).1, (hcolumns entry hentry).2.1⟩
      obtain ⟨hnumbered, hlength⟩ :=
        numberedFrom_numbered request.entries hgrouped request.ledgerSequence
      refine ⟨hnumbered, fun hnil => ?_⟩
      rw [hnil] at hlength
      cases hlength
    · have hother : ∀ entry ∈ request.entries, ¬ (entry.paperAccountId = some account ∧
          entry.accountGeneration = some generation) := by
        intro entry hentry hsame
        rw [(hcolumns entry hentry).1, (hcolumns entry hentry).2.1] at hsame
        exact hgroup hsame
      have hnone := accountEntries_other hother (isTagged request.paperAccountId)
        request.ledgerSequence
      exact ⟨.of_nil hnone, fun _ => by rw [OpeningRequest.base, if_neg hgroup]⟩

/-! ## One recorded fill -/

section AddFill

variable {request : OpeningRequest} {before : List LedgerEntry} {db : Db} {intent : Intent}
  {fill : Fill} {context : AccountContext} {currency : String}

theorem sessionFills_addFill (hintent : getIntent db fill.intentId = some intent)
    (sessionId : SessionId) :
    sessionFills (db.addFill intent fill context currency) sessionId =
      sessionFills db sessionId ++
        if intent.sessionId = sessionId then [(intent, fill)] else [] := by
  show (db.fills ++ [fill]).filterMap (fun fill => (getIntent db fill.intentId).bind _) = _
  rw [List.filterMap_append, sessionFills]
  congr 1
  by_cases hsession : intent.sessionId = sessionId
  · simp [hintent, hsession]
  · simp [hintent, hsession]

theorem symbolFills_addFill (hintent : getIntent db fill.intentId = some intent)
    (sessionId : SessionId) (symbol : String) :
    symbolFills (db.addFill intent fill context currency) sessionId symbol =
      symbolFills db sessionId symbol ++
        if intent.sessionId = sessionId ∧ intent.symbol = symbol
        then [fill.signedQuantity intent] else [] := by
  rw [symbolFills, sessionFills_addFill hintent, List.filter_append, List.map_append, symbolFills]
  congr 1
  by_cases hsession : intent.sessionId = sessionId <;>
    by_cases hsymbol : intent.symbol = symbol <;> simp [hsession, hsymbol]

theorem numbered_fillEntries_owner (tagged : Bool) (sequence : Nat) :
    ∀ entry ∈ numbered tagged sequence (fillEntries intent fill context currency),
      entry.fillId = some fill.id := by
  intro entry hentry
  obtain ⟨plain, hplain, n, rfl⟩ := mem_numbered hentry
  exact (mem_fillEntries hplain).1

theorem LedgerInv.sequences_addFill (h : LedgerInv request before db) (account : String)
    (generation : Nat) (haccount : account ≠ "")
    (hbefore : accountEntries account generation before = []) :
    NumberedFrom (request.base account generation) account generation
        (db.addFill intent fill context currency).ledger ∧
      (accountEntries account generation (db.addFill intent fill context currency).ledger = [] →
        request.base account generation = 0) := by
  obtain ⟨hnumbered, hbase⟩ := h.sequences account generation haccount hbefore
  have hcolumns : ∀ entry ∈ fillEntries intent fill context currency,
      entry.paperAccountId = context.paperAccountId ∧
        entry.accountGeneration = context.accountGeneration :=
    fun entry hentry => ⟨(mem_fillEntries hentry).2.1, (mem_fillEntries hentry).2.2.1⟩
  show NumberedFrom _ _ _ (db.ledger ++ numbered (isTagged context.paperAccountId)
    (fillSequence context db.ledger) (fillEntries intent fill context currency)) ∧
      (accountEntries _ _ (db.ledger ++ _) = [] → _)
  refine ⟨hnumbered.append ?_, fun hnil => hbase ?_⟩
  · by_cases hgroup : context.paperAccountId = some account ∧
        context.accountGeneration = some generation
    · have htagged : isTagged context.paperAccountId = true := by
        rw [hgroup.1]
        simpa [isTagged] using haccount
      have hstart : fillSequence context db.ledger = request.base account generation +
          (accountEntries account generation db.ledger).length := by
        rw [fillSequence, if_pos htagged, maxSequence, hgroup.1, hgroup.2, hnumbered.sequences]
        rcases Nat.eq_zero_or_pos (accountEntries account generation db.ledger).length with
          hzero | hpos
        · rw [hzero, hbase (List.length_eq_zero_iff.mp hzero)]
          rfl
        · exact foldl_max_range' _ _ hpos
      rw [hgroup.1, hgroup.2] at hcolumns
      rw [htagged, hstart]
      exact (numberedFrom_numbered _ hcolumns _).1
    · refine .of_nil (accountEntries_other (fun entry hentry hsame => hgroup ?_) _ _)
      rw [(hcolumns entry hentry).1, (hcolumns entry hentry).2] at hsame
      exact hsame
  · unfold accountEntries at hnil ⊢
    rw [List.filter_append] at hnil
    exact (List.append_eq_nil_iff.mp hnil).1

theorem LedgerInv.addFill (h : LedgerInv request before db)
    (hintent : getIntent db fill.intentId = some intent) (hid : fill.id = db.fills.length)
    (hnew : findFill db fill.intentId fill.externalFillKey = none) :
    LedgerInv request before (db.addFill intent fill context currency) := by
  have hfills : (db.addFill intent fill context currency).fills = db.fills ++ [fill] := rfl
  have hledger : (db.addFill intent fill context currency).ledger = db.ledger ++
      numbered (isTagged context.paperAccountId) (fillSequence context db.ledger)
        (fillEntries intent fill context currency) := rfl
  have hold : ∀ id, id < db.fills.length → ∀ entry ∈ numbered (isTagged context.paperAccountId)
      (fillSequence context db.ledger) (fillEntries intent fill context currency),
      entry.fillId ≠ some id := by
    intro id hlt entry hentry heq
    rw [numbered_fillEntries_owner _ _ entry hentry, hid, Option.some.injEq] at heq
    exact absurd heq (Nat.ne_of_gt hlt)
  constructor
  · rw [hledger, sessionCash_append, sessionCash_numbered, sessionCash_fillEntries, h.cash,
      sessionFills_addFill hintent, List.map_append, List.sum_append, add_assoc]
    congr 2
    split_ifs
    · simp
    · rfl
  · intro symbol
    rw [hledger, symbolQuantities, List.filterMap_append, ← symbolQuantities, ← symbolQuantities,
      symbolQuantities_numbered, symbolQuantities_fillEntries, h.quantities,
      symbolFills_addFill hintent, List.append_assoc]
  · rw [hfills, List.pairwise_append]
    refine ⟨h.distinct, List.pairwise_singleton _ _, ?_⟩
    intro f hf g hg hsame
    rw [List.mem_singleton.mp hg] at hsame
    have hmiss := (List.find?_eq_none.mp hnew) f hf
    simp [hsame.1, hsame.2] at hmiss
  · intro f hf
    rw [hfills, List.length_append, List.length_singleton]
    rw [hfills] at hf
    rcases List.mem_append.mp hf with hf | hf
    · exact Nat.lt_succ_of_lt (h.fillIds f hf)
    · rw [List.mem_singleton.mp hf, hid]
      exact Nat.lt_succ_self _
  · intro entry hentry id hentryId
    rw [hfills, List.length_append, List.length_singleton]
    rw [hledger] at hentry
    rcases List.mem_append.mp hentry with hentry | hentry
    · exact Nat.lt_succ_of_lt (h.owned entry hentry id hentryId)
    · rw [numbered_fillEntries_owner _ _ entry hentry, hid, Option.some.injEq] at hentryId
      rw [← hentryId]
      exact Nat.lt_succ_self _
  · intro p hp
    rw [sessionFills_addFill hintent] at hp
    rw [hledger, fillDebits_append, fillCredits_append]
    rcases List.mem_append.mp hp with hp | hp
    · have hlt := hold _ (h.fillIds p.2 (mem_fills_of_session hp))
      rw [h.clearing p hp, (fill_eq_zero _ hlt).1, (fill_eq_zero _ hlt).2]
    · have hfresh : ∀ entry ∈ db.ledger, entry.fillId ≠ some fill.id := by
        intro entry hentry heq
        have hlt := h.owned entry hentry fill.id heq
        rw [hid] at hlt
        exact Nat.lt_irrefl _ hlt
      have hsame : p.2 = fill := by
        split_ifs at hp
        · rw [List.mem_singleton.mp hp]
        · cases hp
      rw [hsame, (fill_eq_zero _ hfresh).1, (fill_eq_zero _ hfresh).2, fillDebits_numbered,
        fillCredits_numbered, fillEntries_clear]
  · exact h.sequences_addFill

end AddFill

/-! ## Runs -/

/-- An operation on the orders of any session. -/
inductive LedgerOp where
  | fill (request : FillRequest)
  | transition (call : TransitionCall)

def LedgerOp.run : LedgerOp → Db → Except PaperError (Unit × Db)
  | .fill request, db => (recordFillAndLedger request db).map (fun r => ((), r.2))
  | .transition call, db => (call.run db).map (fun r => ((), r.2))

/-- The database after a sequence of operations, each committed or rolled
back. -/
def runLedger (ops : List LedgerOp) (db : Db) : Db :=
  ops.foldl (fun db op => settle op.run db) db

section Runs

variable {request : OpeningRequest} {before : List LedgerEntry} {db db' : Db}

theorem LedgerInv.transition {call : TransitionCall} {row : Transition}
    (h : LedgerInv request before db) (hrun : call.run db = .ok (row, db')) :
    LedgerInv request before db' := by
  obtain ⟨state, intent, -, -, -, -, hcase⟩ := appendTransition_cases hrun
  rcases hcase with ⟨-, rfl⟩ | ⟨-, -, -, rfl⟩
  · exact h
  · exact ⟨h.cash, h.quantities, h.distinct, h.fillIds, h.owned, h.clearing, h.sequences⟩

theorem LedgerInv.op {op : LedgerOp} {u : Unit} (h : LedgerInv request before db)
    (hrun : op.run db = .ok (u, db')) : LedgerInv request before db' := by
  cases op with
  | transition call =>
    rw [LedgerOp.run] at hrun
    cases hcall : call.run db with
    | error e =>
      rw [hcall] at hrun
      cases hrun
    | ok r =>
      rw [hcall] at hrun
      rw [← (ok_inj hrun).2]
      exact h.transition hcall
  | fill fillRequest =>
    rw [LedgerOp.run] at hrun
    cases hcall : recordFillAndLedger fillRequest db with
    | error e =>
      rw [hcall] at hrun
      cases hrun
    | ok r =>
      rw [hcall] at hrun
      rw [← (ok_inj hrun).2]
      obtain ⟨intent, hintent, hcase⟩ := recordFillAndLedger_cases hcall
      rcases hcase with ⟨-, hsame⟩ | ⟨hnew, hfill, -, hstate⟩
      · rw [hsame]
        exact h
      · rw [hstate, hfill]
        exact h.addFill hintent rfl hnew

theorem runLedger_inv (ops : List LedgerOp) (h : LedgerInv request before db) :
    LedgerInv request before (runLedger ops db) :=
  settle_invariant LedgerOp.run (fun _ _ _ _ hs hrun => hs.op hrun) ops db h

end Runs

/-! ## The projection after a run -/

theorem symbolMoves_quantities (db : Db) (sessionId : SessionId) {symbol : String}
    (hsymbol : symbol ≠ "") :
    (symbolMoves db sessionId symbol).map Move.quantity =
      symbolQuantities sessionId symbol db.ledger := by
  rw [symbolMoves, List.map_map, positionEntries, sessionEntries, ← List.filterMap_eq_map,
    ← List.filterMap_eq_filter, ← List.filterMap_eq_filter, ← List.filterMap_eq_filter,
    List.filterMap_filterMap, List.filterMap_filterMap, List.filterMap_filterMap, symbolQuantities]
  apply List.filterMap_congr
  intro entry _
  by_cases hsession : entry.sessionId = sessionId
  · by_cases hasset : entry.asset = .equity
    · cases hentry : entry.symbol with
      | none => simp [Option.guard, hsession, hasset, hentry]
      | some s =>
        by_cases hs : s = symbol
        · simp [Option.guard, hsession, hasset, hentry, hs, hsymbol, LedgerEntry.symbolKey,
            entryMove]
        · by_cases hempty : s = ""
          · simp [Option.guard, hsession, hasset, hentry, hempty, hsymbol]
          · simp [Option.guard, hsession, hasset, hentry, hs, hempty, LedgerEntry.symbolKey]
    · simp [Option.guard, hsession, hasset]
  · simp [Option.guard, hsession]

theorem symbolMoves_empty (db : Db) (sessionId : SessionId) : symbolMoves db sessionId "" = [] := by
  rw [symbolMoves, List.map_eq_nil_iff, List.filter_eq_nil_iff]
  intro entry hentry hkey
  have hnonempty := (List.mem_filter.mp hentry).2
  cases hsymbol : entry.symbol with
  | none => simp [hsymbol] at hnonempty
  | some s =>
    have hs : s = "" := by simpa [LedgerEntry.symbolKey, hsymbol] using hkey
    simp [hsymbol, hs] at hnonempty

/-- From an opening quantity, no prefix of the moves goes below zero, and no
sell leaves a remainder that the projection drops. -/
structure KeepsHolding (opening : ℚ) (moves : List ℚ) : Prop where
  nonneg : ∀ n, 0 ≤ opening + (moves.take n).sum
  noDust : ∀ n (h : n < moves.length), moves[n] < 0 →
    opening + (moves.take (n + 1)).sum = 0 ∨ ledgerDust < opening + (moves.take (n + 1)).sum

theorem LedgerInv.projection {request : OpeningRequest} {before : List LedgerEntry} {db : Db}
    (h : LedgerInv request before db)
    (hopening : ∀ position ∈ request.positions, 0 ≤ position.quantity)
    (hkeeps : ∀ symbol, KeepsHolding (request.quantities symbol).sum
      (symbolFills db request.sessionId symbol)) :
    ∃ projection, ledgerProjection request.sessionId db = .ok projection ∧
      ∀ symbol, symbol ≠ "" → projection.quantity symbol =
        (request.quantities symbol).sum + (symbolFills db request.sessionId symbol).sum := by
  have hrun : ∀ symbol, symbol ≠ "" → ∃ holding,
      run ledgerDust .empty (symbolMoves db request.sessionId symbol) = some holding ∧
        holding.quantity = (request.quantities symbol).sum +
          (symbolFills db request.sessionId symbol).sum := by
    intro symbol hsymbol
    have hquantities : (symbolMoves db request.sessionId symbol).map Move.quantity =
        request.quantities symbol ++ symbolFills db request.sessionId symbol := by
      rw [symbolMoves_quantities _ _ hsymbol, h.quantities]
    have hclean : Clean ledgerDust (Holding.empty : Holding ℚ String).quantity
        ((symbolMoves db request.sessionId symbol).map Move.quantity) := by
      rw [hquantities]
      apply clean_append
      · apply clean_of_no_sell
        intro q hq
        obtain ⟨position, hposition, rfl⟩ := List.mem_map.mp hq
        exact hopening position (List.mem_of_mem_filter hposition)
      · apply clean_of_take
        intro n hn hneg
        rw [show (Holding.empty : Holding ℚ String).quantity = 0 from rfl, zero_add]
        exact (hkeeps symbol).noDust n hn hneg
    obtain ⟨holding, hholding, hquantity⟩ :=
      run_clean (by norm_num [ledgerDust]) _ Holding.empty hclean
    refine ⟨holding, hholding, ?_⟩
    rw [hquantity, net, hquantities, List.sum_append]
    exact zero_add _
  have htotal : ∃ projection, ledgerProjection request.sessionId db = .ok projection := by
    apply ledgerProjection_total
    intro symbol
    by_cases hsymbol : symbol = ""
    · rw [hsymbol, symbolMoves_empty]
      exact ⟨_, rfl⟩
    · obtain ⟨holding, hholding, -⟩ := hrun symbol hsymbol
      exact ⟨holding, hholding⟩
  obtain ⟨projection, hprojection⟩ := htotal
  refine ⟨projection, hprojection, ?_⟩
  intro symbol hsymbol
  obtain ⟨holding, hholding, hposition⟩ := (ledgerProjection_ok hprojection).2 symbol
  obtain ⟨holding', hholding', hquantity⟩ := hrun symbol hsymbol
  rw [hholding, Option.some.injEq] at hholding'
  subst hholding'
  rw [LedgerProjection.quantity, hposition, ← hquantity]
  split_ifs with hpos
  · rfl
  · -- What a run leaves is never negative, so nothing is left here.
    have hnonneg := run_nonneg _ (by exact le_refl (0 : ℚ)) hholding
    exact le_antisymm hnonneg (not_lt.mp hpos)

/-- The transitions that take an intent to the market. -/
def toMatching (intentId : IntentId) : List LedgerOp :=
  [.transition ⟨intentId, "VALIDATION_PENDING", "constraint_validation_started",
      "validation_pending", .empty⟩,
    .transition ⟨intentId, "ACCEPTED", "constraint_accepted", "constraint_result", .empty⟩,
    .transition ⟨intentId, "MATCHING", "lean_match_submitted", "matching", .empty⟩]

def plainFill (intentId : IntentId) (key date : String) (quantity : ℚ) : LedgerOp :=
  .fill { intentId := intentId, externalFillKey := .text key, tradeDate := date,
          quantity := .ofFloat quantity, price := .ofFloat 10, fee := .ofFloat 0 }

/-- A database with a captured buy of one share and a captured sell of almost
all of it. -/
def dustDb : Db :=
  (captureOrders plainSession "run" ⟨"child", none⟩
    [plainBuy 1 10, plainSell 2 (1 - 1 / 10 ^ 10)] Db.empty).state

def plainOpening : OpeningRequest where
  sessionId := "session"
  cash := 1000
  positions := []

def dustOps : List LedgerOp :=
  toMatching 0 ++ [plainFill 0 "a" "2024-01-03" 1] ++ toMatching 1 ++
    [plainFill 1 "b" "2024-01-04" (1 - 1 / 10 ^ 10)]

def dustOpened : Db := settle (ensureOpeningLedger plainOpening) dustDb

/-- An opening for a generation of an account. -/
def accountOpening (sessionId : SessionId) (generation : Nat) : OpeningRequest :=
  { plainOpening with
    sessionId := sessionId
    paperAccountId := some "account"
    accountGeneration := some generation
    executionCycleId := some "cycle" }

/-- A database in which another session was opened for the first generation of the account. -/
def sharedDb : Db := settle (ensureOpeningLedger (accountOpening "other" 1)) dustDb

def accountOpened : Db := settle (ensureOpeningLedger (accountOpening "session" 2)) sharedDb

/-- A buy for the second generation of the account, recorded twice. -/
def buyOps : List LedgerOp :=
  let buy : LedgerOp := .fill
    { intentId := 0, externalFillKey := .text "a", tradeDate := "2024-01-03",
      quantity := .ofFloat 1, price := .ofFloat 10, fee := .ofFloat 0,
      paperAccountId := some "account", accountGeneration := some 2,
      executionCycleId := some "cycle" }
  toMatching 0 ++ [buy, buy]

theorem symbolFills_buyOps (symbol : String) :
    symbolFills (runLedger buyOps accountOpened) "session" symbol =
      if symbol = "600000" then [1] else [] := by
  have hfills : (sessionFills (runLedger buyOps accountOpened) "session").map
      (fun p => (p.1.symbol, p.2.signedQuantity p.1)) = [("600000", 1)] := by
    decide +kernel
  have hsymbol : symbolFills (runLedger buyOps accountOpened) "session" symbol =
      (((sessionFills (runLedger buyOps accountOpened) "session").map
        (fun p => (p.1.symbol, p.2.signedQuantity p.1))).filter (fun p => p.1 = symbol)).map
          Prod.snd := by
    rw [List.filter_map, List.map_map]
    rfl
  rw [hsymbol, hfills]
  by_cases h : symbol = "600000"
  · subst h
    rfl
  · simp [h, Ne.symm h]

end LocalPlatform.Paper
