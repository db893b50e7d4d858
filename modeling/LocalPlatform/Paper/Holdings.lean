import LocalPlatform.Paper.LedgerConservation
import LocalPlatform.Paper.Runs

/-!
# Holdings along a run

The checks of an order read the position of its symbol, and a fill adds one move
to the holding of its symbol.  This module connects the two sides.

* `BooksOk` says that fills and entries are numbered, so that an entry keeps the
  trade date of its fill when more fills are written.
* `symbolMoves_addFill` and `symbolMoves_addOpening` give the moves of a symbol
  after a fill and after an opening.
* `SyncedWith.position` reads the position of a synced session as the run of the
  moves of its symbol.
-/

namespace LocalPlatform.Paper

open CostBasis

/-! ## Numbered books -/

/-- Fills are numbered, entries name stored fills, and fills name stored
intents. -/
structure BooksOk (db : Db) : Prop where
  fillIds : ∀ fill ∈ db.fills, fill.id < db.fills.length
  owned : ∀ entry ∈ db.ledger, ∀ id, entry.fillId = some id → id < db.fills.length
  known : ∀ fill ∈ db.fills, ∃ intent, getIntent db fill.intentId = some intent

theorem getIntent_append {db t : Db} {rows : List Intent} (hrows : t.intents = db.intents ++ rows)
    {i : IntentId} {intent : Intent} (h : getIntent db i = some intent) :
    getIntent t i = some intent := by
  rw [getIntent] at h ⊢
  rw [hrows, List.find?_append, h, Option.some_or]

theorem BooksOk.of_grown {db t : Db} (h : BooksOk db)
    (hintents : ∃ rows, t.intents = db.intents ++ rows) (hfills : t.fills = db.fills)
    (hledger : t.ledger = db.ledger) : BooksOk t := by
  obtain ⟨rows, hrows⟩ := hintents
  refine ⟨?_, ?_, ?_⟩
  · rw [hfills]
    exact h.fillIds
  · rw [hledger, hfills]
    exact h.owned
  · rw [hfills]
    intro fill hfill
    obtain ⟨intent, hintent⟩ := h.known fill hfill
    exact ⟨intent, getIntent_append hrows hintent⟩

theorem sessionFills_of_grown {db t : Db} (h : BooksOk db)
    (hintents : ∃ rows, t.intents = db.intents ++ rows) (hfills : t.fills = db.fills)
    (sessionId : SessionId) : sessionFills t sessionId = sessionFills db sessionId := by
  obtain ⟨rows, hrows⟩ := hintents
  rw [sessionFills, sessionFills, hfills]
  apply List.filterMap_congr
  intro fill hfill
  obtain ⟨intent, hintent⟩ := h.known fill hfill
  rw [getIntent_append hrows hintent, hintent]

theorem BooksOk.addOpening {db : Db} (h : BooksOk db) (request : OpeningRequest) :
    BooksOk (db.addOpening request) := by
  refine ⟨h.fillIds, ?_, h.known⟩
  intro entry hentry id hid
  rcases List.mem_append.mp hentry with hentry | hentry
  · exact h.owned entry hentry id hid
  · obtain ⟨plain, hplain, n, rfl⟩ := mem_numbered hentry
    rcases List.mem_cons.mp hplain with rfl | hplain
    · cases hid
    · obtain ⟨position, -, rfl⟩ := List.mem_map.mp hplain
      cases hid

section AddFill

variable {db : Db} {intent : Intent} {fill : Fill} {context : AccountContext} {currency : String}

theorem BooksOk.addFill (h : BooksOk db) (hid : fill.id = db.fills.length)
    (hintent : getIntent db fill.intentId = some intent) :
    BooksOk (db.addFill intent fill context currency) := by
  have hlength : (db.addFill intent fill context currency).fills.length =
      db.fills.length + 1 := by
    simp [Db.addFill]
  refine ⟨?_, ?_, ?_⟩
  · intro f hf
    rw [hlength]
    rcases List.mem_append.mp hf with hf | hf
    · exact Nat.lt_succ_of_lt (h.fillIds f hf)
    · rw [List.mem_singleton.mp hf, hid]
      exact Nat.lt_succ_self _
  · intro entry hentry id hentryId
    rw [hlength]
    rcases List.mem_append.mp hentry with hentry | hentry
    · exact Nat.lt_succ_of_lt (h.owned entry hentry id hentryId)
    · rw [numbered_fillEntries_owner _ _ entry hentry, hid] at hentryId
      rw [← Option.some.inj hentryId]
      exact Nat.lt_succ_self _
  · intro f hf
    rcases List.mem_append.mp hf with hf | hf
    · exact h.known f hf
    · rw [List.mem_singleton.mp hf]
      exact ⟨intent, hintent⟩

theorem BooksOk.fillTradeDate_addFill (h : BooksOk db) (hid : fill.id = db.fills.length)
    {entry : LedgerEntry} (hentry : entry ∈ db.ledger) :
    fillTradeDate (db.addFill intent fill context currency) entry = fillTradeDate db entry := by
  unfold fillTradeDate
  cases howner : entry.fillId with
  | none => rfl
  | some id =>
    have hlt := h.owned entry hentry id howner
    have hother : (fill.id == id) = false := by
      rw [hid, beq_eq_false_iff_ne]
      exact Nat.ne_of_gt hlt
    simp only [Option.bind_some, Db.addFill, List.find?_append, List.find?_cons, hother,
      List.find?_nil, Option.or_none]

theorem BooksOk.fillTradeDate_new (h : BooksOk db) (hid : fill.id = db.fills.length)
    {entry : LedgerEntry} (hentry : entry.fillId = some fill.id) :
    fillTradeDate (db.addFill intent fill context currency) entry = some fill.tradeDate := by
  have hfresh : db.fills.find? (fun f => f.id == fill.id) = none := by
    rw [List.find?_eq_none]
    intro f hf hsame
    have hlt := h.fillIds f hf
    rw [beq_iff_eq.mp hsame, hid] at hlt
    exact Nat.lt_irrefl _ hlt
  simp only [fillTradeDate, hentry, Option.bind_some, Db.addFill, List.find?_append, hfresh,
    Option.none_or, List.find?_cons, beq_self_eq_true, Option.map_some]

end AddFill

/-- A session before its first run. -/
structure FreshSession (sessionId : SessionId) (db : Db) : Prop where
  tables : TablesOk sessionId db
  books : BooksOk db
  ledger : sessionEntries db sessionId = []
  fills : sessionFills db sessionId = []

theorem freshSession_startDb (session : Session) (positions : List Position) :
    FreshSession session.id (startDb session positions) := by
  refine ⟨tablesOk_startDb session positions, ⟨?_, ?_, ?_⟩, rfl, rfl⟩
  · intro fill hfill
    cases hfill
  · intro entry hentry
    cases hentry
  · intro fill hfill
    cases hfill

/-! ## The moves of a symbol -/

/-- The moves of a symbol among some entries. -/
def movesOf (db : Db) (sessionId : SessionId) (symbol : String) (entries : List LedgerEntry) :
    List (Move ℚ String) :=
  entries.filterMap (fun entry =>
    if entry.sessionId = sessionId ∧ entry.asset = .equity ∧ entry.symbol = some symbol
    then some (entryMove db entry) else none)

theorem symbolMoves_eq (db : Db) (sessionId : SessionId) {symbol : String} (hsymbol : symbol ≠ "") :
    symbolMoves db sessionId symbol = movesOf db sessionId symbol db.ledger := by
  rw [symbolMoves, positionEntries, sessionEntries, ← List.filterMap_eq_map,
    ← List.filterMap_eq_filter, ← List.filterMap_eq_filter, ← List.filterMap_eq_filter,
    List.filterMap_filterMap, List.filterMap_filterMap, List.filterMap_filterMap, movesOf]
  apply List.filterMap_congr
  intro entry _
  by_cases hsession : entry.sessionId = sessionId
  · by_cases hasset : entry.asset = .equity
    · cases hentry : entry.symbol with
      | none => simp [Option.guard, hsession, hasset, hentry]
      | some s =>
        by_cases hs : s = symbol
        · simp [Option.guard, hsession, hasset, hentry, hs, hsymbol, LedgerEntry.symbolKey]
        · by_cases hempty : s = ""
          · simp [Option.guard, hsession, hasset, hentry, hempty, hsymbol.symm]
          · simp [Option.guard, hsession, hasset, hentry, hs, hempty, LedgerEntry.symbolKey]
    · simp [Option.guard, hsession, hasset]
  · simp [Option.guard, hsession]

theorem movesOf_append (db : Db) (sessionId : SessionId) (symbol : String)
    (entries entries' : List LedgerEntry) :
    movesOf db sessionId symbol (entries ++ entries') =
      movesOf db sessionId symbol entries ++ movesOf db sessionId symbol entries' := by
  simp [movesOf]

theorem movesOf_numbered (db : Db) (sessionId : SessionId) (symbol : String) (tagged : Bool)
    (sequence : Nat) (entries : List LedgerEntry) :
    movesOf db sessionId symbol (numbered tagged sequence entries) =
      movesOf db sessionId symbol entries := by
  have hmap := numbered_map (fun entry =>
    if entry.sessionId = sessionId ∧ entry.asset = .equity ∧ entry.symbol = some symbol
    then some (entryMove db entry) else none) (fun _ _ => rfl) tagged entries sequence
  have hread := congrArg (List.filterMap id) hmap
  rw [List.filterMap_map, List.filterMap_map] at hread
  exact hread

theorem movesOf_congr {db t : Db} (sessionId : SessionId) (symbol : String)
    {entries : List LedgerEntry}
    (h : ∀ entry ∈ entries, fillTradeDate t entry = fillTradeDate db entry) :
    movesOf t sessionId symbol entries = movesOf db sessionId symbol entries := by
  apply List.filterMap_congr
  intro entry hentry
  rw [entryMove, entryMove, h entry hentry]

def fillMove (intent : Intent) (fill : Fill) : Move ℚ String where
  quantity := fill.signedQuantity intent
  cost := fill.quantity * fill.price
  day := textOrNone fill.tradeDate

theorem symbolMoves_addFill {db : Db} {intent : Intent} {fill : Fill} {context : AccountContext}
    {currency : String} (h : BooksOk db) (hid : fill.id = db.fills.length)
    (sessionId : SessionId) {symbol : String} (hsymbol : symbol ≠ "") :
    symbolMoves (db.addFill intent fill context currency) sessionId symbol =
      symbolMoves db sessionId symbol ++
        if intent.sessionId = sessionId ∧ intent.symbol = symbol
        then [fillMove intent fill] else [] := by
  rw [symbolMoves_eq _ _ hsymbol, symbolMoves_eq _ _ hsymbol]
  show movesOf _ sessionId symbol (db.ledger ++ numbered _ _ _) = _
  rw [movesOf_append, movesOf_numbered,
    movesOf_congr sessionId symbol (fun entry hentry => h.fillTradeDate_addFill hid hentry)]
  congr 1
  have hmove : ∀ entry : LedgerEntry, entry.fillId = some fill.id →
      entryMove (db.addFill intent fill context currency) entry =
        { quantity := entry.quantity, cost := entry.amount, day := textOrNone fill.tradeDate } := by
    intro entry hentry
    rw [entryMove, h.fillTradeDate_new hid hentry, textOrNone]
    by_cases hempty : fill.tradeDate = "" <;> simp [hempty]
  by_cases hsession : intent.sessionId = sessionId <;> by_cases hsame : intent.symbol = symbol <;>
    by_cases hbuy : intent.side = "buy" <;> by_cases htax : fill.tax = 0 <;>
      by_cases hslippage : fill.slippage = 0 <;>
      simp [movesOf, fillEntries, fillEntry, fillMove, Fill.signedQuantity, hsession, hsame, hbuy,
        htax, hslippage, hmove]

theorem symbolMoves_addOpening (db : Db) {request : OpeningRequest} (sessionId : SessionId)
    {symbol : String} (hsymbol : symbol ≠ "")
    (hpositions : ∀ position ∈ request.positions, 0 ≤ position.quantity) :
    ∃ moves, symbolMoves (db.addOpening request) sessionId symbol =
        symbolMoves db sessionId symbol ++ moves ∧
      ∀ move ∈ moves, 0 ≤ move.quantity ∧ move.day = none := by
  rw [symbolMoves_eq _ _ hsymbol, symbolMoves_eq _ _ hsymbol]
  refine ⟨movesOf (db.addOpening request) sessionId symbol request.entries, ?_, ?_⟩
  · show movesOf _ sessionId symbol (db.ledger ++ numbered _ _ _) = _
    rw [movesOf_append, movesOf_numbered]
    rfl
  · intro move hmove
    obtain ⟨entry, hentry, hread⟩ := List.mem_filterMap.mp hmove
    split_ifs at hread with hcolumns
    obtain rfl := Option.some.inj hread
    rcases List.mem_cons.mp hentry with rfl | hentry
    · exact absurd hcolumns.2.1 (by simp [OpeningRequest.cashEntry])
    · obtain ⟨position, hposition, rfl⟩ := List.mem_map.mp hentry
      exact ⟨hpositions position (List.mem_of_mem_filter hposition), rfl⟩

theorem symbolMoves_congr {db t : Db} (hfills : t.fills = db.fills)
    (hledger : t.ledger = db.ledger) (sessionId : SessionId) (symbol : String) :
    symbolMoves t sessionId symbol = symbolMoves db sessionId symbol := by
  have hmove : entryMove t = entryMove db := by
    funext entry
    simp only [entryMove, fillTradeDate, hfills]
  simp only [symbolMoves, positionEntries, sessionEntries, hmove, hledger]

/-! ## The position that the checks read -/

section Position

variable {session : Session} {projection : LedgerProjection} {db : Db}

theorem SyncedWith.position (h : SyncedWith session projection db) (symbol : String) :
    ∃ holding, run ledgerDust .empty (symbolMoves db session.id symbol) = some holding ∧
      findPosition db session.id symbol =
        if 0 < holding.quantity then some (holdingItem symbol holding).row else none := by
  obtain ⟨holding, hrun, hitem⟩ := (ledgerProjection_ok h.projected).2 symbol
  refine ⟨holding, hrun, ?_⟩
  have hfind : findPosition db session.id symbol =
      (projection.position? symbol).map ProjectedPosition.row := by
    rw [findPosition, h.positions, List.find?_map]
    rfl
  rw [hfind, hitem]
  split_ifs
  · rfl
  · rfl

theorem SyncedWith.heldQuantity (h : SyncedWith session projection db) {symbol : String}
    {holding : Holding ℚ String}
    (hrun : run ledgerDust .empty (symbolMoves db session.id symbol) = some holding) :
    heldQuantity db session.id symbol = holding.quantity := by
  obtain ⟨found, hfound, hposition⟩ := h.position symbol
  obtain rfl : holding = found := Option.some.inj (hrun.symm.trans hfound)
  have hnonneg : 0 ≤ holding.quantity := run_nonneg _ (by exact le_refl (0 : ℚ)) hrun
  rw [Paper.heldQuantity, hposition]
  split_ifs with hpos
  · rfl
  · exact le_antisymm hnonneg (not_lt.mp hpos)

end Position

end LocalPlatform.Paper
