import LocalPlatform.Paper.Holdings

/-!
# T+1 and short selling

A China session buys and sells over many calls, each of which may be left after
any commit.  Three things hold wherever it stands.

* No sell is filled on a date on which a buy of its symbol was filled before.
* A filled sell takes what the ledger holds, up to the `1e-12` that the check
  of the position tolerates.
* The projection of the ledger does not raise.

The link between the checks and the history is the field `latest` of
`SettlementOk`: a symbol that was bought on the latest date of all fills is held,
and its position names that date as the date of its last buy.  The dates of the
orders never go back, so every later sell on that date meets the check.
-/

namespace LocalPlatform.Paper

open CostBasis Transaction

/-! ## The invariant -/

/-- Every sell takes what was held before it, up to the tolerance. -/
def SellsCovered (moves : List (Move ℚ String)) : Prop :=
  ∀ pre move post, moves = pre ++ move :: post → move.quantity < 0 →
    ∃ holding, run ledgerDust .empty pre = some holding ∧
      -move.quantity ≤ holding.quantity + 1 / 10 ^ 12

/-- A buy and a later sell of its symbol are filled on different dates. -/
def SettledNextDay (p q : Intent × Fill) : Prop :=
  p.1.symbol = q.1.symbol → p.1.side = "buy" → q.1.side = "sell" → p.2.tradeDate ≠ q.2.tradeDate

/-- A symbol bought on the latest date of all fills is held since that date. -/
def HeldSinceLatest (fills : List (Intent × Fill)) (symbol : String)
    (holding : Holding ℚ String) : Prop :=
  ∀ p ∈ fills, p.1.symbol = symbol → p.1.side = "buy" →
    (∀ q ∈ fills, q.2.tradeDate ≤ p.2.tradeDate) →
      0 < holding.quantity ∧ holding.lastBuy = some p.2.tradeDate

/-- The books of a session that settles its trades. -/
structure SettlementOk (sessionId : SessionId) (db : Db) : Prop where
  books : BooksOk db
  covered : ∀ symbol, SellsCovered (symbolMoves db sessionId symbol)
  latest : ∀ symbol, symbol ≠ "" → ∃ holding,
    run ledgerDust .empty (symbolMoves db sessionId symbol) = some holding ∧
      HeldSinceLatest (sessionFills db sessionId) symbol holding
  settled : (sessionFills db sessionId).Pairwise SettledNextDay

theorem sellsCovered_nil : SellsCovered [] := by
  intro pre move post h
  simp at h

theorem SellsCovered.snoc {moves : List (Move ℚ String)} {move : Move ℚ String}
    (h : SellsCovered moves) (hmove : move.quantity < 0 → ∃ holding,
      run ledgerDust .empty moves = some holding ∧
        -move.quantity ≤ holding.quantity + 1 / 10 ^ 12) :
    SellsCovered (moves ++ [move]) := by
  intro pre sell post hsplit hsell
  rcases List.eq_nil_or_concat post with rfl | ⟨post', last, rfl⟩
  · obtain ⟨rfl, hlast⟩ := List.append_inj' hsplit rfl
    obtain rfl := List.singleton_inj.mp hlast
    exact hmove hsell
  · rw [List.concat_eq_append, ← List.cons_append, ← List.append_assoc] at hsplit
    obtain ⟨rfl, -⟩ := List.append_inj' hsplit rfl
    exact h pre sell post' rfl hsell

theorem SellsCovered.append_buys {moves : List (Move ℚ String)} (h : SellsCovered moves)
    (buys : List (Move ℚ String)) (hbuys : ∀ move ∈ buys, 0 ≤ move.quantity) :
    SellsCovered (moves ++ buys) := by
  induction buys using List.reverseRecOn with
  | nil => simpa using h
  | append_singleton buys move ih =>
    rw [← List.append_assoc]
    refine (ih fun m hm => hbuys m (List.mem_append_left _ hm)).snoc fun hsell => ?_
    have hbuy := hbuys move (List.mem_append_right _ (List.mem_singleton_self move))
    exact absurd hsell (not_lt.mpr hbuy)

variable {sessionId : SessionId}

theorem SettlementOk.of_grown {db t : Db} (h : SettlementOk sessionId db)
    (hintents : ∃ rows, t.intents = db.intents ++ rows) (hfills : t.fills = db.fills)
    (hledger : t.ledger = db.ledger) : SettlementOk sessionId t := by
  have hmoves := fun symbol => symbolMoves_congr hfills hledger sessionId symbol
  have hsession := sessionFills_of_grown h.books hintents hfills sessionId
  refine ⟨h.books.of_grown hintents hfills hledger, ?_, ?_, ?_⟩
  · intro symbol
    rw [hmoves]
    exact h.covered symbol
  · intro symbol hsymbol
    rw [hmoves, hsession]
    exact h.latest symbol hsymbol
  · rw [hsession]
    exact h.settled

/-! ## The opening -/

theorem run_buys (buys : List (Move ℚ String)) : ∀ holding : Holding ℚ String,
    (∀ move ∈ buys, 0 ≤ move.quantity ∧ move.day = none) →
      ∃ final, run ledgerDust holding buys = some final ∧ holding.quantity ≤ final.quantity ∧
        final.lastBuy = holding.lastBuy := by
  induction buys with
  | nil =>
    intro holding _
    exact ⟨holding, rfl, le_refl _, rfl⟩
  | cons move buys ih =>
    intro holding hbuys
    obtain ⟨⟨hquantity, hday⟩, hrest⟩ := List.forall_mem_cons.mp hbuys
    rcases hquantity.eq_or_lt with hzero | hpos
    · have hstep : step ledgerDust holding move = some holding := by simp [step, ← hzero]
      obtain ⟨final, hrun, hle, hlast⟩ := ih holding hrest
      refine ⟨final, ?_, hle, hlast⟩
      rw [run_cons, hstep]
      exact hrun
    · obtain ⟨final, hrun, hle, hlast⟩ := ih (holding.buy move) hrest
      refine ⟨final, ?_, ?_, ?_⟩
      · rw [run_cons, step_buy hpos]
        exact hrun
      · have hbuy : (holding.buy move).quantity = holding.quantity + move.quantity := rfl
        linarith
      · rw [hlast, Holding.buy, hday, Option.none_or]

theorem SettlementOk.addOpening {db : Db} (request : OpeningRequest)
    (h : SettlementOk request.sessionId db)
    (hpositions : ∀ position ∈ request.positions, 0 ≤ position.quantity) :
    SettlementOk request.sessionId (db.addOpening request) := by
  have hfills : sessionFills (db.addOpening request) request.sessionId =
      sessionFills db request.sessionId := rfl
  refine ⟨h.books.addOpening request, ?_, ?_, ?_⟩
  · intro symbol
    by_cases hsymbol : symbol = ""
    · rw [hsymbol, symbolMoves_empty]
      exact sellsCovered_nil
    · obtain ⟨buys, hmoves, hbuys⟩ := symbolMoves_addOpening db request.sessionId hsymbol
        hpositions
      rw [hmoves]
      exact (h.covered symbol).append_buys buys (fun move hmove => (hbuys move hmove).1)
  · intro symbol hsymbol
    obtain ⟨buys, hmoves, hbuys⟩ := symbolMoves_addOpening db request.sessionId hsymbol hpositions
    obtain ⟨holding, hrun, hlatest⟩ := h.latest symbol hsymbol
    obtain ⟨final, hfinal, hle, hlast⟩ := run_buys buys holding hbuys
    refine ⟨final, ?_, ?_⟩
    · rw [hmoves, run_append, hrun]
      exact hfinal
    · intro p hp hsame hbuy hall
      obtain ⟨hpos, hday⟩ := hlatest p hp hsame hbuy hall
      exact ⟨lt_of_lt_of_le hpos hle, hlast.trans hday⟩
  · exact h.settled

/-! ## One fill -/

section FillStep

variable {market : Market} {session : Session} {item : Captured} {db : Db} {fill : Fill}
  {context : AccountContext} {currency : String}

theorem FillStep.checked (hstep : FillStep market session item db fill)
    (hsync : Synced session db) (hmatches : Matches session item) :
    (item.intent.side = "buy" ∨ item.intent.side = "sell") ∧ 0 < fill.quantity ∧
      ∀ holding, run ledgerDust .empty (symbolMoves db session.id item.intent.symbol) =
          some holding → item.intent.side = "sell" →
        fill.quantity ≤ holding.quantity + 1 / 10 ^ 12 ∧
          (session.venue = "china" → 0 < holding.quantity →
            holding.lastBuy ≠ some fill.tradeDate) := by
  obtain ⟨projection, hprojection⟩ := hsync
  obtain ⟨price, -, haccepted⟩ := accepted_of_rejection_none hstep.passed
  have hsession := hprojection.getSession_eq
  rw [hsession] at haccepted
  simp only at haccepted
  rw [← hmatches.symbol, ← hmatches.side, ← hmatches.quantity, ← hstep.quantity,
    ← hstep.tradeDate] at haccepted
  refine ⟨haccepted.sided, haccepted.positive, ?_⟩
  intro holding hrun hsell
  refine ⟨?_, ?_⟩
  · rw [← hprojection.heldQuantity hrun]
    exact haccepted.held hsell
  · intro hchina hpos hlast
    obtain ⟨found, hfound, hposition⟩ := hprojection.position item.intent.symbol
    obtain rfl : holding = found := Option.some.inj (hrun.symm.trans hfound)
    apply haccepted.settled hsell hchina
    show (findPosition db session.id item.intent.symbol).bind Position.lastBuyDate = _
    rw [hposition, if_pos hpos]
    exact hlast

theorem run_fillMove (intent : Intent) {holding : Holding ℚ String} {moves : List (Move ℚ String)}
    (hrun : run ledgerDust .empty moves = some holding) (hpositive : 0 < fill.quantity)
    (hsell : intent.side ≠ "buy" → fill.quantity ≤ holding.quantity + 1 / 10 ^ 12) :
    run ledgerDust .empty (moves ++ [fillMove intent fill]) =
      some (if intent.side = "buy" then holding.buy (fillMove intent fill)
        else holding.sell ledgerDust (fillMove intent fill)) := by
  rw [run_append, hrun]
  show run ledgerDust holding [fillMove intent fill] = _
  rw [run_cons]
  by_cases hbuy : intent.side = "buy"
  · have hmove : (fillMove intent fill).quantity = fill.quantity := by
      simp [fillMove, Fill.signedQuantity, hbuy]
    rw [if_pos hbuy, step_buy (by rw [hmove]; exact hpositive)]
    rfl
  · have hmove : (fillMove intent fill).quantity = -fill.quantity := by
      simp [fillMove, Fill.signedQuantity, hbuy]
    have hcovered := hsell hbuy
    rw [if_neg hbuy, step_sell (by rw [hmove]; linarith)
      (by rw [hmove, ledgerDust]; norm_num at hcovered ⊢; linarith)]
    rfl

/-- A fill that passed the checks, dated no earlier than any fill before it,
keeps the invariant. -/
theorem SettlementOk.addFill (h : SettlementOk session.id db) (hchina : session.venue = "china")
    (hsymbol : session.symbol ≠ "") (hsync : Synced session db) (hmatches : Matches session item)
    (hstored : getIntent db item.intent.id = some item.intent)
    (hstep : FillStep market session item db fill) (hdate : fill.tradeDate ≠ "")
    (hlater : ∀ p ∈ sessionFills db session.id, p.2.tradeDate ≤ fill.tradeDate) :
    SettlementOk session.id (db.addFill item.intent fill context currency) := by
  have hintent : getIntent db fill.intentId = some item.intent := by
    rw [hstep.intentId]
    exact hstored
  obtain ⟨hsided, hpositive, hchecked⟩ := hstep.checked hsync hmatches
  have hfills : sessionFills (db.addFill item.intent fill context currency) session.id =
      sessionFills db session.id ++ [(item.intent, fill)] := by
    rw [sessionFills_addFill hintent, if_pos hmatches.sessionId]
  have hnonempty : item.intent.symbol ≠ "" := by
    rw [hmatches.symbol]
    exact upper_ne_empty (firstText_ne_empty hsymbol [item.order.symbol])
  have hmoves : ∀ symbol, symbol ≠ "" →
      symbolMoves (db.addFill item.intent fill context currency) session.id symbol =
        symbolMoves db session.id symbol ++
          if item.intent.symbol = symbol then [fillMove item.intent fill] else [] := by
    intro symbol hne
    rw [symbolMoves_addFill h.books hstep.id session.id hne]
    simp only [hmatches.sessionId, true_and]
  obtain ⟨holding, hrun, hlatest⟩ := h.latest item.intent.symbol hnonempty
  have hnonneg : 0 ≤ holding.quantity := run_nonneg _ (by exact le_refl (0 : ℚ)) hrun
  have hsellSide : item.intent.side ≠ "buy" → item.intent.side = "sell" :=
    fun hne => hsided.resolve_left hne
  -- A sell meets no buy of its symbol on its own date.
  have hsettled : item.intent.side = "sell" → ∀ p ∈ sessionFills db session.id,
      p.1.symbol = item.intent.symbol → p.1.side = "buy" → p.2.tradeDate ≠ fill.tradeDate := by
    intro hsell p hp hsame hbuy hday
    obtain ⟨hpos, hlast⟩ := hlatest p hp hsame hbuy (by rw [hday]; exact hlater)
    rw [hday] at hlast
    exact (hchecked holding hrun hsell).2 hchina hpos hlast
  have hrunFill := run_fillMove item.intent hrun hpositive
    (fun hne => (hchecked holding hrun (hsellSide hne)).1)
  refine ⟨h.books.addFill hstep.id hintent, ?_, ?_, ?_⟩
  · intro symbol
    by_cases hempty : symbol = ""
    · rw [hempty, symbolMoves_empty]
      exact sellsCovered_nil
    rw [hmoves symbol hempty]
    by_cases hsame : item.intent.symbol = symbol
    · rw [if_pos hsame]
      refine (h.covered symbol).snoc fun hsell => ⟨holding, by rw [← hsame]; exact hrun, ?_⟩
      have hside : item.intent.side ≠ "buy" := by
        intro hbuy
        simp only [fillMove, Fill.signedQuantity, hbuy, if_true] at hsell
        linarith
      have hcovered := (hchecked holding hrun (hsellSide hside)).1
      simp only [fillMove, Fill.signedQuantity, hside, if_false, neg_neg]
      exact hcovered
    · rw [if_neg hsame, List.append_nil]
      exact h.covered symbol
  · intro symbol hne
    rw [hmoves symbol hne, hfills]
    by_cases hsame : item.intent.symbol = symbol
    · subst hsame
      rw [if_pos rfl]
      refine ⟨_, hrunFill, ?_⟩
      intro p hp hsymbolp hbuy hall
      have hday : p.2.tradeDate = fill.tradeDate := by
        apply le_antisymm
        · rcases List.mem_append.mp hp with hp | hp
          · exact hlater p hp
          · rw [List.mem_singleton.mp hp]
        · exact hall _ (List.mem_append_right _ (List.mem_singleton_self _))
      by_cases hside : item.intent.side = "buy"
      · rw [if_pos hside, hday]
        refine ⟨?_, ?_⟩
        · show 0 < holding.quantity + (fillMove item.intent fill).quantity
          simp only [fillMove, Fill.signedQuantity, hside, if_true]
          linarith
        · show (textOrNone fill.tradeDate).or holding.lastBuy = _
          rw [textOrNone, if_neg hdate, Option.some_or]
      · -- The buy is an earlier one, and the sell would have been rejected.
        rcases List.mem_append.mp hp with hp | hp
        · exact absurd hday (hsettled (hsellSide hside) p hp hsymbolp hbuy)
        · rw [List.mem_singleton.mp hp] at hbuy
          exact absurd hbuy hside
    · rw [if_neg hsame, List.append_nil]
      obtain ⟨other, hother, hlatestOther⟩ := h.latest symbol hne
      refine ⟨other, hother, ?_⟩
      intro p hp hsymbolp hbuy hall
      rcases List.mem_append.mp hp with hp | hp
      · exact hlatestOther p hp hsymbolp hbuy (fun q hq => hall q (List.mem_append_left _ hq))
      · rw [List.mem_singleton.mp hp] at hsymbolp
        exact absurd hsymbolp hsame
  · rw [hfills, List.pairwise_append]
    refine ⟨h.settled, List.pairwise_singleton _ _, ?_⟩
    intro p hp q hq hsame hbuy hsell
    rw [List.mem_singleton.mp hq] at hsame hsell ⊢
    exact hsettled hsell p hp hsame hbuy

end FillStep

/-! ## Runs -/

/-- A call for a China session.  Its orders are dated and do not go back in
time, and those that are still to be decided are no older than any fill. -/
structure ChinaCall (sessionId : SessionId) (db : Db) (call : ProcessCall) : Prop where
  id : call.session.id = sessionId
  row : db.sessions sessionId = some call.session
  china : call.session.venue = "china"
  symbol : call.session.symbol ≠ ""
  opening : db.ledger.any (isOpeningCash sessionId) = false →
    ∀ position ∈ db.positions sessionId, 0 ≤ position.quantity
  dated : ∀ order ∈ call.orders, orderTradeDate order ≠ ""
  sorted : call.orders.Pairwise (fun p q => orderTradeDate p ≤ orderTradeDate q)
  later : ∀ order ∈ call.orders, Pending db call order →
    ∀ p ∈ sessionFills db sessionId, p.2.tradeDate ≤ orderTradeDate order

theorem symbolMoves_fresh {db : Db} (h : sessionEntries db sessionId = []) (symbol : String) :
    symbolMoves db sessionId symbol = [] := by
  simp [symbolMoves, positionEntries, h]

theorem FreshSession.settlementOk {db : Db} (h : FreshSession sessionId db) :
    SettlementOk sessionId db := by
  refine ⟨h.books, ?_, ?_, ?_⟩
  · intro symbol
    rw [symbolMoves_fresh h.ledger]
    exact sellsCovered_nil
  · intro symbol _
    rw [symbolMoves_fresh h.ledger, h.fills]
    exact ⟨.empty, rfl, fun p hp => absurd hp List.not_mem_nil⟩
  · rw [h.fills]
    exact List.Pairwise.nil

/-- The invariant of the loop: what is left to do is in order, and no pending
intent is older than a fill. -/
structure Queued (sessionId : SessionId) (items : List Captured) (db : Db) : Prop where
  ok : SettlementOk sessionId db
  dated : ∀ item ∈ items, item.intent.tradeDate ≠ ""
  sorted : items.Pairwise (fun p q => p.intent.tradeDate ≤ q.intent.tradeDate)
  later : ∀ item ∈ items, currentState db item.intent.id = some .intentCreated →
    ∀ p ∈ sessionFills db sessionId, p.2.tradeDate ≤ item.intent.tradeDate

theorem Queued.step {market : Market} {session : Session} {item : Captured}
    {items : List Captured} {db t : Db} (h : Queued session.id (item :: items) db)
    (hchina : session.venue = "china") (hsymbol : session.symbol ≠ "")
    (hsync : Synced session db) (hmatches : Matches session item)
    (hstored : getIntent db item.intent.id = some item.intent)
    (htouches : Touches market session item db t) (hadvances : Advances item.intent.id db t) :
    Queued session.id items t := by
  obtain ⟨hdate, hdated⟩ := List.forall_mem_cons.mp h.dated
  obtain ⟨hnext, hsorted⟩ := List.pairwise_cons.mp h.sorted
  obtain ⟨hfirst, hlater⟩ := List.forall_mem_cons.mp h.later
  have hrows : ∃ rows, t.intents = db.intents ++ rows :=
    ⟨[], by rw [hadvances.intents, List.append_nil]⟩
  rcases htouches with ⟨hfills, hledger⟩ | ⟨fill, context, currency, hstep, hfills, hledger⟩
  · refine ⟨h.ok.of_grown hrows hfills hledger, hdated, hsorted, ?_⟩
    intro other hother hpending
    rw [sessionFills_of_grown h.ok.books hrows hfills]
    exact hlater other hother (hadvances.pending hpending)
  · have hintent : getIntent db fill.intentId = some item.intent := by
      rw [hstep.intentId]
      exact hstored
    have hok : SettlementOk session.id (db.addFill item.intent fill context currency) := by
      apply h.ok.addFill hchina hsymbol hsync hmatches hstored hstep
      · rw [hstep.tradeDate]
        exact hdate
      · rw [hstep.tradeDate]
        exact hfirst hstep.pending
    have hrows' : ∃ rows, t.intents =
        (db.addFill item.intent fill context currency).intents ++ rows := hrows
    refine ⟨hok.of_grown hrows' hfills hledger, hdated, hsorted, ?_⟩
    intro other hother hpending p hp
    rw [sessionFills_of_grown hok.books hrows' hfills, sessionFills_addFill hintent,
      if_pos hmatches.sessionId] at hp
    rcases List.mem_append.mp hp with hp | hp
    · exact hlater other hother (hadvances.pending hpending) p hp
    · rw [List.mem_singleton.mp hp, hstep.tradeDate]
      exact hnext other hother

theorem ChinaCall.queued {db t : Db} {call : ProcessCall} (h : ChinaCall sessionId db call)
    (hdb : SettlementOk sessionId db) (htables : TablesOk sessionId db) {captured : List Captured}
    (hdone : CaptureDone call.session call.paperRunId call.child call.orders captured db t)
    (hafter : TablesOk sessionId t) (ht : SettlementOk sessionId t) :
    Queued sessionId captured t := by
  have hid := h.id
  subst hid
  obtain ⟨horders, hcaptured⟩ := hdone.captured
  have hdates : ∀ item ∈ captured, item.intent.tradeDate = orderTradeDate item.order := by
    intro item hitem
    obtain ⟨hintent, hsame⟩ := hcaptured item hitem
    rw [hsame]
    exact (matches_of_captured hafter.intents hafter.identified hintent).1.tradeDate
  have hmem : ∀ item ∈ captured, item.order ∈ call.orders := by
    intro item hitem
    rw [← horders]
    exact List.mem_map_of_mem hitem
  refine ⟨ht, ?_, ?_, ?_⟩
  · intro item hitem
    rw [hdates item hitem]
    exact h.dated _ (hmem item hitem)
  · have hsorted := h.sorted
    rw [← horders, List.pairwise_map] at hsorted
    refine hsorted.imp_of_mem ?_
    intro p q hp hq hle
    rw [hdates p hp, hdates q hq]
    exact hle
  · intro item hitem hstate p hp
    rw [sessionFills_of_grown hdb.books hdone.intents hdone.fills] at hp
    rw [hdates item hitem]
    exact h.later _ (hmem item hitem)
      (hdone.pending htables.intents (hcaptured item hitem).1 hstate) p hp

theorem settlementOk_of_run {market : Market} {start db : Db}
    (hfresh : FreshSession sessionId start)
    (hrun : ProcessRun market (ChinaCall sessionId) start db) :
    SettlementOk sessionId db ∧ TablesOk sessionId db := by
  induction hrun with
  | start => exact ⟨hfresh.settlementOk, hfresh.tables⟩
  | @call db t call hdb hallowed hleaves ih =>
    obtain ⟨hok, htables⟩ := ih
    have hid := hallowed.id
    subst hid
    refine TxM.Leaves.of_wp (I := fun t => SettlementOk call.session.id t ∧
      TablesOk call.session.id t) hleaves ⟨hok, htables⟩ ?_
    apply process_safe (Queued call.session.id) call.session call.paperRunId call.child call.orders
      db htables hallowed.row hok
    · exact fun t u ht hrows hfills hledger => ht.of_grown hrows hfills hledger
    · intro hmarker
      apply SettlementOk.addOpening (openingRequest call.session db) hok
      intro position hposition
      exact hallowed.opening hmarker position ((List.mem_insertionSort _).mp hposition)
    · intro captured t hdone hafter ht
      exact hallowed.queued hok htables hdone hafter ht
    · exact fun _ _ h => h.ok
    · intro cash item items t u hqueued hsync hmatches hstored htouches hadvances
      have hnow : Queued ({ call.session with cash := cash } : Session).id (item :: items) t :=
        hqueued
      exact (hnow.step hallowed.china hallowed.symbol hsync hmatches hstored htouches hadvances).ok
    · intro cash item items t u hqueued hsync hmatches hstored htouches hadvances _
      have hnow : Queued ({ call.session with cash := cash } : Session).id (item :: items) t :=
        hqueued
      exact hnow.step hallowed.china hallowed.symbol hsync hmatches hstored htouches hadvances
  | elsewhere hdb hrest ih =>
    obtain ⟨hok, htables⟩ := ih
    exact ⟨hok.of_grown ⟨[], by rw [hrest.intents, List.append_nil]⟩ hrest.fills hrest.ledger,
      htables.of_elsewhere hrest⟩

/-- Wherever a run of China calls is left, no sell was filled on a date on which
a buy of its symbol was filled before, every sell took what the ledger held, up
to the tolerance of the check, and the projection of the ledger returns. -/
theorem settlement_safety (market : Market) (sessionId : SessionId) (start db : Db)
    (hfresh : FreshSession sessionId start)
    (hrun : ProcessRun market (ChinaCall sessionId) start db) :
    (sessionFills db sessionId).Pairwise SettledNextDay ∧
      (∀ symbol, SellsCovered (symbolMoves db sessionId symbol)) ∧
        ∃ projection, ledgerProjection sessionId db = .ok projection := by
  obtain ⟨hok, -⟩ := settlementOk_of_run hfresh hrun
  refine ⟨hok.settled, hok.covered, ?_⟩
  apply ledgerProjection_total
  intro symbol
  by_cases hsymbol : symbol = ""
  · rw [hsymbol, symbolMoves_empty]
    exact ⟨_, rfl⟩
  · obtain ⟨holding, hholding, -⟩ := hok.latest symbol hsymbol
    exact ⟨holding, hholding⟩

/-! ## A day of trading -/

theorem chinaCall_startDb (session : Session) (positions : List Position) (paperRunId : RunId)
    (child : Child) (orders : List LeanOrder) (hchina : session.venue = "china")
    (hsymbol : session.symbol ≠ "") (hpositions : ∀ position ∈ positions, 0 ≤ position.quantity)
    (hdated : ∀ order ∈ orders, orderTradeDate order ≠ "")
    (hsorted : orders.Pairwise (fun p q => orderTradeDate p ≤ orderTradeDate q)) :
    ChinaCall session.id (startDb session positions) ⟨session, paperRunId, child, orders⟩ := by
  refine ⟨rfl, if_pos rfl, hchina, hsymbol, ?_, hdated, hsorted, ?_⟩
  · intro _ position hposition
    have hrows : (startDb session positions).positions session.id = positions := if_pos rfl
    rw [hrows] at hposition
    exact hpositions position hposition
  · intro order _ _ p hp
    cases hp

theorem settlement_safety_dayTraded :
    (sessionFills dayTraded "session").Pairwise SettledNextDay ∧
      (∀ symbol, SellsCovered (symbolMoves dayTraded "session" symbol)) ∧
        ∃ projection, ledgerProjection "session" dayTraded = .ok projection :=
  settlement_safety (flatMarket 10) "session" (startDb plainSession []) dayTraded
    (freshSession_startDb plainSession [])
    (.single dayTrade (chinaCall_startDb plainSession [] "run" ⟨"child", none⟩ dayTrade.orders rfl
      (by decide) (fun _ h => absurd h List.not_mem_nil) (by decide +kernel) (by decide +kernel)))

/-- The opening of a session that holds one share. -/
def heldStart : Db := startDb plainSession [plainPosition "600000" 1]

def overSell : ProcessCall :=
  ⟨plainSession, "run", ⟨"child", none⟩, [plainSell 1 (1 + 1 / 2 ^ 41)]⟩

/-- A sell of more than is held is filled, as long as the excess is below the
tolerance, and a session that opens with a short position cannot be projected. -/
theorem settlement_exceeds_held :
    FreshSession "session" heldStart ∧
      ProcessRun (flatMarket 10) (ChinaCall "session") heldStart
        (overSell.run (flatMarket 10) heldStart).state ∧
      (symbolMoves (overSell.run (flatMarket 10) heldStart).state "session" "600000").map
        Move.quantity = [1, -(1 + 1 / 2 ^ 41)] ∧
      (ledgerProjection "session" ((ProcessCall.mk plainSession "run" ⟨"child", none⟩ []).run
        (flatMarket 10) (startDb plainSession [plainPosition "600000" (-1)])).state).isOk =
          false := by
  refine ⟨freshSession_startDb plainSession _, ?_, by decide +kernel, by decide +kernel⟩
  refine .single overSell (chinaCall_startDb plainSession _ "run" ⟨"child", none⟩ overSell.orders
    rfl (by decide) ?_ (by decide +kernel) (by decide +kernel))
  intro position hposition
  rw [List.mem_singleton.mp hposition]
  decide

end LocalPlatform.Paper
