import LocalPlatform.Accounts.PointInTime
import LocalPlatform.Paper.LedgerConservation
import Mathlib.Algebra.Order.BigOperators.Group.List

/-!
# Two cost bases of one ledger

`rebuild_projection` divides the cost of all buys of a symbol by the quantity
that is left, and `ledger_projection` keeps a weighted average that sells leave
alone.  Both read the same entries, because the ledger of an account is the
ledger of its shadow session.

What the two differ by is the cost that the sells released, `run_cost`.  It is
positive as soon as there is a sell, so the projections agree on a symbol
exactly when none of its shares was ever sold.
-/

namespace LocalPlatform.Accounts

open Paper Transaction CostBasis

/-! ## The ledger of the shadow session -/

/-- A fill of positive size whose numbers have at most eight decimals. -/
structure SizedFill (request : FillRequest) : Prop where
  quantity : 0 < request.quantity.value
  price : 0 < request.price.value
  exactQuantity : EightDecimals request.quantity.value
  exactPrincipal : EightDecimals (request.quantity.value * request.price.value)

/-- The fills of the shadow session are those of the account, and sized. -/
def StepOwnFills (accountId : String) (sessionId : SessionId) (db : Db) : AccountStep → Prop
  | .fill request => ∀ intent, getIntent db request.intentId = some intent →
      (intent.sessionId = sessionId ↔
        (request.context intent).paperAccountId = some accountId ∧
          (request.context intent).accountGeneration = some 1) ∧
      (intent.sessionId = sessionId → SizedFill request)
  | _ => True

/-- A position entry of a sized fill. -/
structure SizedEntry (entry : LedgerEntry) : Prop where
  quantity : entry.quantity ≠ 0
  amount : 0 < entry.amount
  exactQuantity : EightDecimals entry.quantity
  exactAmount : EightDecimals entry.amount

/-- The ledger of the account is the ledger of its shadow session, and its
position entries come from sized fills. -/
structure SharedLedger (accountId : String) (sessionId : SessionId) (db : AccountDb) : Prop where
  account : ∃ account, db.accounts accountId = some account ∧ account.currentGeneration = 1
  shared : ∀ entry ∈ db.paper.ledger, entry.sessionId = sessionId ↔
    entry.paperAccountId = some accountId ∧ entry.accountGeneration = some 1
  sized : ∀ entry ∈ db.paper.ledger, entry.sessionId = sessionId → entry.asset = .equity →
    SizedEntry entry

theorem mem_fillEntries_equity {intent : Intent} {fill : Fill} {context : AccountContext}
    {currency : String} {entry : LedgerEntry}
    (h : entry ∈ fillEntries intent fill context currency) (hasset : entry.asset = .equity) :
    entry.quantity = fill.signedQuantity intent ∧ entry.amount = fill.quantity * fill.price := by
  simp only [fillEntries, List.mem_append] at h
  rcases h with ((h | h) | h) | h
  · unfold Fill.signedQuantity
    split_ifs at h ⊢
    · rcases List.mem_cons.mp h with rfl | h
      · exact ⟨rfl, rfl⟩
      · rw [List.mem_singleton.mp h] at hasset
        cases hasset
    · rcases List.mem_cons.mp h with rfl | h
      · exact ⟨rfl, rfl⟩
      · rw [List.mem_singleton.mp h] at hasset
        cases hasset
  · rw [List.mem_singleton.mp h] at hasset
    cases hasset
  · split_ifs at h
    · rw [List.mem_singleton.mp h] at hasset
      cases hasset
    · cases h
  · split_ifs at h
    · rw [List.mem_singleton.mp h] at hasset
      cases hasset
    · cases h

variable {request : FillRequest}

theorem SizedFill.entry (h : SizedFill request) {intent : Intent} {id : FillId}
    {entry : LedgerEntry} {currency : String}
    (hentry : entry ∈ fillEntries intent (request.fill (request.context intent) id)
      (request.context intent) currency) (hasset : entry.asset = .equity) :
    SizedEntry entry := by
  obtain ⟨hquantity, hamount⟩ := mem_fillEntries_equity hentry hasset
  have hprincipal : entry.amount = request.quantity.value * request.price.value := hamount
  have hsigned : entry.quantity = request.quantity.value ∨
      entry.quantity = -request.quantity.value := by
    rw [hquantity, Fill.signedQuantity]
    split_ifs
    · exact Or.inl rfl
    · exact Or.inr rfl
  have hpos := h.quantity
  refine ⟨?_, ?_, ?_, ?_⟩
  · rcases hsigned with hsigned | hsigned
    · rw [hsigned]
      exact hpos.ne'
    · rw [hsigned]
      exact neg_ne_zero.mpr hpos.ne'
  · rw [hprincipal]
    exact mul_pos hpos h.price
  · rcases hsigned with hsigned | hsigned
    · rw [hsigned]
      exact h.exactQuantity
    · rw [hsigned]
      exact h.exactQuantity.neg
  · rw [hprincipal]
    exact h.exactPrincipal

variable {accountId : String} {sessionId : SessionId} {db : AccountDb}

theorem SharedLedger.fill (h : SharedLedger accountId sessionId db)
    (hown : StepOwnFills accountId sessionId db.paper (.fill request)) {fill : Fill} {paper : Db}
    (hrun : recordFillAndLedger request db.paper = .ok (fill, paper)) :
    SharedLedger accountId sessionId { db with paper := paper } := by
  obtain ⟨intent, hintent, hcase⟩ := recordFillAndLedger_cases hrun
  rcases hcase with ⟨-, rfl⟩ | ⟨-, rfl, -, rfl⟩
  · exact h
  obtain ⟨hshared, hsized⟩ := hown intent hintent
  refine ⟨h.account, ?_, ?_⟩
  · intro entry hentry
    rcases List.mem_append.mp hentry with hold | hnew
    · exact h.shared entry hold
    · obtain ⟨plain, hplain, number, rfl⟩ := mem_numbered hnew
      obtain ⟨-, haccount, hgeneration, -, hsession⟩ := mem_fillEntries hplain
      show plain.sessionId = sessionId ↔ plain.paperAccountId = _ ∧ plain.accountGeneration = _
      rw [hsession, haccount, hgeneration]
      exact hshared
  · intro entry hentry hsession hasset
    rcases List.mem_append.mp hentry with hold | hnew
    · exact h.sized entry hold hsession hasset
    · obtain ⟨plain, hplain, number, rfl⟩ := mem_numbered hnew
      have hintentSession : intent.sessionId = sessionId := by
        rw [← (mem_fillEntries hplain).2.2.2.2]
        exact hsession
      have hplainSized := (hsized hintentSession).entry hplain hasset
      exact ⟨hplainSized.quantity, hplainSized.amount, hplainSized.exactQuantity,
        hplainSized.exactAmount⟩

theorem rebuildProjection_account {market : MarketData} {valuationDate : String}
    {start : Option String}
    (h : ∃ account, db.accounts accountId = some account ∧ account.currentGeneration = 1) :
    ∃ account, (rebuildProjection market accountId valuationDate start db).state.accounts
      accountId = some account ∧ account.currentGeneration = 1 := by
  obtain ⟨account, haccount, hgeneration⟩ := h
  rw [rebuildProjection_run haccount]
  generalize computeRebuild market _ _ _ _ _ _ = computed
  cases computed with
  | error e => exact ⟨account, haccount, hgeneration⟩
  | ok rebuild =>
    rw [commitRebuild, TxM.bind_ok rfl]
    simp only [TxM.read]
    split_ifs
    · -- A divergence only marks the account.
      refine ⟨{ account with status := "error" }, ?_, hgeneration⟩
      show Function.update db.accounts accountId _ accountId = _
      rw [Function.update_self, haccount, Option.map_some]
    · exact ⟨account, haccount, hgeneration⟩

theorem SharedLedger.of_ledger_eq {db' : AccountDb} (h : SharedLedger accountId sessionId db)
    (hledger : db'.paper.ledger = db.paper.ledger)
    (haccount : ∃ account, db'.accounts accountId = some account ∧
      account.currentGeneration = 1) : SharedLedger accountId sessionId db' := by
  refine ⟨haccount, ?_, ?_⟩
  · rw [hledger]
    exact h.shared
  · rw [hledger]
    exact h.sized

theorem SharedLedger.step {market : MarketData} (h : SharedLedger accountId sessionId db)
    {step : AccountStep} (hown : StepOwnFills accountId sessionId db.paper step) :
    SharedLedger accountId sessionId (step.run market accountId db) := by
  cases step with
  | intent request => exact h.of_ledger_eq (recordIntent_frame request db.paper).1 h.account
  | transition call => exact h.of_ledger_eq (transition_frame call db.paper).1 h.account
  | fill request =>
    simp only [AccountStep.run]
    cases hrun : recordFillAndLedger request db.paper with
    | error e =>
      rw [settle_error hrun]
      exact h
    | ok r =>
      rw [settle_ok hrun]
      exact h.fill hown hrun
  | openCycle row => exact h.of_ledger_eq rfl h.account
  | moveCycle id status paperRunId => exact h.of_ledger_eq rfl h.account
  | rebuild valuationDate start =>
    refine h.of_ledger_eq ?_ (rebuildProjection_account h.account)
    simp only [AccountStep.run, rebuildProjection_paper]

theorem sharedLedger_created {request : AccountRequest} {base opened : AccountDb}
    {account : PaperAccount}
    (hfresh : ∀ entry ∈ base.paper.ledger,
      entry.sessionId ≠ request.sessionId ∧ entry.paperAccountId ≠ some request.accountId)
    (hcreate : createAccount request base = .ok (account, opened)) :
    SharedLedger request.accountId request.sessionId opened := by
  obtain ⟨hgeneration, haccount, hledger, -, -⟩ := createAccount_ok hcreate
  refine ⟨⟨account, haccount, hgeneration⟩, ?_, ?_⟩
  · intro entry hentry
    rw [hledger] at hentry
    rcases List.mem_append.mp hentry with hold | hnew
    · obtain ⟨hsession, hother⟩ := hfresh entry hold
      exact ⟨fun h => absurd h hsession, fun h => absurd h.1 hother⟩
    · rw [List.mem_singleton.mp hnew]
      exact ⟨fun _ => ⟨rfl, rfl⟩, fun _ => rfl⟩
  · intro entry hentry hsession hasset
    rw [hledger] at hentry
    rcases List.mem_append.mp hentry with hold | hnew
    · exact absurd hsession (hfresh entry hold).1
    · rw [List.mem_singleton.mp hnew] at hasset
      cases hasset

/-! ## The sums of a rebuild -/

theorem heldQuantities_eq (entries : List LedgerEntry) (symbol : String) :
    heldQuantities entries symbol = (((entries.filter movesPosition).filter
      (fun entry => entry.symbolKey = symbol)).map (fun entry => round8 entry.quantity)).sum := by
  have hfold := foldl_addAt LedgerEntry.symbolKey (fun entry => round8 entry.quantity)
    (entries.filter movesPosition) (fun _ => 0) symbol
  rw [zero_add] at hfold
  exact hfold

theorem heldCosts_eq (entries : List LedgerEntry) (symbol : String) :
    heldCosts entries symbol = (((entries.filter movesPosition).filter
      (fun entry => entry.symbolKey = symbol)).map (fun entry =>
        if 0 < round8 entry.quantity then round8 entry.amount else 0)).sum := by
  have hstep : addCost = fun costs (entry : LedgerEntry) => Function.update costs entry.symbolKey
      (costs entry.symbolKey + if 0 < round8 entry.quantity then round8 entry.amount else 0) := by
    funext costs entry
    unfold addCost
    split_ifs
    · rfl
    · rw [add_zero, Function.update_eq_self]
  have hfold := foldl_addAt LedgerEntry.symbolKey (fun entry =>
    if 0 < round8 entry.quantity then round8 entry.amount else 0)
    (entries.filter movesPosition) (fun _ => 0) symbol
  rw [zero_add] at hfold
  rw [heldCosts, hstep]
  exact hfold

theorem SharedLedger.positionEntries_eq (h : SharedLedger accountId sessionId db) :
    (accountEntries db.paper accountId 1).filter movesPosition =
      positionEntries db.paper sessionId := by
  have hsame : accountEntries db.paper accountId 1 = sessionEntries db.paper sessionId := by
    apply List.filter_congr
    intro entry hentry
    rw [Bool.eq_iff_iff, Bool.and_eq_true, beq_iff_eq, beq_iff_eq, beq_iff_eq,
      h.shared entry hentry]
  rw [hsame]
  rfl

theorem SharedLedger.sized_of_mem (h : SharedLedger accountId sessionId db) {entry : LedgerEntry}
    (hentry : entry ∈ positionEntries db.paper sessionId) : SizedEntry entry := by
  obtain ⟨hmem, hmoves⟩ := List.mem_filter.mp hentry
  obtain ⟨hledger, hsession⟩ := List.mem_filter.mp hmem
  refine h.sized entry hledger (by simpa using hsession) ?_
  simpa using (Bool.and_eq_true_iff.mp hmoves).1

theorem SharedLedger.held (h : SharedLedger accountId sessionId db) (symbol : String) :
    heldQuantities (accountEntries db.paper accountId 1) symbol =
        net (symbolMoves db.paper sessionId symbol) ∧
      heldCosts (accountEntries db.paper accountId 1) symbol =
        bought (symbolMoves db.paper sessionId symbol) := by
  have hsized : ∀ entry ∈ (positionEntries db.paper sessionId).filter
      (fun entry => entry.symbolKey = symbol), SizedEntry entry :=
    fun entry hentry => h.sized_of_mem (List.mem_of_mem_filter hentry)
  constructor
  · rw [heldQuantities_eq, h.positionEntries_eq, net, symbolMoves, List.map_map]
    congr 1
    apply List.map_congr_left
    intro entry hentry
    exact (hsized entry hentry).exactQuantity
  · rw [heldCosts_eq, h.positionEntries_eq, bought_eq_sum, symbolMoves, List.map_map]
    congr 1
    apply List.map_congr_left
    intro entry hentry
    have hquantity : round8 entry.quantity = entry.quantity := (hsized entry hentry).exactQuantity
    have hamount : round8 entry.amount = entry.amount := (hsized entry hentry).exactAmount
    by_cases hbuy : 0 < entry.quantity
    · rw [hquantity, if_pos hbuy, hamount]
      exact (if_pos hbuy).symm
    · rw [hquantity, if_neg hbuy]
      exact (if_neg hbuy).symm

/-! ## Agreement -/

/-- No prefix of the quantities of a symbol is negative. -/
def NeverOversells (quantities : List ℚ) : Prop := ∀ n, 0 ≤ (quantities.take n).sum

theorem clean_of_neverOversells {quantities : List ℚ} (h : NeverOversells quantities)
    (hexact : ∀ q ∈ quantities, EightDecimals q) : Clean ledgerDust 0 quantities := by
  apply clean_of_take
  intro n _ _
  have hleft : EightDecimals (quantities.take (n + 1)).sum :=
    eightDecimals_sum _ (fun q hq => hexact q (List.mem_of_mem_take hq))
  have hnonneg := h (n + 1)
  rw [zero_add]
  by_cases hdust : |(quantities.take (n + 1)).sum| ≤ ledgerDust
  · exact Or.inl (hleft.eq_zero hdust)
  · rw [abs_of_nonneg hnonneg, not_le] at hdust
    exact Or.inr hdust

/-- The projections agree on a row of the rebuild: the ledger projection holds
the same quantity, at the average cost of the row, and the unrealized profit is
taken over that average. -/
def AgreesOnCost (projection : LedgerProjection) (row : RebuildRow) : Prop :=
  ∃ item, projection.position? row.symbol = some item ∧ item.quantity = row.quantity ∧
    row.averageCost = item.averagePrice ∧
    row.unrealizedPnl = item.quantity * (row.price - item.averagePrice)

section Symbol

variable {accountId : String} {sessionId : SessionId} {db : AccountDb}

theorem SharedLedger.exact_moves (h : SharedLedger accountId sessionId db) {symbol : String} :
    ∀ q ∈ (symbolMoves db.paper sessionId symbol).map Move.quantity, EightDecimals q := by
  intro q hq
  rw [symbolMoves, List.map_map] at hq
  obtain ⟨entry, hentry, rfl⟩ := List.mem_map.mp hq
  exact (h.sized_of_mem (List.mem_of_mem_filter hentry)).exactQuantity

theorem SharedLedger.run_symbol (h : SharedLedger accountId sessionId db) {symbol : String}
    (hheld : NeverOversells ((symbolMoves db.paper sessionId symbol).map Move.quantity)) :
    ∃ holding, run ledgerDust .empty (symbolMoves db.paper sessionId symbol) = some holding ∧
      holding.quantity = net (symbolMoves db.paper sessionId symbol) := by
  obtain ⟨holding, hrun, hquantity⟩ := run_clean (by norm_num [ledgerDust]) _ Holding.empty
    (clean_of_neverOversells hheld h.exact_moves)
  refine ⟨holding, hrun, ?_⟩
  rw [hquantity]
  exact zero_add _

theorem SharedLedger.released_eq_zero_iff (h : SharedLedger accountId sessionId db)
    {symbol : String} {holding : Holding ℚ String}
    (hheld : NeverOversells ((symbolMoves db.paper sessionId symbol).map Move.quantity))
    (hrun : run ledgerDust .empty (symbolMoves db.paper sessionId symbol) = some holding) :
    released ledgerDust .empty (symbolMoves db.paper sessionId symbol) = 0 ↔
      ∀ move ∈ symbolMoves db.paper sessionId symbol, 0 < move.quantity := by
  have hmove : ∀ move ∈ symbolMoves db.paper sessionId symbol,
      move.quantity ≠ 0 ∧ 0 < move.cost := by
    intro move hmove
    obtain ⟨entry, hentry, rfl⟩ := List.mem_map.mp hmove
    have hsized := h.sized_of_mem (List.mem_of_mem_filter hentry)
    exact ⟨hsized.quantity, hsized.amount⟩
  constructor
  · intro hzero move hmem
    by_contra hsell
    have hneg : move.quantity < 0 := lt_of_le_of_ne (not_lt.mp hsell) (hmove move hmem).1
    have hpos := released_pos _ priced_empty (fun m hm _ => (hmove m hm).2) (fun n => by
      have hprefix := hheld n
      rw [← List.map_take] at hprefix
      show 0 ≤ 0 + net _
      rw [zero_add]
      exact hprefix) ⟨move, hmem, hneg⟩ hrun
    exact absurd hzero hpos.ne'
  · intro hbuys
    exact released_of_no_sell _ (fun move hmem => (hbuys move hmem).le)

variable {valuationDate : String}

theorem SharedLedger.agreesOnCost_iff (h : SharedLedger accountId sessionId db)
    {projection : LedgerProjection}
    (hprojection : ledgerProjection sessionId db.paper = .ok projection) {row : RebuildRow}
    {market : MarketData}
    (hrow : rebuildRow market valuationDate (accountEntries db.paper accountId 1) row.symbol =
      .ok row) (hquantity : row.quantity ≠ 0)
    (hheld : NeverOversells ((symbolMoves db.paper sessionId row.symbol).map Move.quantity)) :
    AgreesOnCost projection row ↔
      ∀ move ∈ symbolMoves db.paper sessionId row.symbol, 0 < move.quantity := by
  obtain ⟨-, hrowQuantity, hrowCost, hrowPnl⟩ := rebuildRow_ok hrow
  obtain ⟨hnet, hbought⟩ := h.held row.symbol
  obtain ⟨holding, hrun, hholding⟩ := h.run_symbol hheld
  rw [← h.released_eq_zero_iff hheld hrun]
  have hcost := run_cost _ (le_refl (0 : ℚ)) hrun
  have hsame : holding.quantity = row.quantity := by rw [hholding, hrowQuantity, hnet]
  have hpositive : 0 < holding.quantity := by
    have hnonneg := run_nonneg _ (le_refl (0 : ℚ)) hrun
    rw [← hsame] at hquantity
    exact lt_of_le_of_ne hnonneg hquantity.symm
  -- The bought cost is the average value of the holding and the released cost.
  have htotal : heldCosts (accountEntries db.paper accountId 1) row.symbol =
      holding.average * row.quantity +
        released ledgerDust .empty (symbolMoves db.paper sessionId row.symbol) := by
    rw [hbought, ← hsame, ← hcost]
    simp [Holding.empty]
  have hposition : projection.position? row.symbol = some (holdingItem row.symbol holding) := by
    obtain ⟨holding', hrun', hposition⟩ := (ledgerProjection_ok hprojection).2 row.symbol
    rw [hrun, Option.some.injEq] at hrun'
    subst hrun'
    rw [hposition, if_pos hpositive]
  constructor
  · intro hagrees
    obtain ⟨item, hitem, -, haverage, -⟩ := hagrees
    rw [hposition, Option.some.injEq] at hitem
    have hitemAverage : holding.average = item.averagePrice := by
      rw [← hitem]
      rfl
    rw [hrowCost, ← hrowQuantity, htotal, ← hitemAverage, div_eq_iff hquantity] at haverage
    linarith
  · intro hzero
    rw [hzero, add_zero] at htotal
    refine ⟨_, hposition, hsame, ?_, ?_⟩
    · rw [hrowCost, ← hrowQuantity, htotal]
      exact mul_div_cancel_right₀ _ hquantity
    · rw [hrowPnl, ← hrowQuantity, htotal]
      show _ = holding.quantity * (row.price - holding.average)
      rw [hsame]
      ring

theorem computeRebuild_row {market : MarketData} {account : PaperAccount}
    {entries : List LedgerEntry} {start : Option String} {prior : Option AccountProjection}
    {rebuild : Rebuild} {row : RebuildRow}
    (h : computeRebuild market accountId account entries start prior valuationDate =
      .ok rebuild) (hrow : row ∈ rebuild.rows) :
    rebuildRow market valuationDate entries row.symbol = .ok row ∧ row.quantity ≠ 0 := by
  obtain ⟨-, hrows⟩ := computeRebuild_ok h
  obtain ⟨n, hn, rfl⟩ := List.mem_iff_getElem.mp hrow
  have hsymbol := hrows.get (hrows.length_eq ▸ hn) hn
  simp only [List.get_eq_getElem] at hsymbol
  obtain ⟨hname, hquantity, -, -⟩ := rebuildRow_ok hsymbol
  refine ⟨by rw [hname]; exact hsymbol, ?_⟩
  rw [hquantity]
  have hheld := List.getElem_mem (l := heldSymbols entries) (hrows.length_eq ▸ hn)
  simpa using (List.mem_filter.mp hheld).2

theorem rebuildProjection_ok {market : MarketData} {start : Option String} {account : PaperAccount}
    {rebuild : Rebuild} (haccount : db.accounts accountId = some account)
    (h : (rebuildProjection market accountId valuationDate start db).value = .ok rebuild) :
    computeRebuild market accountId account
      (rebuildEntries db.paper accountId account.currentGeneration valuationDate)
      (start <|> firstCycleDate db.paper accountId account.currentGeneration valuationDate)
      (db.projections accountId) valuationDate = .ok rebuild := by
  rw [rebuildProjection_run haccount] at h
  generalize computeRebuild market _ _ _ _ _ _ = computed at h ⊢
  cases computed with
  | error e =>
    rw [(commitRebuild_error accountId _ e db).1] at h
    cases h
  | ok computed =>
    rw [commitRebuild, TxM.bind_ok rfl] at h
    simp only [TxM.read] at h
    split_ifs at h
    · cases h
    · exact h

end Symbol

/-- The opening and any sequence of fills of an account that never oversells:
at a date that leaves no entry out, the ledger projection of the shadow session
returns, and it agrees with a row of the rebuild exactly when the symbol of the
row was only ever bought. -/
theorem rebuild_agrees_iff_only_bought (market : MarketData) (request : AccountRequest)
    (base opened : AccountDb) (account : PaperAccount)
    (hfresh : ∀ entry ∈ base.paper.ledger,
      entry.sessionId ≠ request.sessionId ∧ entry.paperAccountId ≠ some request.accountId)
    (hcreate : createAccount request base = .ok (account, opened)) (steps : List AccountStep)
    (hown : EachStep (StepOwnFills request.accountId request.sessionId) market
      request.accountId steps opened) :
    let db := runAccount market request.accountId steps opened
    let quantities := fun symbol => symbolQuantities request.sessionId symbol db.paper.ledger
    (∀ symbol, NeverOversells (quantities symbol)) →
      ∀ valuationDate start rebuild,
        (∀ entry ∈ accountEntries db.paper request.accountId 1,
          inCut db.paper valuationDate entry) →
        (rebuildProjection market request.accountId valuationDate start db).value = .ok rebuild →
          ∃ projection, ledgerProjection request.sessionId db.paper = .ok projection ∧
            ∀ row ∈ rebuild.rows,
              AgreesOnCost projection row ↔ ∀ q ∈ quantities row.symbol, 0 < q := by
  intro db quantities hheld valuationDate start rebuild hall hvalue
  have h : SharedLedger request.accountId request.sessionId db :=
    runAccount_invariant (fun _ _ hdb hstep => hdb.step hstep) steps
      (sharedLedger_created hfresh hcreate) hown
  have hmoves : ∀ symbol, NeverOversells
      ((symbolMoves db.paper request.sessionId symbol).map Move.quantity) := by
    intro symbol
    by_cases hsymbol : symbol = ""
    · rw [hsymbol, symbolMoves_empty]
      intro n
      simp
    · rw [symbolMoves_quantities _ _ hsymbol]
      exact hheld symbol
  obtain ⟨projection, hprojection⟩ : ∃ projection,
      ledgerProjection request.sessionId db.paper = .ok projection := by
    apply ledgerProjection_total
    intro symbol
    obtain ⟨holding, hrun, -⟩ := h.run_symbol (hmoves symbol)
    exact ⟨holding, hrun⟩
  refine ⟨projection, hprojection, ?_⟩
  intro row hrow
  obtain ⟨account', haccount, hgeneration⟩ := h.account
  have hcompute := rebuildProjection_ok haccount hvalue
  rw [hgeneration, show rebuildEntries db.paper request.accountId 1 valuationDate =
    accountEntries db.paper request.accountId 1 from List.filter_eq_self.mpr hall] at hcompute
  obtain ⟨hrebuild, hquantity⟩ := computeRebuild_row hcompute hrow
  rw [h.agreesOnCost_iff hprojection hrebuild hquantity (hmoves row.symbol)]
  by_cases hsymbol : row.symbol = ""
  · -- A row without a symbol would have no quantity.
    have hnone : row.quantity = 0 := by
      rw [(rebuildRow_ok hrebuild).2.1, hsymbol, (h.held "").1, symbolMoves_empty]
      rfl
    exact absurd hnone hquantity
  · show _ ↔ ∀ q ∈ symbolQuantities request.sessionId row.symbol db.paper.ledger, 0 < q
    rw [← symbolMoves_quantities _ _ hsymbol, List.forall_mem_map]

/-! ## A buy, and a sell of a part of it -/

theorem stepOwnFills_shadow {db : Db} (cycle : CycleContext)
    (hintent : (getIntent db request.intentId).map
      (fun intent => (intent.sessionId, intent.account)) = some ("shadow", cycle.account))
    (hcontext : ∀ intent, intent.account = cycle.account →
      (request.context intent).paperAccountId = some "account" ∧
        (request.context intent).accountGeneration = some 1) (hsized : SizedFill request) :
    StepOwnFills "account" "shadow" db (.fill request) := by
  intro intent hfound
  rw [hfound, Option.map_some, Option.some.injEq, Prod.mk.injEq] at hintent
  obtain ⟨hsession, haccount⟩ := hintent
  exact ⟨⟨fun _ => hcontext intent haccount, fun _ => hsession⟩, fun _ => hsized⟩

theorem plainSteps_ownFills :
    EachStep (StepOwnFills "account" "shadow") flatMarket "account" plainSteps plainOpened := by
  refine ⟨trivial, trivial, trivial, trivial, trivial, ?_, trivial, trivial, trivial, trivial⟩
  refine stepOwnFills_shadow plainCycle (by decide +kernel) ?_ ?_
  · intro intent haccount
    simp only [FillRequest.context, haccount]
    decide +kernel
  · constructor <;> decide +kernel

theorem neverOversells_of_nonneg {quantities : List ℚ} (h : ∀ q ∈ quantities, 0 ≤ q) :
    NeverOversells quantities :=
  fun _ => List.sum_nonneg (fun q hq => h q (List.mem_of_mem_take hq))

theorem plainSteps_neverOversells (symbol : String) :
    NeverOversells (symbolQuantities "shadow" symbol
      (runAccount flatMarket "account" plainSteps plainOpened).paper.ledger) := by
  have hledger : (runAccount flatMarket "account" plainSteps plainOpened).paper.ledger.all
      (fun entry => 0 ≤ entry.quantity) = true := by
    decide +kernel
  apply neverOversells_of_nonneg
  intro q hq
  obtain ⟨entry, hentry, hread⟩ := List.mem_filterMap.mp hq
  split_ifs at hread
  rw [← Option.some.inj hread]
  simpa using List.all_eq_true.mp hledger entry hentry

/-- The account with one buy, rebuilt on its day. -/
theorem rebuild_agrees_bought :
    let db := runAccount flatMarket "account" plainSteps plainOpened
    ∃ rebuild projection,
      (rebuildProjection flatMarket "account" "2024-01-03" none db).value = .ok rebuild ∧
      ledgerProjection "shadow" db.paper = .ok projection ∧
      ∀ row ∈ rebuild.rows, AgreesOnCost projection row ↔
        ∀ q ∈ symbolQuantities "shadow" row.symbol db.paper.ledger, 0 < q := by
  intro db
  have hfresh : ∀ entry ∈ AccountDb.empty.paper.ledger,
      entry.sessionId ≠ "shadow" ∧ entry.paperAccountId ≠ some "account" :=
    fun _ h => absurd h List.not_mem_nil
  have hcut : (accountEntries db.paper "account" 1).all (inCut db.paper "2024-01-03") = true := by
    decide +kernel
  have hreturns : (rebuildProjection flatMarket "account" "2024-01-03" none db).value.isOk =
      true := by
    decide +kernel
  obtain ⟨rebuild, hvalue⟩ : ∃ rebuild,
      (rebuildProjection flatMarket "account" "2024-01-03" none db).value = .ok rebuild := by
    cases hcase : (rebuildProjection flatMarket "account" "2024-01-03" none db).value with
    | ok rebuild => exact ⟨rebuild, rfl⟩
    | error e =>
      rw [hcase] at hreturns
      cases hreturns
  obtain ⟨projection, hprojection, hrows⟩ := rebuild_agrees_iff_only_bought flatMarket
    plainAccount AccountDb.empty plainOpened (plainAccount.account "china") hfresh (by rfl)
    plainSteps plainSteps_ownFills plainSteps_neverOversells "2024-01-03" none rebuild
    (fun entry hentry => List.all_eq_true.mp hcut entry hentry) hvalue
  exact ⟨rebuild, projection, hvalue, hprojection, hrows⟩

/-- One hundred shares bought at five and forty of them sold: the ledger
projection holds sixty at five, and the rebuild holds them at a cost of five
hundred. -/
theorem rebuild_disagrees_after_sell :
    let db := runAccount flatMarket "account" (plainSteps ++ nextSteps) plainOpened
    (∀ symbol, NeverOversells (symbolQuantities "shadow" symbol db.paper.ledger)) ∧
    ∃ rebuild projection,
      (rebuildProjection flatMarket "account" "2024-01-04" none db).value = .ok rebuild ∧
      ledgerProjection "shadow" db.paper = .ok projection ∧
      ¬ ∀ row ∈ rebuild.rows, AgreesOnCost projection row := by
  intro db
  have hquantities : symbolQuantities "shadow" "600000" db.paper.ledger = [100, -40] := by
    decide +kernel
  have hsymbols : db.paper.ledger.all (fun entry =>
      entry.symbol = none ∨ entry.symbol = some "600000") = true := by
    decide +kernel
  have hrebuild : (rebuildProjection flatMarket "account" "2024-01-04" none db).value.map
      (fun rebuild => rebuild.rows.map (fun row => (row.symbol, row.averageCost))) =
        .ok [("600000", 25 / 3)] := by
    decide +kernel
  have hprojection : (ledgerProjection "shadow" db.paper).map (fun projection =>
      (projection.position? "600000").map ProjectedPosition.averagePrice) = .ok (some 5) := by
    decide +kernel
  refine ⟨?_, ?_⟩
  · intro symbol n
    by_cases hsymbol : symbol = "600000"
    · rw [hsymbol, hquantities]
      rcases n with _ | _ | n
      · simp
      · simp
      · norm_num
    · have hnone : symbolQuantities "shadow" symbol db.paper.ledger = [] := by
        rw [symbolQuantities, List.filterMap_eq_nil_iff]
        intro entry hentry
        have hentrySymbol := of_decide_eq_true (List.all_eq_true.mp hsymbols entry hentry)
        apply if_neg
        intro hall
        rw [hall.2.2] at hentrySymbol
        rcases hentrySymbol with h | h
        · cases h
        · exact hsymbol (Option.some.inj h)
      rw [hnone]
      simp
  · cases hvalue : (rebuildProjection flatMarket "account" "2024-01-04" none db).value with
    | error e =>
      rw [hvalue] at hrebuild
      cases hrebuild
    | ok rebuild =>
      cases hledger : ledgerProjection "shadow" db.paper with
      | error e =>
        rw [hledger] at hprojection
        cases hprojection
      | ok projection =>
        rw [hvalue] at hrebuild
        rw [hledger] at hprojection
        have hrows : rebuild.rows.map (fun row => (row.symbol, row.averageCost)) =
            [("600000", 25 / 3)] := Except.ok.inj hrebuild
        have haverage : (projection.position? "600000").map ProjectedPosition.averagePrice =
            some 5 := Except.ok.inj hprojection
        refine ⟨rebuild, projection, rfl, rfl, ?_⟩
        intro hagrees
        have hmem : (("600000", 25 / 3) : String × ℚ) ∈
            rebuild.rows.map (fun row => (row.symbol, row.averageCost)) := by
          rw [hrows]
          exact List.mem_singleton_self _
        obtain ⟨row, hrow, hread⟩ := List.mem_map.mp hmem
        obtain ⟨hsymbol, hcost⟩ := Prod.mk.inj hread
        obtain ⟨item, hitem, -, hsame, -⟩ := hagrees row hrow
        rw [← hsymbol, hitem, Option.map_some, Option.some.injEq, ← hsame, hcost] at haverage
        norm_num at haverage

end LocalPlatform.Accounts
