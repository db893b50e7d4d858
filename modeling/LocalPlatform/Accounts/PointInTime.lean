import LocalPlatform.Accounts.Projection

/-!
# Rebuilds at a point in time

The ledger of an account is numbered, and when its cycles trade in order of
their dates it is a dated log.  A rebuild at a date reads a cut of that log,
and a cut is the prefix up to its greatest number.  So a checkpoint, which is
kept under that number, is the digest of the same prefix whatever the date of
the rebuild that wrote it.

`AccountInv` carries the dated log and the digests of the checkpoints.  One
fill and one rebuild keep it, and a run in date order keeps it throughout.
-/

namespace LocalPlatform.Accounts

open Paper Transaction DatedLogs

/-! ## Runs -/

/-- What happens to an account: an intent is captured, a transition or a fill is
recorded, a cycle is opened or moves on, or the projection is rebuilt. -/
inductive AccountStep where
  | intent (request : IntentRequest)
  | transition (call : TransitionCall)
  | fill (request : FillRequest)
  | openCycle (cycle : CycleContext)
  | moveCycle (id status : String) (paperRunId : Option RunId)
  | rebuild (valuationDate : String) (benchmarkStartDate : Option String)

/-- The database after a step, whether it commits or raises. -/
def AccountStep.run (market : MarketData) (accountId : String) :
    AccountStep → AccountDb → AccountDb
  | .intent request, db => { db with paper := (recordIntent request db.paper).state }
  | .transition call, db => { db with paper := settle call.run db.paper }
  | .fill request, db => { db with paper := settle (recordFillAndLedger request) db.paper }
  | .openCycle cycle, db =>
    { db with paper := { db.paper with cycles := db.paper.cycles ++ [cycle] } }
  | .moveCycle id status paperRunId, db =>
    { db with paper := { db.paper with cycles := db.paper.cycles.map (fun cycle =>
        if cycle.id = id then { cycle with status := status, paperRunId := paperRunId }
        else cycle) } }
  | .rebuild valuationDate start, db =>
    (rebuildProjection market accountId valuationDate start db).state

def runAccount (market : MarketData) (accountId : String) (steps : List AccountStep)
    (db : AccountDb) : AccountDb :=
  steps.foldl (fun db step => step.run market accountId db) db

/-- The trading date of the cycle that wrote an entry.  An entry without a
cycle is dated before all others. -/
def entryDate (db : Db) (entry : LedgerEntry) : WithBot String :=
  match entry.executionCycleId with
  | none => ⊥
  | some id =>
    match findCycle db id with
    | some cycle => cycle.tradingDate
    | none => ⊥

/-- A fill of the account is written by a known cycle that trades no earlier
than the cycles that wrote before it, and a new cycle has a new identifier. -/
def InDateOrder (accountId : String) (db : Db) : AccountStep → Prop
  | .fill request => ∀ intent, getIntent db request.intentId = some intent →
      (request.context intent).paperAccountId = some accountId →
        ∃ id cycle, (request.context intent).executionCycleId = some id ∧
          findCycle db id = some cycle ∧
          ∀ entry ∈ accountEntries db accountId 1, entryDate db entry ≤ cycle.tradingDate
  | .openCycle cycle => findCycle db cycle.id = none
  | _ => True

/-- Every step of a run satisfies `P` where it happens. -/
def EachStep (P : Db → AccountStep → Prop) (market : MarketData) (accountId : String) :
    List AccountStep → AccountDb → Prop
  | [], _ => True
  | step :: steps, db =>
    P db.paper step ∧ EachStep P market accountId steps (step.run market accountId db)

/-- Every step of a run is in date order where it happens. -/
def RunsInDateOrder (market : MarketData) (accountId : String) :
    List AccountStep → AccountDb → Prop :=
  EachStep (InDateOrder accountId) market accountId

variable {accountId : String}

theorem runAccount_invariant {market : MarketData} {P : Db → AccountStep → Prop}
    {Inv : AccountDb → Prop}
    (hstep : ∀ step db, Inv db → P db.paper step → Inv (step.run market accountId db))
    (steps : List AccountStep) : ∀ {db : AccountDb}, Inv db →
      EachStep P market accountId steps db → Inv (runAccount market accountId steps db) := by
  induction steps with
  | nil =>
    intro db h _
    exact h
  | cons step steps ih =>
    intro db h hsteps
    exact ih (hstep step db h hsteps.1) hsteps.2

/-! ## The invariant -/

/-- The account has a dated ledger, and its checkpoints are digests of prefixes
of it. -/
structure AccountInv (accountId : String) (db : AccountDb) : Prop where
  account : ∃ account, db.accounts accountId = some account ∧ account.currentGeneration = 1
  log : DatedLog entryNumber (entryDate db.paper) (accountEntries db.paper accountId 1)
  cycles : ∀ entry ∈ accountEntries db.paper accountId 1, ∀ id,
    entry.executionCycleId = some id → (findCycle db.paper id).isSome
  checkpoints : ∀ row ∈ db.checkpoints, row.paperAccountId = accountId → row.generation = 1 →
    row.sourceLedgerSequence ≤ top entryNumber (accountEntries db.paper accountId 1) ∧
      row.digest = entriesDigest accountId 1
        (upTo entryNumber row.sourceLedgerSequence (accountEntries db.paper accountId 1))

variable {db db' : Db}

theorem accountEntries_append {more : List LedgerEntry} (h : db'.ledger = db.ledger ++ more)
    (accountId : String) (generation : Nat) :
    accountEntries db' accountId generation = accountEntries db accountId generation ++
      more.filter (fun entry => entry.paperAccountId == some accountId &&
        entry.accountGeneration == some generation) := by
  rw [accountEntries, h, List.filter_append, accountEntries]

theorem rebuildEntries_eq_cut (hcycles : ∀ entry ∈ accountEntries db accountId 1, ∀ id,
      entry.executionCycleId = some id → (findCycle db id).isSome) (valuationDate : String) :
    rebuildEntries db accountId 1 valuationDate =
      cut (entryDate db) valuationDate (accountEntries db accountId 1) := by
  apply List.filter_congr
  intro entry hentry
  unfold inCut entryDate
  cases hid : entry.executionCycleId with
  | none => simp
  | some id =>
    obtain ⟨cycle, hcycle⟩ := Option.isSome_iff_exists.mp (hcycles entry hentry id hid)
    simp [hcycle]

/-- A known cycle stays known, and keeps its trading date. -/
def KeepsCycles (db db' : Db) : Prop :=
  ∀ id cycle, findCycle db id = some cycle →
    ∃ cycle', findCycle db' id = some cycle' ∧ cycle'.tradingDate = cycle.tradingDate

theorem keepsCycles_of_eq (h : db'.cycles = db.cycles) : KeepsCycles db db' := by
  intro id cycle hcycle
  refine ⟨cycle, ?_, rfl⟩
  rw [findCycle, h]
  exact hcycle

theorem KeepsCycles.trans {db'' : Db} (h : KeepsCycles db db') (h' : KeepsCycles db' db'') :
    KeepsCycles db db'' := by
  intro id cycle hcycle
  obtain ⟨cycle', hcycle', hdate⟩ := h id cycle hcycle
  obtain ⟨cycle'', hcycle'', hdate'⟩ := h' id cycle' hcycle'
  exact ⟨cycle'', hcycle'', hdate'.trans hdate⟩

theorem keepsCycles_append {more : List CycleContext} (h : db'.cycles = db.cycles ++ more) :
    KeepsCycles db db' := by
  intro id cycle hcycle
  refine ⟨cycle, ?_, rfl⟩
  rw [findCycle] at hcycle ⊢
  rw [h, List.find?_append, hcycle, Option.some_or]

theorem keepsCycles_map {f : CycleContext → CycleContext} (h : db'.cycles = db.cycles.map f)
    (hf : ∀ cycle, (f cycle).id = cycle.id ∧ (f cycle).tradingDate = cycle.tradingDate) :
    KeepsCycles db db' := by
  intro id cycle hcycle
  refine ⟨f cycle, ?_, (hf cycle).2⟩
  have hids : (fun cycle => cycle.id == id) ∘ f = fun cycle => cycle.id == id := by
    funext cycle
    simp [(hf cycle).1]
  rw [findCycle] at hcycle ⊢
  rw [h, List.find?_map, hids, hcycle, Option.map_some]

theorem entryDate_keeps {entry : LedgerEntry} (hcycles : KeepsCycles db db')
    (hknown : ∀ id, entry.executionCycleId = some id → (findCycle db id).isSome) :
    entryDate db' entry = entryDate db entry := by
  unfold entryDate
  cases hid : entry.executionCycleId with
  | none => rfl
  | some id =>
    obtain ⟨cycle, hcycle⟩ := Option.isSome_iff_exists.mp (hknown id hid)
    obtain ⟨cycle', hcycle', hdate⟩ := hcycles id cycle hcycle
    simp only [hcycle, hcycle', hdate]

theorem datedLog_congr {date date' : LedgerEntry → WithBot String} {log : List LedgerEntry}
    (h : ∀ entry ∈ log, date' entry = date entry) (hlog : DatedLog entryNumber date log) :
    DatedLog entryNumber date' log := by
  refine ⟨hlog.positive, hlog.numbers, ?_⟩
  refine hlog.dates.imp_of_mem ?_
  intro a b ha hb hle
  rw [h a ha, h b hb]
  exact hle

theorem AccountInv.of_ledger_eq {db db' : AccountDb} (h : AccountInv accountId db)
    (hledger : db'.paper.ledger = db.paper.ledger) (hcycles : KeepsCycles db.paper db'.paper)
    (haccounts : ∃ account, db'.accounts accountId = some account ∧ account.currentGeneration = 1)
    (hcheckpoints : ∀ row ∈ db'.checkpoints, row.paperAccountId = accountId →
      row.generation = 1 → row ∈ db.checkpoints ∨
        (row.sourceLedgerSequence ≤ top entryNumber (accountEntries db.paper accountId 1) ∧
          row.digest = entriesDigest accountId 1
            (upTo entryNumber row.sourceLedgerSequence (accountEntries db.paper accountId 1)))) :
    AccountInv accountId db' := by
  have hentries : accountEntries db'.paper accountId 1 = accountEntries db.paper accountId 1 := by
    rw [accountEntries, hledger, accountEntries]
  refine ⟨haccounts, ?_, ?_, ?_⟩
  · rw [hentries]
    exact datedLog_congr (fun entry hentry => entryDate_keeps hcycles (h.cycles entry hentry)) h.log
  · intro entry hentry id hid
    rw [hentries] at hentry
    obtain ⟨cycle, hcycle⟩ := Option.isSome_iff_exists.mp (h.cycles entry hentry id hid)
    obtain ⟨cycle', hcycle', -⟩ := hcycles id cycle hcycle
    rw [hcycle']
    rfl
  · intro row hrow haccount hgeneration
    rw [hentries]
    rcases hcheckpoints row hrow haccount hgeneration with hold | hnew
    · exact h.checkpoints row hold haccount hgeneration
    · exact hnew

/-! ## One fill -/

theorem numbered_numbers (entries : List LedgerEntry) :
    ∀ sequence, (numbered true sequence entries).map entryNumber =
      List.range' (sequence + 1) entries.length := by
  induction entries with
  | nil =>
    intro sequence
    rfl
  | cons entry entries ih =>
    intro sequence
    rw [numbered_cons, List.map_cons, ih, List.length_cons, List.range'_succ]
    rfl

theorem maxSequence_eq_top {context : AccountContext}
    (haccount : context.paperAccountId = some accountId)
    (hgeneration : context.accountGeneration = some 1) :
    maxSequence context db.ledger = top entryNumber (accountEntries db accountId 1) := by
  have hfold : ∀ (l : List LedgerEntry) (m : Nat),
      (l.filterMap (fun entry => if entry.paperAccountId = some accountId ∧
        entry.accountGeneration = some 1 then entry.ledgerSequence else none)).foldl max m =
      ((l.filter (fun entry => entry.paperAccountId == some accountId &&
        entry.accountGeneration == some 1)).map entryNumber).foldl max m := by
    intro l
    induction l with
    | nil =>
      intro m
      rfl
    | cons entry l ih =>
      intro m
      by_cases hmine : entry.paperAccountId = some accountId ∧ entry.accountGeneration = some 1
      · rw [List.filter_cons_of_pos (by simpa using hmine), List.map_cons, List.foldl_cons]
        cases hnumber : entry.ledgerSequence with
        | none =>
          rw [List.filterMap_cons_none (by simp [hnumber]), ih, entryNumber, hnumber]
          simp
        | some n =>
          rw [List.filterMap_cons_some (b := n) (by simp [hmine, hnumber]), List.foldl_cons, ih,
            entryNumber, hnumber]
          rfl
      · rw [List.filter_cons_of_neg (by simpa using hmine),
          List.filterMap_cons_none (by simp [hmine]), ih]
  rw [maxSequence, accountSequences, haccount, hgeneration, hfold]
  rfl

/-- Entries of one known cycle, numbered after all others and dated no earlier,
keep the invariant. -/
theorem AccountInv.append {db : AccountDb} (h : AccountInv accountId db) {paper : Db}
    {more : List LedgerEntry} {id : String} {cycle : CycleContext}
    (hcycles : paper.cycles = db.paper.cycles)
    (hentries : accountEntries paper accountId 1 = accountEntries db.paper accountId 1 ++ more)
    (hcycle : findCycle db.paper id = some cycle)
    (hwriter : ∀ entry ∈ more, entry.executionCycleId = some id) (hnumbers : more.map entryNumber =
      List.range' (top entryNumber (accountEntries db.paper accountId 1) + 1) more.length)
    (hdates : ∀ entry ∈ accountEntries db.paper accountId 1,
      entryDate db.paper entry ≤ cycle.tradingDate) :
    AccountInv accountId { db with paper := paper } := by
  have hfind : ∀ i, findCycle paper i = findCycle db.paper i := by
    intro i
    rw [findCycle, hcycles, findCycle]
  have hsame : entryDate paper = entryDate db.paper := by
    funext entry
    simp only [entryDate, hfind]
  have hlater : ∀ entry ∈ more,
      top entryNumber (accountEntries db.paper accountId 1) < entryNumber entry := by
    intro entry hentry
    have hmem := List.mem_map_of_mem (f := entryNumber) hentry
    rw [hnumbers, List.mem_range'_1] at hmem
    omega
  have hdate : ∀ entry ∈ more, entryDate db.paper entry = cycle.tradingDate := by
    intro entry hentry
    simp only [entryDate, hwriter entry hentry, hcycle]
  refine ⟨h.account, ?_, ?_, ?_⟩
  · show DatedLog entryNumber (entryDate paper) (accountEntries paper accountId 1)
    rw [hentries, hsame]
    apply h.log.append
    · refine ⟨fun entry hentry => Nat.lt_of_le_of_lt (Nat.zero_le _) (hlater entry hentry), ?_, ?_⟩
      · rw [← List.pairwise_map, hnumbers]
        exact List.pairwise_lt_range'
      · refine List.pairwise_of_forall_mem_list ?_
        intro a ha b hb
        rw [hdate a ha, hdate b hb]
    · intro a ha b hb
      exact Nat.lt_of_le_of_lt (number_le_top ha) (hlater b hb)
    · intro a ha b hb
      rw [hdate b hb]
      exact hdates a ha
  · intro entry hentry id' hid'
    show (findCycle paper id').isSome
    rw [hentries] at hentry
    rw [hfind]
    rcases List.mem_append.mp hentry with hold | hnew
    · exact h.cycles entry hold id' hid'
    · rw [hwriter entry hnew, Option.some.injEq] at hid'
      rw [← hid', hcycle]
      rfl
  · intro row hrow haccount hgeneration
    obtain ⟨hle, hdigest⟩ := h.checkpoints row hrow haccount hgeneration
    rw [hentries]
    refine ⟨hle.trans ?_, ?_⟩
    · apply top_le
      intro entry hentry
      exact number_le_top (List.mem_append_left _ hentry)
    · rw [hdigest, upTo_append_later]
      intro entry hentry
      exact Nat.lt_of_le_of_lt hle (hlater entry hentry)

theorem AccountInv.fill (hid : accountId ≠ "") {db : AccountDb} (h : AccountInv accountId db)
    {request : FillRequest} (horder : InDateOrder accountId db.paper (.fill request)) {fill : Fill}
    {paper : Db} (hrun : recordFillAndLedger request db.paper = .ok (fill, paper)) :
    AccountInv accountId { db with paper := paper } := by
  obtain ⟨intent, hintent, hcase⟩ := recordFillAndLedger_cases hrun
  rcases hcase with ⟨-, rfl⟩ | ⟨-, -, -, rfl⟩
  · exact h
  have hcolumns : ∀ tagged sequence, ∀ entry ∈ numbered tagged sequence
      (fillEntries intent fill (request.context intent) request.currency),
      entry.paperAccountId = (request.context intent).paperAccountId ∧
        entry.accountGeneration = (request.context intent).accountGeneration ∧
        entry.executionCycleId = (request.context intent).executionCycleId := by
    intro tagged sequence entry hentry
    obtain ⟨plain, hplain, n, rfl⟩ := mem_numbered hentry
    obtain ⟨-, haccount, hgeneration, hcycle, -⟩ := mem_fillEntries hplain
    exact ⟨haccount, hgeneration, hcycle⟩
  have hledger : accountEntries (db.paper.addFill intent fill (request.context intent)
      request.currency) accountId 1 = _ := accountEntries_append rfl accountId 1
  by_cases hmine : (request.context intent).paperAccountId = some accountId ∧
      (request.context intent).accountGeneration = some 1
  · obtain ⟨id, cycle, hcycleId, hcycle, hdates⟩ := horder intent hintent hmine.1
    have htagged : isTagged (request.context intent).paperAccountId = true := by
      rw [hmine.1]
      simpa [isTagged] using hid
    rw [htagged, fillSequence, if_pos htagged, maxSequence_eq_top hmine.1 hmine.2,
      List.filter_eq_self.mpr (by
        intro entry hentry
        simp [hcolumns _ _ entry hentry, hmine])] at hledger
    refine h.append rfl hledger hcycle ?_ ?_ hdates
    · intro entry hentry
      rw [(hcolumns _ _ entry hentry).2.2, hcycleId]
    · rw [numbered_numbers, numbered, List.length_mapIdx]
  · rw [List.filter_eq_nil_iff.mpr (by
      intro entry hentry hboth
      obtain ⟨haccount, hgeneration, -⟩ := hcolumns _ _ entry hentry
      rw [haccount, hgeneration] at hboth
      exact hmine (by simpa using hboth)), List.append_nil] at hledger
    refine ⟨h.account, ?_, ?_, ?_⟩
    · show DatedLog entryNumber (entryDate db.paper) _
      rw [hledger]
      exact h.log
    · intro entry hentry
      rw [hledger] at hentry
      exact h.cycles entry hentry
    · intro row hrow haccount hgeneration
      rw [hledger]
      exact h.checkpoints row hrow haccount hgeneration

/-! ## One rebuild -/

theorem AccountInv.rebuild_cases {db : AccountDb} (h : AccountInv accountId db)
    (market : MarketData) (valuationDate : String) (start : Option String) :
    ((∃ symbol, (rebuildProjection market accountId valuationDate start db).value =
          .error (.marketDataUnavailable symbol)) ∧ ¬ market.Available ∧
        (rebuildProjection market accountId valuationDate start db).state =
          db.setHealth accountId "degraded") ∨
      ∃ rebuild isNew,
        (rebuildProjection market accountId valuationDate start db).value = .ok rebuild ∧
        IsRebuildOf accountId 1 (rebuildEntries db.paper accountId 1 valuationDate) rebuild ∧
        (rebuildProjection market accountId valuationDate start db).state =
          storeRebuild accountId 1 rebuild isNew db := by
  obtain ⟨account, haccount, hgeneration⟩ := h.account
  rw [rebuildProjection_run haccount, hgeneration]
  cases hcompute : computeRebuild market accountId account
      (rebuildEntries db.paper accountId 1 valuationDate)
      (start <|> firstCycleDate db.paper accountId 1 valuationDate)
      (db.projections accountId) valuationDate with
  | error e =>
    obtain ⟨⟨symbol, rfl⟩, hunavailable⟩ := computeRebuild_error hcompute
    exact Or.inl ⟨⟨symbol, rfl⟩, hunavailable, rfl⟩
  | ok rebuild =>
    obtain ⟨hrebuild, -⟩ := computeRebuild_ok hcompute
    rw [hgeneration] at hrebuild
    have hagrees : ∀ row, findCheckpoint db accountId 1
        rebuild.projection.sourceLedgerSequence = some row →
          row.digest = rebuild.projection.sourceCheckpointDigest := by
      intro row hrow
      have hkey := List.find?_some hrow
      simp only [Bool.and_eq_true, beq_iff_eq] at hkey
      obtain ⟨⟨hid, hrowGeneration⟩, hsequence⟩ := hkey
      -- The rebuild read the prefix that the checkpoint is the digest of.
      rw [(h.checkpoints row (List.mem_of_find?_eq_some hrow) hid hrowGeneration).2,
        hrebuild.digest, hsequence, hrebuild.sequence, rebuildEntries_eq_cut h.cycles,
        ← h.log.cut_eq_upTo]
    obtain ⟨hvalue, hstate⟩ := commitRebuild_agrees hagrees
    exact Or.inr ⟨rebuild, _, hvalue, hrebuild, hstate⟩

theorem AccountInv.storeRebuild {db : AccountDb} (h : AccountInv accountId db)
    {valuationDate : String} {rebuild : Rebuild} (isNew : Bool)
    (hrebuild : IsRebuildOf accountId 1 (rebuildEntries db.paper accountId 1 valuationDate)
      rebuild) :
    AccountInv accountId (storeRebuild accountId 1 rebuild isNew db) := by
  refine h.of_ledger_eq rfl (keepsCycles_of_eq rfl) h.account ?_
  intro row hrow _ _
  rcases List.mem_append.mp hrow with hold | hnew
  · exact Or.inl hold
  · cases isNew with
    | false => cases hnew
    | true =>
      rw [List.mem_singleton.mp hnew]
      rw [rebuildEntries_eq_cut h.cycles] at hrebuild
      refine Or.inr ⟨?_, ?_⟩
      · show rebuild.projection.sourceLedgerSequence ≤ _
        rw [hrebuild.sequence]
        exact top_le (fun entry hentry => number_le_top (List.mem_of_mem_filter hentry))
      · show rebuild.projection.sourceCheckpointDigest = _
        rw [hrebuild.digest, h.log.cut_eq_upTo, hrebuild.sequence, ← h.log.cut_eq_upTo]

/-! ## A run -/

theorem recordIntent_frame (request : IntentRequest) (db : Db) :
    (recordIntent request db).state.ledger = db.ledger ∧
      (recordIntent request db).state.cycles = db.cycles := by
  have hwp : TxM.wp (fun _ => True) (recordIntent request)
      (fun _ t => t.ledger = db.ledger ∧ t.cycles = db.cycles) db := by
    apply TxM.wp_bind
    apply TxM.wp_tx
    · intro r t hinsert
      refine ⟨trivial, ?_⟩
      have hsame : t.ledger = db.ledger ∧ t.cycles = db.cycles := by
        unfold insertIntent at hinsert
        split at hinsert
        · rw [← (ok_inj hinsert).2]
          exact ⟨rfl, rfl⟩
        · split at hinsert
          · cases hinsert
          · rw [← (ok_inj hinsert).2]
            exact ⟨rfl, rfl⟩
      obtain ⟨intent, created⟩ := r
      cases created with
      | false => exact TxM.wp_pure hsame
      | true =>
        apply TxM.wp_bind
        apply TxM.wp_tx
        · intro row u hrow
          refine ⟨trivial, TxM.wp_read ?_⟩
          obtain ⟨_, _, -, -, -, -, hcase⟩ := appendTransition_cases hrow
          rcases hcase with ⟨-, rfl⟩ | ⟨-, -, -, rfl⟩
          · exact hsame
          · exact hsame
        · intro e _
          exact hsame
    · intro e _
      exact ⟨rfl, rfl⟩
  exact hwp.2

theorem transition_frame (call : TransitionCall) (db : Db) :
    (settle call.run db).ledger = db.ledger ∧ (settle call.run db).cycles = db.cycles := by
  cases hrun : call.run db with
  | error e =>
    rw [settle_error hrun]
    exact ⟨rfl, rfl⟩
  | ok r =>
    rw [settle_ok hrun]
    obtain ⟨_, _, -, -, -, -, hcase⟩ := appendTransition_cases hrun
    rcases hcase with ⟨-, hdb⟩ | ⟨-, -, -, hdb⟩
    · rw [hdb]
      exact ⟨rfl, rfl⟩
    · rw [hdb]
      exact ⟨rfl, rfl⟩

theorem rebuildProjection_paper (market : MarketData) (accountId valuationDate : String)
    (start : Option String) (db : AccountDb) :
    (rebuildProjection market accountId valuationDate start db).state.paper = db.paper := by
  cases haccount : db.accounts accountId with
  | none =>
    have hmissing : (TxM.read (getAccount accountId) db).value =
        .error (.paper (.keyError "Paper account not found.")) := by
      simp only [TxM.read, getAccount, haccount]
    rw [rebuildProjection, TxM.bind_error hmissing]
    rfl
  | some account =>
    rw [rebuildProjection_run haccount]
    generalize computeRebuild market _ _ _ _ _ _ = computed
    cases computed with
    | error e => rfl
    | ok rebuild =>
      rw [commitRebuild, TxM.bind_ok rfl]
      simp only [TxM.read]
      split_ifs
      · rfl
      · rfl

theorem AccountStep.run_append (market : MarketData) (accountId : String) (step : AccountStep)
    (db : AccountDb) :
    (∃ more, (step.run market accountId db).paper.ledger = db.paper.ledger ++ more) ∧
      KeepsCycles db.paper (step.run market accountId db).paper := by
  have hsame : (∃ more, db.paper.ledger = db.paper.ledger ++ more) ∧
      KeepsCycles db.paper db.paper :=
    ⟨⟨[], (List.append_nil _).symm⟩, keepsCycles_of_eq rfl⟩
  cases step with
  | intent request =>
    obtain ⟨hledger, hcycles⟩ := recordIntent_frame request db.paper
    refine ⟨⟨[], ?_⟩, keepsCycles_of_eq hcycles⟩
    rw [List.append_nil]
    exact hledger
  | transition call =>
    obtain ⟨hledger, hcycles⟩ := transition_frame call db.paper
    refine ⟨⟨[], ?_⟩, keepsCycles_of_eq hcycles⟩
    rw [List.append_nil]
    exact hledger
  | fill request =>
    simp only [AccountStep.run]
    cases hrun : recordFillAndLedger request db.paper with
    | error e =>
      rw [settle_error hrun]
      exact hsame
    | ok r =>
      rw [settle_ok hrun]
      obtain ⟨_, _, hcase⟩ := recordFillAndLedger_cases hrun
      rcases hcase with ⟨-, hdb⟩ | ⟨-, -, -, hdb⟩
      · rw [hdb]
        exact hsame
      · rw [hdb]
        exact ⟨⟨_, rfl⟩, keepsCycles_of_eq rfl⟩
  | openCycle row => exact ⟨⟨[], (List.append_nil _).symm⟩, keepsCycles_append rfl⟩
  | moveCycle id status paperRunId =>
    refine ⟨⟨[], (List.append_nil _).symm⟩, keepsCycles_map rfl ?_⟩
    intro cycle
    split_ifs
    · exact ⟨rfl, rfl⟩
    · exact ⟨rfl, rfl⟩
  | rebuild valuationDate start =>
    simp only [AccountStep.run, rebuildProjection_paper]
    exact hsame

theorem runAccount_append (market : MarketData) (accountId : String) (steps : List AccountStep) :
    ∀ db : AccountDb,
      (∃ more, (runAccount market accountId steps db).paper.ledger = db.paper.ledger ++ more) ∧
        KeepsCycles db.paper (runAccount market accountId steps db).paper := by
  induction steps with
  | nil =>
    intro db
    exact ⟨⟨[], (List.append_nil _).symm⟩, keepsCycles_of_eq rfl⟩
  | cons step steps ih =>
    intro db
    obtain ⟨⟨entries, hentries⟩, hcycles⟩ := step.run_append market accountId db
    obtain ⟨⟨entries', hentries'⟩, hcycles'⟩ := ih (step.run market accountId db)
    refine ⟨⟨entries ++ entries', ?_⟩, hcycles.trans hcycles'⟩
    rw [← List.append_assoc, ← hentries, ← hentries']
    rfl

theorem AccountInv.step (hid : accountId ≠ "") {db : AccountDb} (h : AccountInv accountId db)
    (market : MarketData) {step : AccountStep} (horder : InDateOrder accountId db.paper step) :
    AccountInv accountId (step.run market accountId db) := by
  -- Every step but a fill leaves the ledger as it is.
  have hframe : ∀ db' : AccountDb, db'.paper.ledger = db.paper.ledger →
      KeepsCycles db.paper db'.paper → db'.accounts = db.accounts →
      db'.checkpoints = db.checkpoints → AccountInv accountId db' := by
    intro db' hledger hcycles haccounts hcheckpoints
    refine h.of_ledger_eq hledger hcycles (by rw [haccounts]; exact h.account) ?_
    intro row hrow _ _
    rw [hcheckpoints] at hrow
    exact Or.inl hrow
  cases step with
  | intent request =>
    exact hframe _ (recordIntent_frame request db.paper).1
      ((AccountStep.intent request).run_append market accountId db).2 rfl rfl
  | transition call =>
    exact hframe _ (transition_frame call db.paper).1
      ((AccountStep.transition call).run_append market accountId db).2 rfl rfl
  | fill request =>
    simp only [AccountStep.run]
    cases hrun : recordFillAndLedger request db.paper with
    | error e =>
      rw [settle_error hrun]
      exact h
    | ok r =>
      rw [settle_ok hrun]
      exact h.fill hid horder hrun
  | openCycle row =>
    exact hframe _ rfl ((AccountStep.openCycle row).run_append market accountId db).2 rfl rfl
  | moveCycle id status paperRunId =>
    exact hframe _ rfl ((AccountStep.moveCycle id status paperRunId).run_append
      market accountId db).2 rfl rfl
  | rebuild valuationDate start =>
    simp only [AccountStep.run]
    rcases h.rebuild_cases market valuationDate start with
      ⟨-, -, hstate⟩ | ⟨rebuild, isNew, -, hrebuild, hstate⟩
    · rw [hstate]
      exact hframe _ rfl (keepsCycles_of_eq rfl) rfl rfl
    · rw [hstate]
      exact h.storeRebuild isNew hrebuild

theorem runAccount_inv (hid : accountId ≠ "") (market : MarketData) (steps : List AccountStep)
    {db : AccountDb} (h : AccountInv accountId db)
    (horder : RunsInDateOrder market accountId steps db) :
    AccountInv accountId (runAccount market accountId steps db) :=
  runAccount_invariant (fun _ _ hdb hstep => hdb.step hid market hstep) steps h horder

/-! ## Accounts from their creation on -/

/-- The identifiers that a new account draws are new. -/
structure FreshAccount (request : AccountRequest) (db : AccountDb) : Prop where
  nonempty : request.accountId ≠ ""
  ledger : ∀ entry ∈ db.paper.ledger, entry.paperAccountId ≠ some request.accountId
  checkpoints : ∀ row ∈ db.checkpoints, row.paperAccountId ≠ request.accountId

theorem entriesDigest_opening (request : AccountRequest) :
    entriesDigest request.accountId 1 [request.openingEntry] =
      openingDigest request.accountId (round8 request.initialCash) := by
  simp [entriesDigest, openingDigest, entriesCash, heldSymbols, movesPosition, top, entryNumber,
    AccountRequest.openingEntry, accountOpeningEntry, round8_round8]

theorem accountInv_created {request : AccountRequest} {base opened : AccountDb}
    {account : PaperAccount} (hfresh : FreshAccount request base)
    (hcreate : createAccount request base = .ok (account, opened)) :
    AccountInv request.accountId opened := by
  obtain ⟨hgeneration, haccount, hledger, hcycles, hcheckpoints⟩ := createAccount_ok hcreate
  have hentries : accountEntries opened.paper request.accountId 1 = [request.openingEntry] := by
    have hold : accountEntries base.paper request.accountId 1 = [] := by
      rw [accountEntries, List.filter_eq_nil_iff]
      intro entry hentry hboth
      exact hfresh.ledger entry hentry (by simpa using (Bool.and_eq_true_iff.mp hboth).1)
    rw [accountEntries_append hledger, hold]
    simp [AccountRequest.openingEntry, accountOpeningEntry]
  refine ⟨⟨account, haccount, hgeneration⟩, ?_, ?_, ?_⟩
  · rw [hentries]
    refine ⟨?_, List.pairwise_singleton _ _, List.pairwise_singleton _ _⟩
    intro entry hentry
    rw [List.mem_singleton.mp hentry]
    exact Nat.one_pos
  · intro entry hentry id hid
    rw [hentries] at hentry
    rw [List.mem_singleton.mp hentry] at hid
    cases hid
  · intro row hrow hid _
    rw [hcheckpoints] at hrow
    rcases List.mem_append.mp hrow with hold | hnew
    · exact absurd hid (hfresh.checkpoints row hold)
    · rw [List.mem_singleton.mp hnew, hentries]
      refine ⟨le_rfl, ?_⟩
      rw [show upTo entryNumber request.openingCheckpoint.sourceLedgerSequence
        [request.openingEntry] = [request.openingEntry] from rfl, entriesDigest_opening]
      rfl

/-- Two rebuilds agree on what they read from the ledger. -/
structure SameLedgerState (rebuild rebuild' : Rebuild) : Prop where
  cash : rebuild'.projection.cash = rebuild.projection.cash
  quantities : rebuild'.rows.map (fun row => (row.symbol, row.quantity)) =
    rebuild.rows.map (fun row => (row.symbol, row.quantity))
  sequence : rebuild'.projection.sourceLedgerSequence = rebuild.projection.sourceLedgerSequence
  digest : rebuild'.projection.sourceCheckpointDigest = rebuild.projection.sourceCheckpointDigest

theorem rebuildEntries_later {db db' : AccountDb} (h : AccountInv accountId db)
    (h' : AccountInv accountId db') {entries : List LedgerEntry}
    (hledger : db'.paper.ledger = db.paper.ledger ++ entries)
    (hcycles : KeepsCycles db.paper db'.paper) {valuationDate : String}
    (hlater : ∀ entry ∈ entries, entry.paperAccountId = some accountId →
      (valuationDate : WithBot String) < entryDate db'.paper entry) :
    rebuildEntries db'.paper accountId 1 valuationDate =
      rebuildEntries db.paper accountId 1 valuationDate := by
  rw [rebuildEntries_eq_cut h'.cycles, rebuildEntries_eq_cut h.cycles,
    accountEntries_append hledger, cut_append_later]
  · apply List.filter_congr
    intro entry hentry
    rw [entryDate_keeps hcycles (h.cycles entry hentry)]
  · intro entry hentry
    obtain ⟨hmem, hmine⟩ := List.mem_filter.mp hentry
    exact hlater entry hmem (by simpa using (Bool.and_eq_true_iff.mp hmine).1)

/-- In an account whose cycles write in date order, no rebuild at any date
diverges from a checkpoint, and with market data every rebuild returns.  A
second rebuild at a date gives the state of the first one, whatever cycles of
later dates wrote in between. -/
theorem rebuild_point_in_time (market : MarketData) (request : AccountRequest)
    (base opened : AccountDb) (account : PaperAccount) (hfresh : FreshAccount request base)
    (hcreate : createAccount request base = .ok (account, opened)) (steps : List AccountStep)
    (horder : RunsInDateOrder market request.accountId steps opened) :
    let id := request.accountId
    let db := runAccount market id steps opened
    (∀ valuationDate start,
      (∀ generation sequence, (rebuildProjection market id valuationDate start db).value ≠
        .error (.canonicalStateDivergence id generation sequence)) ∧
      (market.Available →
        ∃ rebuild, (rebuildProjection market id valuationDate start db).value = .ok rebuild)) ∧
    ∀ later, RunsInDateOrder market id later db →
      let db' := runAccount market id later db
      ∀ valuationDate : String,
        (∀ entry ∈ db'.paper.ledger.drop db.paper.ledger.length,
          entry.paperAccountId = some id →
            (valuationDate : WithBot String) < entryDate db'.paper entry) →
        ∀ start start' rebuild rebuild',
          (rebuildProjection market id valuationDate start db).value = .ok rebuild →
          (rebuildProjection market id valuationDate start' db').value = .ok rebuild' →
            SameLedgerState rebuild rebuild' := by
  intro id db
  have hdb : AccountInv id db :=
    runAccount_inv hfresh.nonempty market steps (accountInv_created hfresh hcreate) horder
  refine ⟨?_, ?_⟩
  · intro valuationDate start
    rcases hdb.rebuild_cases market valuationDate start with
      ⟨⟨symbol, hvalue⟩, hunavailable, -⟩ | ⟨rebuild, _, hvalue, -, -⟩
    · refine ⟨?_, fun havailable => absurd havailable hunavailable⟩
      intro generation sequence hdiverges
      rw [hvalue] at hdiverges
      cases hdiverges
    · refine ⟨?_, fun _ => ⟨rebuild, hvalue⟩⟩
      intro generation sequence hdiverges
      rw [hvalue] at hdiverges
      cases hdiverges
  · intro later hlaterOrder db' valuationDate hlater start start' rebuild rebuild' hvalue hvalue'
    have hdb' : AccountInv id db' := runAccount_inv hfresh.nonempty market later hdb hlaterOrder
    obtain ⟨⟨entries, hledger⟩, hcycles⟩ := runAccount_append market id later db
    have hsame : rebuildEntries db'.paper id 1 valuationDate =
        rebuildEntries db.paper id 1 valuationDate := by
      refine rebuildEntries_later hdb hdb' hledger hcycles ?_
      intro entry hentry
      apply hlater entry
      rw [hledger, List.drop_left]
      exact hentry
    have hread : ∀ {d : AccountDb} {s : Option String} {r : Rebuild}, AccountInv id d →
        (rebuildProjection market id valuationDate s d).value = .ok r →
          IsRebuildOf id 1 (rebuildEntries d.paper id 1 valuationDate) r := by
      intro d s r hd hr
      rcases hd.rebuild_cases market valuationDate s with
        ⟨⟨_, herror⟩, -, -⟩ | ⟨r', _, hok, hrebuild, -⟩
      · rw [herror] at hr
        cases hr
      · rw [hok] at hr
        rw [← Except.ok.inj hr]
        exact hrebuild
    have hfirst := hread hdb hvalue
    have hsecond := hread hdb' hvalue'
    rw [hsame] at hsecond
    exact ⟨by rw [hsecond.cash, hfirst.cash], by rw [hsecond.quantities, hfirst.quantities],
      by rw [hsecond.sequence, hfirst.sequence], by rw [hsecond.digest, hfirst.digest]⟩

/-! ## An account with one trade -/

/-- A market in which everything closes at ten. -/
def flatMarket : MarketData where
  closePrice := fun _ date => some { close := 10, tradeDate := date }
  benchmarkReturn := fun _ _ _ => some 0

/-- An account with a thousand yuan. -/
def plainAccount : AccountRequest where
  accountId := "account"
  sessionId := "shadow"
  name := "Account"
  market := "china"
  initialCash := 1000

/-- The first cycle of the account. -/
def plainCycle : CycleContext where
  id := "cycle"
  paperAccountId := "account"
  shadowSessionId := "shadow"
  deploymentId := "deployment"
  accountGeneration := 1
  tradingDate := "2024-01-03"
  status := "running"
  paperRunId := some "run"

/-- The shadow session of the account after its creation. -/
def plainShadow : Session := { plainSession with id := "shadow" }

def accountIntent (paperRunId : RunId) (order : LeanOrder) : AccountStep :=
  .intent (intentRequest plainShadow paperRunId ⟨"child", none⟩ order)

/-- The transitions of an intent to the market and its fill. -/
def accountFill (intentId : IntentId) (key date : String) (quantity price : ℚ) : List AccountStep :=
  [.transition ⟨intentId, "VALIDATION_PENDING", "constraint_validation_started",
      "validation_pending", .empty⟩,
    .transition ⟨intentId, "ACCEPTED", "constraint_accepted", "constraint_result", .empty⟩,
    .transition ⟨intentId, "MATCHING", "lean_match_submitted", "matching", .empty⟩,
    .fill { intentId := intentId, externalFillKey := .text key, tradeDate := date,
            quantity := .ofFloat quantity, price := .ofFloat price, fee := .ofFloat 5 }]

def plainOpened : AccountDb := settle (createAccount plainAccount) AccountDb.empty

/-- A buy of one hundred shares in the first cycle, and two rebuilds. -/
def plainSteps : List AccountStep :=
  [.openCycle plainCycle, accountIntent "run" (plainBuy 1 5)] ++
    accountFill 0 "buy" "2024-01-03" 100 5 ++
    [.rebuild "2024-01-03" none, .rebuild "2024-01-02" none,
      .moveCycle "cycle" "completed" (some "run")]

def nextCycle : CycleContext :=
  { plainCycle with id := "next", tradingDate := "2024-01-04", paperRunId := some "run-2" }

/-- A sell of forty shares on the next day, and a rebuild. -/
def nextSteps : List AccountStep :=
  [.openCycle nextCycle, accountIntent "run-2" (plainSell 2 40)] ++
    accountFill 1 "sell" "2024-01-04" 40 10 ++ [.rebuild "2024-01-04" none]

theorem inDateOrder_fill {request : FillRequest} (account : AccountContext) (cycle : CycleContext)
    (hintent : (getIntent db request.intentId).map Intent.account = some account)
    (hcontext : ∀ intent, intent.account = account →
      (request.context intent).executionCycleId = some cycle.id)
    (hcycle : findCycle db cycle.id = some cycle)
    (hdates : ∀ entry ∈ accountEntries db accountId 1, entryDate db entry ≤ cycle.tradingDate) :
    InDateOrder accountId db (.fill request) := by
  intro intent hfound _
  rw [hfound, Option.map_some, Option.some.injEq] at hintent
  exact ⟨cycle.id, cycle, hcontext intent hintent, hcycle, hdates⟩

theorem plainSteps_inOrder : RunsInDateOrder flatMarket "account" plainSteps plainOpened := by
  refine ⟨rfl, trivial, trivial, trivial, trivial, ?_, trivial, trivial, trivial, trivial⟩
  refine inDateOrder_fill plainCycle.account plainCycle (by decide +kernel) ?_
    (by decide +kernel) (by decide +kernel)
  intro intent haccount
  simp only [FillRequest.context, haccount]
  decide +kernel

theorem nextSteps_inOrder : RunsInDateOrder flatMarket "account" nextSteps
    (runAccount flatMarket "account" plainSteps plainOpened) := by
  have hnew : findCycle (runAccount flatMarket "account" plainSteps plainOpened).paper "next" =
      none := by
    decide +kernel
  refine ⟨hnew, trivial, trivial, trivial, trivial, ?_, trivial, trivial⟩
  refine inDateOrder_fill nextCycle.account nextCycle (by decide +kernel) ?_
    (by decide +kernel) (by decide +kernel)
  intro intent haccount
  simp only [FillRequest.context, haccount]
  decide +kernel

/-- The account rebuilt after the buy, and rebuilt at the same date after the
sell. -/
theorem rebuild_point_in_time_plain :
    let db := runAccount flatMarket "account" plainSteps plainOpened
    let later := runAccount flatMarket "account" nextSteps db
    (∃ rebuild, (rebuildProjection flatMarket "account" "2024-01-03" none db).value =
      .ok rebuild) ∧
    ∀ rebuild rebuild',
      (rebuildProjection flatMarket "account" "2024-01-03" none db).value = .ok rebuild →
      (rebuildProjection flatMarket "account" "2024-01-03" none later).value = .ok rebuild' →
        SameLedgerState rebuild rebuild' := by
  intro db later
  have hfresh : FreshAccount plainAccount AccountDb.empty :=
    ⟨by decide, fun _ h => absurd h List.not_mem_nil, fun _ h => absurd h List.not_mem_nil⟩
  have havailable : flatMarket.Available :=
    ⟨fun _ _ h => Option.some_ne_none _ h, fun _ _ _ h => Option.some_ne_none _ h⟩
  obtain ⟨hreturns, hstable⟩ := rebuild_point_in_time flatMarket plainAccount AccountDb.empty
    plainOpened (plainAccount.account "china") hfresh (by rfl) plainSteps plainSteps_inOrder
  refine ⟨(hreturns "2024-01-03" none).2 havailable, ?_⟩
  intro rebuild rebuild' hvalue hvalue'
  refine hstable nextSteps nextSteps_inOrder "2024-01-03" ?_ none none rebuild rebuild'
    hvalue hvalue'
  -- The sell of the next cycle is all that was written in between.
  have hdates : ((runAccount flatMarket "account" nextSteps db).paper.ledger.drop
      db.paper.ledger.length).all (fun entry =>
        entryDate (runAccount flatMarket "account" nextSteps db).paper entry =
          ("2024-01-04" : String)) = true := by
    decide +kernel
  intro entry hentry _
  have hdate := of_decide_eq_true (List.all_eq_true.mp hdates entry hentry)
  have hlt : ("2024-01-03" : WithBot String) < ("2024-01-04" : String) := by
    exact WithBot.coe_lt_coe.mpr (by decide)
  rw [← hdate] at hlt
  exact hlt

end LocalPlatform.Accounts
