import LocalPlatform.Universe.Delistings

/-!
# The two paths of the import

`import_security_master` in bulk beside the same import record by record.

* The plain path writes the rows that the bulk path collects (`loop_eq_executePlain`), so that the
  two differ in the statement for `instruments` only.
* `absorbAll_eq_iff`: a list of writes leaves one instrument under both statements exactly when the
  stored one has the contract of a share, and the last write has a date or no date is known.
* A list with a record that cannot be read is written up to it by the plain path only.
-/

namespace LocalPlatform.Universe

open Machines Paper Results Tables

/-! ## The same tables -/

/-- The same rows under the same keys. -/
structure SameTables (a b : MasterDb) : Prop where
  securities : ∀ symbol, securityOf a symbol = securityOf b symbol
  instruments : ∀ id, find Instrument.id a.instruments id = find Instrument.id b.instruments id
  memberships : ∀ key, find UniverseMembership.key a.memberships key =
    find UniverseMembership.key b.memberships key

theorem SameTables.refl (db : MasterDb) : SameTables db db where
  securities := fun _ => rfl
  instruments := fun _ => rfl
  memberships := fun _ => rfl

/-! ## The plain path, row by row -/

def MasterDb.executePlain (db : MasterDb) (rows : List (StoredSecurity × UniverseMembership)) :
    MasterDb :=
  rows.foldl (fun db row => (db.upsertSecurity row.1).upsertMembership row.2) db

variable {request : ImportRequest}

theorem loop_cons_ok {record : SecurityRecord} {row : StoredSecurity × UniverseMembership}
    (h : request.parameters record = .ok row) (records : List SecurityRecord) (db : MasterDb) :
    request.loop (record :: records) db =
      request.loop records ((db.upsertSecurity row.1).upsertMembership row.2) := by
  obtain ⟨call, hcall, hsecurity, hmembership⟩ := parameters_ok h
  rw [ImportRequest.loop, hcall]
  dsimp only
  rw [hmembership, hsecurity]

variable {records : List SecurityRecord} {rows : List (StoredSecurity × UniverseMembership)}

theorem loop_eq_executePlain (h : records.mapM request.parameters = .ok rows) (db : MasterDb) :
    request.loop records db = (db.executePlain rows, .ok ()) := by
  have hread := forall₂_of_mapM h
  clear h
  induction hread generalizing db with
  | nil => rfl
  | cons hfirst _ ih =>
    rw [loop_cons_ok hfirst, ih]
    rfl

theorem membership_ok {record : SecurityRecord} {call : SecurityCall}
    (hcall : record.call = .ok call) {membership : UniverseMembership}
    (h : request.membership record call = .ok membership) :
    membership.stored = membership ∧ membership.batchId = some request.batchId := by
  have hlisted : call.listedDate ≠ "" := by
    unfold SecurityRecord.call at hcall
    cases hsymbol : shareSymbol record.symbols with
    | error message =>
      rw [hsymbol] at hcall
      cases hcall
    | ok symbol =>
      cases hdate : isoDateOf "listed_date" record.listedDate with
      | error message =>
        rw [hsymbol, hdate] at hcall
        cases hcall
      | ok date =>
        cases hdelisted : optionalIsoDate record.delistedDate with
        | error message =>
          rw [hsymbol, hdate, hdelisted] at hcall
          cases hcall
        | ok delisted =>
          rw [hsymbol, hdate, hdelisted] at hcall
          cases hcall
          exact IsoDate.text_ne_empty date
  unfold ImportRequest.membership at h
  cases hannounce : optionalIsoDate record.announceDate with
  | error message =>
    rw [hannounce] at h
    cases h
  | ok announce =>
    cases heffective : optionalIsoDate record.effectiveDate with
    | error message =>
      rw [hannounce, heffective] at h
      cases h
    | ok effective =>
      rw [hannounce, heffective] at h
      cases h
      refine ⟨?_, rfl⟩
      have hne : (effective.map IsoDate.text).getD call.listedDate ≠ "" := by
        cases effective with
        | none => exact hlisted
        | some date => exact IsoDate.text_ne_empty date
      unfold UniverseMembership.stored firstText
      rw [if_neg hne]

/-! ## The tables of the two paths -/

theorem securities_executePlain (rows : List (StoredSecurity × UniverseMembership)) :
    ∀ db : MasterDb, (db.executePlain rows).securities = (db.executeBulk rows).securities := by
  induction rows with
  | nil => exact fun _ => rfl
  | cons row rows ih =>
    intro db
    show (((db.upsertSecurity row.1).upsertMembership row.2).executePlain rows).securities = _
    rw [ih]
    rfl

theorem instruments_executePlain (rows : List (StoredSecurity × UniverseMembership)) :
    ∀ db : MasterDb, (db.executePlain rows).instruments =
      (rows.map (fun row => row.1.instrument)).foldl (upsert Instrument.id Instrument.merge)
        db.instruments := by
  induction rows with
  | nil => exact fun _ => rfl
  | cons row rows ih =>
    intro db
    show (((db.upsertSecurity row.1).upsertMembership row.2).executePlain rows).instruments = _
    rw [ih]
    rfl

theorem memberships_executePlain :
    ∀ {db : MasterDb}, (∀ row ∈ rows, row.2.stored = row.2) →
      (db.executePlain rows).memberships = (db.executeBulk rows).memberships := by
  induction rows with
  | nil => exact fun _ => rfl
  | cons row rows ih =>
    intro db hstored
    have hrow := hstored row List.mem_cons_self
    have hput : ((db.upsertSecurity row.1).upsertMembership row.2).memberships =
        upsert UniverseMembership.key (fun _ excluded => excluded) db.memberships row.2.stored :=
      rfl
    show (((db.upsertSecurity row.1).upsertMembership row.2).executePlain rows).memberships = _
    rw [ih (fun other hother => hstored other (List.mem_cons_of_mem _ hother))]
    unfold MasterDb.executeBulk
    rw [hput, hrow]
    rfl

/-- The writes of the import for an instrument. -/
def writesOf (rows : List (StoredSecurity × UniverseMembership)) (id : InstrumentId) :
    List Instrument :=
  (rows.map (fun row => row.1.instrument)).filter (fun write => write.id = id)

theorem find_executePlain (db : MasterDb) (rows : List (StoredSecurity × UniverseMembership))
    (id : InstrumentId) : find Instrument.id (db.executePlain rows).instruments id =
      absorbAll Instrument.merge (find Instrument.id db.instruments id) (writesOf rows id) := by
  rw [instruments_executePlain]
  exact find_foldl_upsert Instrument.id Instrument.merge (fun _ _ => rfl) _ _ _

theorem find_executeBulk (db : MasterDb) (rows : List (StoredSecurity × UniverseMembership))
    (id : InstrumentId) : find Instrument.id (db.executeBulk rows).instruments id =
      absorbAll Instrument.mergeBulk (find Instrument.id db.instruments id) (writesOf rows id) :=
  find_foldl_upsert Instrument.id Instrument.mergeBulk (fun _ _ => rfl) _ _ _

variable {db : MasterDb}

theorem sameTables_execute_iff (hstored : ∀ row ∈ rows, row.2.stored = row.2) :
    SameTables (db.executeBulk rows) (db.executePlain rows) ↔
      ∀ id, absorbAll Instrument.merge (find Instrument.id db.instruments id) (writesOf rows id) =
        absorbAll Instrument.mergeBulk (find Instrument.id db.instruments id)
          (writesOf rows id) := by
  constructor
  · intro h id
    rw [← find_executePlain, ← find_executeBulk]
    exact (h.instruments id).symm
  · intro h
    constructor
    · intro symbol
      unfold securityOf
      rw [securities_executePlain]
    · intro id
      rw [find_executePlain, find_executeBulk, h]
    · intro key
      rw [memberships_executePlain hstored]

/-! ## One instrument under both statements -/

/-- An instrument without the columns that the two statements treat differently. -/
def Instrument.face (instrument : Instrument) : Instrument :=
  { instrument with contract := noContract, delistedDate := none, status := "" }

theorem Instrument.eq_iff (a b : Instrument) :
    a = b ↔ a.face = b.face ∧ a.contract = b.contract ∧ a.delistedDate = b.delistedDate ∧
      a.status = b.status := by
  constructor
  · intro h
    rw [h]
    exact ⟨rfl, rfl, rfl, rfl⟩
  · rintro ⟨hface, hcontract, hdate, hstatus⟩
    cases a
    cases b
    simp_all [Instrument.face]

/-- What both imports write for an instrument. -/
structure ShareWrite (write : Instrument) : Prop where
  name : write.name ≠ none
  exchange : write.exchange ≠ none
  contract : write.contract = shareContract

theorem shareWrite_instrument (security : StoredSecurity) : ShareWrite security.instrument where
  name := Option.some_ne_none _
  exchange := Option.some_ne_none _
  contract := rfl

theorem face_absorb {plain bulk : Option Instrument} {write : Instrument}
    (h : plain.map Instrument.face = bulk.map Instrument.face) (hwrite : ShareWrite write) :
    (absorb Instrument.merge plain write).face = (absorb Instrument.mergeBulk bulk write).face := by
  cases plain with
  | none =>
    cases bulk with
    | none => rfl
    | some bulk => cases h
  | some plain =>
    cases bulk with
    | none => cases h
    | some bulk =>
      have hface : plain.face = bulk.face := Option.some.inj h
      have hid : plain.id = bulk.id := (Instrument.mk.inj hface).1
      have hname : plain.name = bulk.name := (Instrument.mk.inj hface).2.1
      have hlisted : plain.listedDate = bulk.listedDate := (Instrument.mk.inj hface).2.2.2.1
      obtain ⟨name, hwriteName⟩ := Option.ne_none_iff_exists'.mp hwrite.name
      obtain ⟨exchange, hwriteExchange⟩ := Option.ne_none_iff_exists'.mp hwrite.exchange
      simp [absorb, Instrument.merge, Instrument.mergeBulk, Instrument.face, Instrument.keepsName,
        hid, hname, hlisted, hwriteName, hwriteExchange]

variable {writes : List Instrument}

theorem face_absorbAll (old : Option Instrument) (hwrites : ∀ write ∈ writes, ShareWrite write) :
    (absorbAll Instrument.merge old writes).map Instrument.face =
      (absorbAll Instrument.mergeBulk old writes).map Instrument.face := by
  induction writes using List.reverseRecOn with
  | nil => rfl
  | append_singleton writes last ih =>
    have hbefore := ih (fun write hwrite => hwrites write (List.mem_append_left _ hwrite))
    rw [absorbAll_concat, absorbAll_concat, Option.map_some, Option.map_some,
      face_absorb hbefore (hwrites last (by simp))]

theorem Contract.coalesce_coalesce (a b : Contract) : (a.coalesce b).coalesce b = a.coalesce b := by
  simp [Contract.coalesce, ← Option.or_assoc]

theorem contract_absorbAll_merge (old : Option Instrument)
    (hwrites : ∀ write ∈ writes, ShareWrite write) {row : Instrument} (hne : writes ≠ [])
    (h : absorbAll Instrument.merge old writes = some row) :
    row.contract =
      (old.map (fun stored => stored.contract.coalesce shareContract)).getD shareContract := by
  induction writes using List.reverseRecOn generalizing row with
  | nil => exact absurd rfl hne
  | append_singleton writes last ih =>
    have hlast := (hwrites last (by simp)).contract
    rw [absorbAll_concat] at h
    cases h
    cases writes with
    | nil =>
      cases old with
      | none => exact hlast
      | some stored =>
        show stored.contract.coalesce last.contract = _
        rw [hlast]
        rfl
    | cons write writes =>
      cases hbefore : absorbAll Instrument.merge old (write :: writes) with
      | none => exact absurd (absorbAll_eq_none_iff.mp hbefore).2 (List.cons_ne_nil _ _)
      | some before =>
        have hcontract := ih (fun other hother => hwrites other (List.mem_append_left _ hother))
          (List.cons_ne_nil _ _) hbefore
        show before.contract.coalesce last.contract = _
        rw [hcontract, hlast]
        cases old with
        | none => rfl
        | some stored => exact stored.contract.coalesce_coalesce shareContract

theorem contract_absorbAll_mergeBulk (old : Option Instrument)
    (hwrites : ∀ write ∈ writes, ShareWrite write) {row : Instrument}
    (h : absorbAll Instrument.mergeBulk old writes = some row) :
    row.contract = (old.map Instrument.contract).getD shareContract := by
  induction writes using List.reverseRecOn generalizing row with
  | nil =>
    have hold : old = some row := h
    rw [hold]
    rfl
  | append_singleton writes last ih =>
    rw [absorbAll_concat] at h
    cases h
    cases hbefore : absorbAll Instrument.mergeBulk old writes with
    | some before =>
      have hcontract : before.contract = _ :=
        ih (fun other hother => hwrites other (List.mem_append_left _ hother)) hbefore
      exact hcontract
    | none =>
      rw [(absorbAll_eq_none_iff.mp hbefore).1]
      exact (hwrites last (by simp)).contract

theorem date_absorbAll_mergeBulk (old : Option Instrument) (writes : List Instrument) :
    (absorbAll Instrument.mergeBulk old writes).bind Instrument.delistedDate = none ↔
      old.bind Instrument.delistedDate = none ∧ ∀ write ∈ writes, write.delistedDate = none := by
  induction writes using List.reverseRecOn with
  | nil => simp [absorbAll]
  | append_singleton writes last ih =>
    rw [absorbAll_concat, Option.bind_some, absorb_bulk_date, Option.or_eq_none_iff, ih]
    simp only [List.forall_mem_append, List.forall_mem_singleton]
    constructor
    · rintro ⟨hlast, hold, hbefore⟩
      exact ⟨hold, hbefore, hlast⟩
    · rintro ⟨hold, hbefore, hlast⟩
      exact ⟨hlast, hold, hbefore⟩

theorem absorb_bulk_status_of_date {old : Option Instrument} {write : Instrument}
    (h : (absorb Instrument.mergeBulk old write).delistedDate = write.delistedDate) :
    (absorb Instrument.mergeBulk old write).status = write.status := by
  cases old with
  | none => rfl
  | some stored =>
    have hstatus : (absorb Instrument.mergeBulk (some stored) write).status =
        if write.delistedDate = none ∧ stored.delistedDate ≠ none then stored.status
        else write.status := rfl
    rw [hstatus, if_neg]
    intro hkeeps
    rw [absorb_bulk_date, hkeeps.1] at h
    exact hkeeps.2 h

/-- The stored instrument has the contract of a share, and the last write has a date if one was
stored or written. -/
structure MergesAgree (old : Option Instrument) (writes : List Instrument) : Prop where
  contract : ∀ stored ∈ old, stored.contract.coalesce shareContract = stored.contract
  date : writes.getLast?.bind Instrument.delistedDate = none →
    old.bind Instrument.delistedDate = none ∧ ∀ write ∈ writes, write.delistedDate = none

theorem contract_eq_iff (old : Option Instrument) (hwrites : ∀ write ∈ writes, ShareWrite write)
    (hne : writes ≠ []) {plain bulk : Instrument}
    (hplain : absorbAll Instrument.merge old writes = some plain)
    (hbulk : absorbAll Instrument.mergeBulk old writes = some bulk) :
    plain.contract = bulk.contract ↔
      ∀ stored ∈ old, stored.contract.coalesce shareContract = stored.contract := by
  rw [contract_absorbAll_merge old hwrites hne hplain,
    contract_absorbAll_mergeBulk old hwrites hbulk]
  cases old with
  | none => simp
  | some stored => simp

theorem absorbAll_eq_iff (old : Option Instrument) (hwrites : ∀ write ∈ writes, ShareWrite write)
    (hne : writes ≠ []) :
    absorbAll Instrument.merge old writes = absorbAll Instrument.mergeBulk old writes ↔
      MergesAgree old writes := by
  obtain ⟨before, last, hsnoc⟩ := (List.eq_nil_or_concat' writes).resolve_left hne
  have hplain : absorbAll Instrument.merge old writes =
      some (absorb Instrument.merge (absorbAll Instrument.merge old before) last) := by
    rw [hsnoc, absorbAll_concat]
  have hbulk : absorbAll Instrument.mergeBulk old writes =
      some (absorb Instrument.mergeBulk (absorbAll Instrument.mergeBulk old before) last) := by
    rw [hsnoc, absorbAll_concat]
  have hface := face_absorbAll old hwrites
  have hcontract := contract_eq_iff old hwrites hne hplain hbulk
  have hnone := date_absorbAll_mergeBulk old writes
  rw [hplain, hbulk, Option.map_some, Option.map_some, Option.some_inj] at hface
  rw [hbulk, Option.bind_some] at hnone
  have hlast : writes.getLast?.bind Instrument.delistedDate = last.delistedDate := by
    rw [hsnoc, List.getLast?_concat, Option.bind_some]
  rw [hplain, hbulk, Option.some_inj, Instrument.eq_iff, hcontract, absorb_plain_date,
    absorb_plain_status]
  constructor
  · rintro ⟨_, hstored, hdate, _⟩
    refine ⟨hstored, ?_⟩
    intro hlastNone
    rw [hlast] at hlastNone
    rw [← hnone, ← hdate, hlastNone]
  · intro hagree
    have hdate : (absorb Instrument.mergeBulk (absorbAll Instrument.mergeBulk old before)
        last).delistedDate = last.delistedDate := by
      cases hlastDate : last.delistedDate with
      | none => exact hnone.mpr (hagree.date (hlast.trans hlastDate))
      | some date => rw [absorb_bulk_date, hlastDate, Option.some_or]
    exact ⟨hface, hagree.contract, hdate.symm, (absorb_bulk_status_of_date hdate).symm⟩

/-! ## Lists of records that can be read -/

/-- The statements agree on every instrument that the import writes. -/
def PathsAgree (db : MasterDb) (rows : List (StoredSecurity × UniverseMembership)) : Prop :=
  ∀ row ∈ rows, MergesAgree (find Instrument.id db.instruments row.1.instrument.id)
    (writesOf rows row.1.instrument.id)

theorem mem_writesOf {id : InstrumentId} {write : Instrument} :
    write ∈ writesOf rows id ↔ ∃ row ∈ rows, row.1.instrument = write ∧ row.1.instrument.id = id := by
  unfold writesOf
  rw [List.mem_filter, List.mem_map]
  constructor
  · rintro ⟨⟨row, hrow, heq⟩, hid⟩
    exact ⟨row, hrow, heq, heq ▸ of_decide_eq_true hid⟩
  · rintro ⟨row, hrow, heq, hid⟩
    exact ⟨⟨row, hrow, heq⟩, decide_eq_true (heq ▸ hid)⟩

theorem shareWrite_of_mem {id : InstrumentId} : ∀ write ∈ writesOf rows id, ShareWrite write := by
  intro write hwrite
  obtain ⟨row, _, rfl, _⟩ := mem_writesOf.mp hwrite
  exact shareWrite_instrument row.1

theorem execute_sameTables_iff (hstored : ∀ row ∈ rows, row.2.stored = row.2) :
    SameTables (db.executeBulk rows) (db.executePlain rows) ↔ PathsAgree db rows := by
  rw [sameTables_execute_iff hstored]
  constructor
  · intro h row hrow
    have hne : writesOf rows row.1.instrument.id ≠ [] :=
      List.ne_nil_of_mem (mem_writesOf.mpr ⟨row, hrow, rfl, rfl⟩)
    exact (absorbAll_eq_iff _ shareWrite_of_mem hne).mp (h row.1.instrument.id)
  · intro h id
    by_cases hne : writesOf rows id = []
    · rw [hne]
      rfl
    · obtain ⟨write, hwrite⟩ := List.exists_mem_of_ne_nil _ hne
      obtain ⟨row, hrow, _, hid⟩ := mem_writesOf.mp hwrite
      apply (absorbAll_eq_iff _ shareWrite_of_mem hne).mpr
      rw [← hid]
      exact h row hrow

theorem stored_of_mapM (h : records.mapM request.parameters = .ok rows) :
    ∀ row ∈ rows, row.2.stored = row.2 := by
  intro row hrow
  obtain ⟨record, _, hparameters⟩ := exists_of_mapM h hrow
  obtain ⟨call, hcall, _, hmembership⟩ := parameters_ok hparameters
  exact (membership_ok hcall hmembership).1

theorem import_bulk_ok (h : request.records.mapM request.parameters = .ok rows) (db : MasterDb) :
    (importSecurityMaster request true db).1 = db.executeBulk rows := by
  unfold importSecurityMaster
  by_cases hnil : request.records = []
  · rw [if_neg (fun hbulk => hbulk.2 hnil)]
    rw [hnil] at h ⊢
    cases h
    rfl
  · rw [if_pos ⟨rfl, hnil⟩, h]

theorem import_plain (request : ImportRequest) (db : MasterDb) :
    importSecurityMaster request false db = request.loop request.records db := by
  unfold importSecurityMaster
  rw [if_neg (fun hbulk => Bool.noConfusion hbulk.1)]

theorem sameTables_iff_of_ok (h : request.records.mapM request.parameters = .ok rows)
    (db : MasterDb) :
    SameTables (importSecurityMaster request true db).1 (importSecurityMaster request false db).1 ↔
      PathsAgree db rows := by
  rw [import_bulk_ok h, import_plain, loop_eq_executePlain h]
  exact execute_sameTables_iff (stored_of_mapM h)

/-! ## Lists with a record that cannot be read -/

/-- The tables have the security and its instrument, as a write of it would leave them. -/
structure MasterDb.Holds (db : MasterDb) (security : StoredSecurity) : Prop where
  merged : ∃ old ∈ securityOf db security.symbol, old.merge security = old
  mergedInstrument : ∃ old ∈ find Instrument.id db.instruments security.instrument.id,
    old.merge security.instrument = old

/-- What comes before the unreadable record is in the tables. -/
def PrefixHeld (db : MasterDb) (request : ImportRequest) : List SecurityRecord → Prop
  | [] => True
  | record :: _ =>
    OnOk (fun call => match request.membership record call with
      | .error _ => db.Holds call.security
      | .ok _ => False) record.call

/-- No stored membership is of the batch, whose id is new. -/
def FreshBatch (db : MasterDb) (request : ImportRequest) : Prop :=
  ∀ row ∈ db.memberships, row.batchId ≠ some request.batchId

instance (db : MasterDb) (request : ImportRequest) : Decidable (FreshBatch db request) :=
  inferInstanceAs (Decidable (∀ row ∈ db.memberships, _))

def batchOf (db : MasterDb) (key : String × String × String) : Option String :=
  (find UniverseMembership.key db.memberships key).bind UniverseMembership.batchId

theorem batchOf_upsertMembership {row : UniverseMembership} (hrow : row.stored = row)
    (key : String × String × String) :
    batchOf (db.upsertMembership row) key =
      if key = row.key then row.batchId else batchOf db key := by
  unfold batchOf MasterDb.upsertMembership
  rw [hrow, find_upsert_replace]
  split_ifs
  · rfl
  · rfl

theorem batchOf_loop {key : String × String × String} :
    ∀ {db : MasterDb}, batchOf db key = some request.batchId →
      batchOf (request.loop records db).1 key = some request.batchId := by
  induction records with
  | nil => exact id
  | cons record records ih =>
    intro db h
    unfold ImportRequest.loop
    cases hcall : record.call with
    | error message => exact h
    | ok call =>
      dsimp only
      cases hmembership : request.membership record call with
      | error message => exact h
      | ok membership =>
        have hstored := membership_ok hcall hmembership
        apply ih
        rw [batchOf_upsertMembership hstored.1]
        split_ifs
        · exact hstored.2
        · exact h

theorem FreshBatch.batchOf_ne (h : FreshBatch db request) (key : String × String × String) :
    batchOf db key ≠ some request.batchId := by
  intro hbatch
  obtain ⟨row, hrow, hrowBatch⟩ := Option.bind_eq_some_iff.mp hbatch
  exact h row (mem_of_find hrow) hrowBatch

theorem sameTables_upsertSecurity_iff {security : StoredSecurity} :
    SameTables db (db.upsertSecurity security) ↔ db.Holds security := by
  have hsecurity : ∀ symbol, securityOf (db.upsertSecurity security) symbol =
      securityOf (db.putSecurity security) symbol := fun _ => rfl
  have hinstrument : ∀ id, find Instrument.id (db.upsertSecurity security).instruments id =
      find Instrument.id (db.upsertInstrument security.instrument).instruments id := fun _ => rfl
  constructor
  · intro h
    constructor
    · have hsame := h.securities security.symbol
      rw [hsecurity, securityOf_putSecurity, if_pos rfl] at hsame
      cases hold : securityOf db security.symbol with
      | none =>
        rw [hold] at hsame
        cases hsame
      | some old =>
        rw [hold] at hsame
        exact ⟨old, rfl, (Option.some.inj hsame).symm⟩
    · have hsame := h.instruments security.instrument.id
      rw [hinstrument, find_upsertInstrument, if_pos rfl] at hsame
      cases hold : find Instrument.id db.instruments security.instrument.id with
      | none =>
        rw [hold] at hsame
        cases hsame
      | some old =>
        rw [hold] at hsame
        exact ⟨old, rfl, (Option.some.inj hsame).symm⟩
  · intro h
    constructor
    · intro symbol
      rw [hsecurity, securityOf_putSecurity]
      split_ifs with hown
      · obtain ⟨old, hold, hmerge⟩ := h.merged
        rw [hown, hold]
        exact congrArg some hmerge.symm
      · rfl
    · intro id
      rw [hinstrument, find_upsertInstrument]
      split_ifs with hown
      · obtain ⟨old, hold, hmerge⟩ := h.mergedInstrument
        rw [hown, hold]
        exact congrArg some hmerge.symm
      · rfl
    · exact fun _ => rfl

theorem import_bulk_error {message : String}
    (h : request.records.mapM request.parameters = .error message) (db : MasterDb) :
    (importSecurityMaster request true db).1 = db := by
  unfold importSecurityMaster
  rw [if_pos, h]
  refine ⟨rfl, ?_⟩
  intro hnil
  rw [hnil] at h
  cases h

theorem sameTables_loop_iff (hfresh : FreshBatch db request) (records : List SecurityRecord) :
    SameTables db (request.loop records db).1 ↔ PrefixHeld db request records := by
  cases records with
  | nil => exact iff_of_true (SameTables.refl db) trivial
  | cons record records =>
    rw [PrefixHeld, ImportRequest.loop]
    cases hcall : record.call with
    | error message => exact iff_of_true (SameTables.refl db) trivial
    | ok call =>
      dsimp only [OnOk]
      cases hmembership : request.membership record call with
      | error message => exact sameTables_upsertSecurity_iff
      | ok membership =>
        -- the membership of the first record is of the new batch
        have hstored := membership_ok hcall hmembership
        have hwritten : batchOf ((db.upsertSecurity call.security).upsertMembership membership)
            membership.key = some request.batchId := by
          rw [batchOf_upsertMembership hstored.1, if_pos rfl]
          exact hstored.2
        refine iff_of_false ?_ id
        intro hsame
        apply hfresh.batchOf_ne membership.key
        have hkept := @batchOf_loop request records membership.key _ hwritten
        unfold batchOf at hkept ⊢
        rw [hsame.memberships]
        exact hkept

/-- When the two paths of an import leave the same tables. -/
def ImportsAgree (db : MasterDb) (request : ImportRequest) : Prop :=
  match request.records.mapM request.parameters with
  | .ok rows => PathsAgree db rows
  | .error _ => PrefixHeld db request request.records

theorem sameTables_import_iff (hfresh : FreshBatch db request) :
    SameTables (importSecurityMaster request true db).1 (importSecurityMaster request false db).1 ↔
      ImportsAgree db request := by
  unfold ImportsAgree
  cases hrows : request.records.mapM request.parameters with
  | ok rows => exact sameTables_iff_of_ok hrows db
  | error message =>
    rw [import_bulk_error hrows, import_plain]
    exact sameTables_loop_iff hfresh request.records

/-! ## Delistings and paths -/

/-- In a run of careful calls a known delisting stays in both tables until a record supplies another
date; and the two paths of an import leave the same tables exactly when they agree on the list. -/
theorem delistings_kept_and_imports_agree_iff (before after : List MasterCall)
    (symbol date : String) (db : MasterDb) (request : ImportRequest) :
    ((masterMachine.restrict CarefulCall).Accepts emptyMaster (before ++ after) →
      isShare symbol = true →
      KnownDelisted (masterMachine.after emptyMaster before) symbol date →
      (∀ call ∈ after, ∀ other ∈ call.dates symbol, other = date) →
      DelistedOn (masterMachine.after emptyMaster (before ++ after)) symbol date) ∧
    (FreshBatch db request →
      (SameTables (importSecurityMaster request true db).1
          (importSecurityMaster request false db).1 ↔
        ImportsAgree db request)) := by
  constructor
  · intro hrun hshare hknown hsame
    exact delistedOn_after hrun hshare hknown hsame
  · intro hfresh
    exact sameTables_import_iff hfresh

/-- A record of a share that was listed in 2010. -/
def shareRecord (symbol : String) (delistedDate : RawDate IsoDate) : SecurityRecord where
  symbols := [some symbol]
  listedDate := .day ⟨"2010-01-04", by decide +kernel⟩
  delistedDate := delistedDate
  statuses := []
  names := []
  exchanges := []
  isSt := false
  industry := none
  concepts := none
  source := none
  announceDate := .missing
  effectiveDate := .missing

def sampleImport (batchId : String) (records : List SecurityRecord) : ImportRequest where
  records := records
  source := "manual"
  universeCode := "ALL_A"
  batchId := batchId

/-- The share is delisted at the start of 2024. -/
def delistedImport : ImportRequest :=
  sampleImport "first" [shareRecord "600001" (.day ⟨"2024-01-02", by decide +kernel⟩)]

/-- A refresh that does not know of the delisting. -/
def partialImport : ImportRequest := sampleImport "second" [shareRecord "600001" .missing]

def shareBars (symbol : String) : BarsCall where
  rows := [{ symbol := some symbol, code := none, tsCode := none }]
  symbol := none
  assetClass := "equity"
  market := "china"
  venue := none
  source := "akshare"

/-- The delisting stays where the refresh is in bulk and the bars are of another share or come in
a batch. -/
theorem delistings_kept_sample :
    DelistedOn (masterMachine.after emptyMaster ([.importMaster delistedImport false] ++
      [.importMaster partialImport true, .bars (shareBars "600002"),
        .barsBatch (shareBars "600001")])) "600001" "2024-01-02" ∧
    (SameTables (importSecurityMaster delistedImport true emptyMaster).1
        (importSecurityMaster delistedImport false emptyMaster).1 ↔
      ImportsAgree emptyMaster delistedImport) :=
  have hparts := delistings_kept_and_imports_agree_iff [.importMaster delistedImport false]
    [.importMaster partialImport true, .bars (shareBars "600002"), .barsBatch (shareBars "600001")]
    "600001" "2024-01-02" emptyMaster delistedImport
  ⟨hparts.1
      ⟨⟨trivial, by decide +kernel⟩, ⟨trivial, by decide +kernel⟩, ⟨trivial, by decide +kernel⟩,
        ⟨trivial, by decide +kernel⟩, trivial⟩
      (by decide +kernel) (by decide +kernel) (by decide +kernel),
    hparts.2 (by decide +kernel)⟩

/-- The daily bars of a delisted share take its date from `instruments`, and so does a refresh
record by record, which the bulk refresh does not. -/
theorem delisted_share_resurrected :
    isShare "600001" = true ∧
      KnownDelisted (masterMachine.after emptyMaster [.importMaster delistedImport true])
        "600001" "2024-01-02" ∧
      (∀ call ∈ [MasterCall.bars (shareBars "600001")], ∀ other ∈ call.dates "600001",
        other = "2024-01-02") ∧
      ¬ DelistedOn (masterMachine.after emptyMaster ([.importMaster delistedImport true] ++
        [.bars (shareBars "600001")])) "600001" "2024-01-02" ∧
      ¬ SameTables
        (importSecurityMaster partialImport true
          (masterMachine.after emptyMaster [.importMaster delistedImport true])).1
        (importSecurityMaster partialImport false
          (masterMachine.after emptyMaster [.importMaster delistedImport true])).1 := by
  refine ⟨by decide +kernel, by decide +kernel, by decide +kernel, ?_, ?_⟩
  · intro hdelisted
    obtain ⟨row, hrow, hdate, _⟩ := hdelisted.instrument
    have hnone : (instrumentOf (masterMachine.after emptyMaster
        ([.importMaster delistedImport true] ++ [.bars (shareBars "600001")])) "600001").bind
          Instrument.delistedDate = none := by decide +kernel
    rw [hrow, Option.bind_some, hdate] at hnone
    cases hnone
  · intro hsame
    have hne : instrumentOf (importSecurityMaster partialImport true
          (masterMachine.after emptyMaster [.importMaster delistedImport true])).1 "600001" ≠
        instrumentOf (importSecurityMaster partialImport false
          (masterMachine.after emptyMaster [.importMaster delistedImport true])).1 "600001" := by
      decide +kernel
    exact hne (hsame.instruments (shareId "600001"))

end LocalPlatform.Universe
