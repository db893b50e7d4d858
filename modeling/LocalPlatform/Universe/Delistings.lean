import LocalPlatform.Lib.Machine
import LocalPlatform.Lib.Results
import LocalPlatform.Universe.SecurityMaster

/-!
# Delistings

What `securities` and `instruments` know of the delisting of an A-share, over every run of imports
and bars.

* `Aligned`: the two rows of a share have the same delisting date, and the delisted status where
  there is one.
* A date that comes without the delisted status breaks it, and so does a write of
  `upsert_instrument` that has no date for a share with one.  The other writes are `Careful`.
* `aligned_step` and `delistedDate_step`: a careful call keeps the rows aligned, and a date that no
  record replaces.
-/

namespace LocalPlatform.Universe

open Machines Paper Results Tables

/-! ## The rows of a share -/

/-- The id of the instrument of an A-share. -/
def shareId (symbol : String) : InstrumentId where
  assetClass := "equity"
  market := "china"
  venue := "china"
  symbol := symbol

def securityOf (db : MasterDb) (symbol : String) : Option StoredSecurity :=
  find (fun row : StoredSecurity => row.symbol) db.securities symbol

def instrumentOf (db : MasterDb) (symbol : String) : Option Instrument :=
  find Instrument.id db.instruments (shareId symbol)

/-- The two rows of a share have one delisting date, and are delisted where they have it. -/
structure Aligned (security : Option StoredSecurity) (instrument : Option Instrument) : Prop where
  dates : security.bind (fun row => row.delistedDate) = instrument.bind Instrument.delistedDate
  security : ∀ row, security = some row → row.delistedDate ≠ none → row.status = "delisted"
  instrument : ∀ row, instrument = some row → row.delistedDate ≠ none → row.status = "delisted"

def AllAligned (db : MasterDb) : Prop :=
  ∀ symbol, isShare symbol = true → Aligned (securityOf db symbol) (instrumentOf db symbol)

theorem toUpper_of_isDigit {c : Char} (h : c.toUpper.isDigit = true) : c.toUpper = c := by
  delta Char.toUpper at h ⊢
  split
  · rename_i hlower
    rw [dif_pos hlower] at h
    have hlow := UInt32.le_iff_toNat_le.mp hlower.1
    have hhigh := UInt32.le_iff_toNat_le.mp hlower.2
    simp only [Char.isDigit, Bool.and_eq_true, decide_eq_true_eq, ge_iff_le] at h
    have hupper := UInt32.le_iff_toNat_le.mp h.2
    simp at hlow hhigh hupper
    omega
  · rfl

variable {symbol : String}

theorem eq_of_upper_share {share : String} (hshare : isShare share = true)
    (h : upper symbol = share) : symbol = share := by
  simp only [isShare, isDigits, Bool.and_eq_true, List.all_eq_true] at hshare
  rw [← h]
  unfold upper
  apply String.toList_inj.mp
  rw [String.toList_ofList]
  have hmap : symbol.toList.map Char.toUpper = symbol.toList.map id := by
    apply List.map_congr_left
    intro c hc
    apply toUpper_of_isDigit
    apply hshare.1.2
    rw [← h, upper, String.toList_ofList]
    exact List.mem_map_of_mem hc
  rw [hmap, List.map_id]

theorem upper_share {share : String} (hshare : isShare share = true) : upper share = share := by
  simp only [isShare, isDigits, Bool.and_eq_true, List.all_eq_true] at hshare
  unfold upper
  apply String.toList_inj.mp
  rw [String.toList_ofList]
  have hmap : share.toList.map Char.toUpper = share.toList.map id := by
    apply List.map_congr_left
    intro c hc
    have hdigit := hshare.1.2 c hc
    simp only [Char.isDigit, Bool.and_eq_true, decide_eq_true_eq] at hdigit
    have hhigh := UInt32.le_iff_toNat_le.mp hdigit.2
    delta Char.toUpper
    rw [dif_neg]
    · rfl
    · intro hlower
      have hlow := UInt32.le_iff_toNat_le.mp hlower.1
      simp at hlow hhigh
      omega
  rw [hmap, List.map_id]

/-! ## One write -/

variable {security : StoredSecurity}

theorem instrument_id_eq_shareId {share : String} (hshare : isShare share = true) :
    security.instrument.id = shareId share ↔ security.symbol = share := by
  have hparts : security.instrument.id = shareId (upper security.symbol) := by
    show instrumentId "equity" "china" security.symbol (some "china") = _
    unfold instrumentId shareId
    congr 1
  rw [hparts]
  constructor
  · intro h
    exact eq_of_upper_share hshare (InstrumentId.mk.inj h).2.2.2
  · intro h
    rw [h, upper_share hshare]

theorem absorb_security_date (old : Option StoredSecurity) (row : StoredSecurity) :
    (absorb StoredSecurity.merge old row).delistedDate =
      row.delistedDate.or (old.bind (fun row => row.delistedDate)) := by
  cases old with
  | none => simp [absorb]
  | some old => cases hdate : row.delistedDate <;> simp [absorb, StoredSecurity.merge, Security.merge, hdate]

/-- A row without a date keeps the stored date with its status. -/
theorem kept_status {δ : Type} {date stored : Option δ} {status storedStatus : String}
    [Decidable (date = none ∧ stored ≠ none)] (hold : stored ≠ none → storedStatus = "delisted")
    (hrow : date ≠ none → status = "delisted") (hdate : date.or stored ≠ none) :
    (if date = none ∧ stored ≠ none then storedStatus else status) = "delisted" := by
  split_ifs with hkeep
  · exact hold hkeep.2
  · apply hrow
    intro hnone
    rw [hnone] at hdate hkeep
    exact hkeep ⟨rfl, hdate⟩

theorem absorb_security_status (old : Option StoredSecurity) (row : StoredSecurity)
    (hold : ∀ stored, old = some stored → stored.delistedDate ≠ none → stored.status = "delisted")
    (hrow : row.delistedDate ≠ none → row.status = "delisted")
    (hdate : (absorb StoredSecurity.merge old row).delistedDate ≠ none) :
    (absorb StoredSecurity.merge old row).status = "delisted" := by
  cases old with
  | none => exact hrow hdate
  | some stored =>
    rw [absorb_security_date] at hdate
    exact kept_status (hold stored rfl) hrow hdate

theorem absorb_bulk_date (old : Option Instrument) (row : Instrument) :
    (absorb Instrument.mergeBulk old row).delistedDate =
      row.delistedDate.or (old.bind Instrument.delistedDate) := by
  cases old with
  | none => simp [absorb]
  | some old => rfl

theorem absorb_bulk_status (old : Option Instrument) (row : Instrument)
    (hold : ∀ stored, old = some stored → stored.delistedDate ≠ none → stored.status = "delisted")
    (hrow : row.delistedDate ≠ none → row.status = "delisted")
    (hdate : (absorb Instrument.mergeBulk old row).delistedDate ≠ none) :
    (absorb Instrument.mergeBulk old row).status = "delisted" := by
  cases old with
  | none => exact hrow hdate
  | some stored =>
    rw [absorb_bulk_date] at hdate
    exact kept_status (hold stored rfl) hrow hdate

theorem absorb_plain_date (old : Option Instrument) (row : Instrument) :
    (absorb Instrument.merge old row).delistedDate = row.delistedDate := by
  cases old with
  | none => rfl
  | some old => rfl

theorem absorb_plain_status (old : Option Instrument) (row : Instrument) :
    (absorb Instrument.merge old row).status = row.status := by
  cases old with
  | none => rfl
  | some old => rfl

/-- A security whose date comes with the delisted status. -/
def Consistent (security : StoredSecurity) : Prop :=
  security.delistedDate ≠ none → security.status = "delisted"

instance (security : StoredSecurity) : Decidable (Consistent security) :=
  inferInstanceAs (Decidable (_ → _))

theorem Consistent.instrument (h : Consistent security) :
    security.instrument.delistedDate ≠ none → security.instrument.status = "delisted" := by
  intro hdate
  show (if security.status = "delisted" then "delisted" else "active") = "delisted"
  rw [if_pos (h hdate)]

theorem Aligned.bulk {old : Option StoredSecurity} {instrument : Option Instrument}
    (h : Aligned old instrument) (hrow : Consistent security) :
    Aligned (some (absorb StoredSecurity.merge old security))
      (some (absorb Instrument.mergeBulk instrument security.instrument)) where
  dates := by
    rw [Option.bind_some, Option.bind_some, absorb_security_date, absorb_bulk_date, h.dates]
    rfl
  security := by
    intro row hsome
    cases hsome
    exact absorb_security_status old security h.security hrow
  instrument := by
    intro row hsome
    cases hsome
    exact absorb_bulk_status instrument security.instrument h.instrument hrow.instrument

theorem Aligned.plain {old : Option StoredSecurity} {instrument : Option Instrument}
    (h : Aligned old instrument) (hrow : Consistent security)
    (hspares : security.delistedDate = none → instrument.bind Instrument.delistedDate = none) :
    Aligned (some (absorb StoredSecurity.merge old security))
      (some (absorb Instrument.merge instrument security.instrument)) where
  dates := by
    rw [Option.bind_some, Option.bind_some, absorb_security_date, absorb_plain_date, h.dates]
    show _ = security.delistedDate
    cases hdate : security.delistedDate with
    | none => rw [hspares hdate, Option.or_none]
    | some date => rfl
  security := by
    intro row hsome
    cases hsome
    exact absorb_security_status old security h.security hrow
  instrument := by
    intro row hsome hdate
    cases hsome
    rw [absorb_plain_date] at hdate
    rw [absorb_plain_status]
    exact hrow.instrument hdate

theorem Aligned.bars {security : Option StoredSecurity} {old : Option Instrument}
    (h : Aligned security old) {instrument : Instrument} (hrow : instrument.delistedDate = none)
    (hspares : old.bind Instrument.delistedDate = none) :
    Aligned security (some (absorb Instrument.merge old instrument)) where
  dates := by
    rw [Option.bind_some, absorb_plain_date, hrow, h.dates, hspares]
  security := h.security
  instrument := by
    intro row hsome hdate
    cases hsome
    rw [absorb_plain_date] at hdate
    exact absurd hrow hdate

/-! ## Careful calls -/

/-- A write without a date is of an instrument without one, if that is a share. -/
def Spares (db : MasterDb) (instrument : Instrument) : Prop :=
  instrument.delistedDate = none → isShare instrument.id.symbol = true →
    instrument.id = shareId instrument.id.symbol →
    (find Instrument.id db.instruments instrument.id).bind Instrument.delistedDate = none

instance (db : MasterDb) (instrument : Instrument) : Decidable (Spares db instrument) :=
  inferInstanceAs (Decidable (_ → _ → _ → _))

def CarefulSecurity (db : MasterDb) (security : StoredSecurity) : Prop :=
  (isShare security.symbol = true → Consistent security) ∧ Spares db security.instrument

instance (db : MasterDb) (security : StoredSecurity) : Decidable (CarefulSecurity db security) :=
  inferInstanceAs (Decidable (_ ∧ _))

/-- Every record of the loop is careful in the state that it meets. -/
def CarefulLoop (request : ImportRequest) : List SecurityRecord → MasterDb → Prop
  | [], _ => True
  | record :: records, db =>
    OnOk (fun call => CarefulSecurity db call.security ∧
      OnOk (fun membership => CarefulLoop request records
        ((db.upsertSecurity call.security).upsertMembership membership))
        (request.membership record call)) record.call

instance decidableCarefulLoop (request : ImportRequest) :
    ∀ (records : List SecurityRecord) (db : MasterDb), Decidable (CarefulLoop request records db)
  | [], _ => .isTrue trivial
  | record :: records, db =>
    have := decidableCarefulLoop request records
    inferInstanceAs (Decidable (OnOk (fun call => CarefulSecurity db call.security ∧
      OnOk (fun membership => CarefulLoop request records
        ((db.upsertSecurity call.security).upsertMembership membership))
        (request.membership record call)) record.call))

inductive MasterCall where
  | importMaster (request : ImportRequest) (bulk : Bool)
  | upsertSecurity (call : SecurityCall)
  | bars (call : BarsCall)
  | barsBatch (call : BarsCall)

/-- The tables after a call. -/
def MasterDb.step (db : MasterDb) : MasterCall → MasterDb
  | .importMaster request bulk => (importSecurityMaster request bulk db).1
  | .upsertSecurity call => db.upsertSecurity call.security
  | .bars call => upsertMarketDailyBars call db
  | .barsBatch call => upsertMarketDailyBarsBatch call db

/-- No date comes with another status than the delisted one, and no write of `upsert_instrument`
drops the date of a share. -/
def CarefulCall (db : MasterDb) : MasterCall → Prop
  | .importMaster request bulk =>
    if bulk ∧ request.records ≠ [] then
      OnOk (fun rows : List (StoredSecurity × UniverseMembership) =>
        ∀ row ∈ rows, Consistent row.1) (request.records.mapM request.parameters)
    else CarefulLoop request request.records db
  | .upsertSecurity call => CarefulSecurity db call.security
  | .bars call => ∀ instrument ∈ call.instrument?, Spares db instrument
  | .barsBatch _ => True

instance (db : MasterDb) (call : MasterCall) : Decidable (CarefulCall db call) :=
  match call with
  | .importMaster request bulk => inferInstanceAs (Decidable (if bulk ∧ request.records ≠ [] then
      OnOk (fun rows : List (StoredSecurity × UniverseMembership) =>
        ∀ row ∈ rows, Consistent row.1) (request.records.mapM request.parameters)
    else CarefulLoop request request.records db))
  | .upsertSecurity call => inferInstanceAs (Decidable (CarefulSecurity db call.security))
  | .bars call => inferInstanceAs (Decidable (∀ instrument ∈ call.instrument?, Spares db instrument))
  | .barsBatch _ => .isTrue trivial

def masterMachine : Machine MasterDb MasterCall where
  allowed := fun _ _ => True
  next := MasterDb.step

/-! ## One call -/

theorem securityOf_putSecurity (db : MasterDb) (security : StoredSecurity) (symbol : String) :
    securityOf (db.putSecurity security) symbol =
      if symbol = security.symbol then
        some (absorb StoredSecurity.merge (securityOf db symbol) security)
      else securityOf db symbol :=
  find_upsert_absorb (fun row : StoredSecurity => row.symbol) StoredSecurity.merge
    (fun _ _ => rfl) db.securities security symbol

theorem find_upsertInstrument (db : MasterDb) (instrument : Instrument) (id : InstrumentId) :
    find Instrument.id (db.upsertInstrument instrument).instruments id =
      if id = instrument.id then
        some (absorb Instrument.merge (find Instrument.id db.instruments id) instrument)
      else find Instrument.id db.instruments id :=
  find_upsert_absorb Instrument.id Instrument.merge (fun _ _ => rfl) db.instruments instrument id

variable {db : MasterDb}

theorem AllAligned.upsertSecurity (h : AllAligned db) (hcareful : CarefulSecurity db security) :
    AllAligned (db.upsertSecurity security) := by
  intro share hshare
  have hsecurity : securityOf (db.upsertSecurity security) share =
      securityOf (db.putSecurity security) share := rfl
  have hinstrument : instrumentOf (db.upsertSecurity security) share =
      find Instrument.id ((db.putSecurity security).upsertInstrument
        security.instrument).instruments (shareId share) := rfl
  rw [hsecurity, hinstrument, securityOf_putSecurity, find_upsertInstrument]
  by_cases hown : share = security.symbol
  · have hid : shareId share = security.instrument.id :=
      ((instrument_id_eq_shareId hshare).mpr hown.symm).symm
    rw [if_pos hown, if_pos hid]
    apply (h share hshare).plain
    · exact hcareful.1 (hown ▸ hshare)
    · intro hnone
      have hspares := hcareful.2 hnone
      rw [← hid] at hspares
      exact hspares hshare rfl
  · have hid : shareId share ≠ security.instrument.id := by
      intro hid
      exact hown ((instrument_id_eq_shareId hshare).mp hid.symm).symm
    rw [if_neg hown, if_neg hid]
    exact h share hshare

theorem AllAligned.upsertMembership (h : AllAligned db) (row : UniverseMembership) :
    AllAligned (db.upsertMembership row) := h

variable {request : ImportRequest}

theorem AllAligned.loop {records : List SecurityRecord} :
    ∀ {db : MasterDb}, AllAligned db → CarefulLoop request records db →
      AllAligned (request.loop records db).1 := by
  induction records with
  | nil =>
    intro db h _
    exact h
  | cons record records ih =>
    intro db h hcareful
    unfold CarefulLoop at hcareful
    unfold ImportRequest.loop
    cases hcall : record.call with
    | error message => exact h
    | ok call =>
      rw [hcall] at hcareful
      have hwritten := h.upsertSecurity hcareful.1
      have hrest := hcareful.2
      dsimp only
      cases hmembership : request.membership record call with
      | error message => exact hwritten
      | ok membership =>
        rw [hmembership] at hrest
        exact ih (hwritten.upsertMembership membership) hrest

theorem executeBulk_cons (db : MasterDb) (row : StoredSecurity × UniverseMembership)
    (rows : List (StoredSecurity × UniverseMembership)) :
    db.executeBulk (row :: rows) = (db.executeBulk [row]).executeBulk rows := rfl

variable {rows : List (StoredSecurity × UniverseMembership)}

theorem AllAligned.executeBulk :
    ∀ {db : MasterDb}, AllAligned db → (∀ row ∈ rows, Consistent row.1) →
      AllAligned (db.executeBulk rows) := by
  induction rows with
  | nil =>
    intro db h _
    exact h
  | cons row rows ih =>
    intro db h hrows
    rw [executeBulk_cons]
    apply ih _ (fun other hother => hrows other (List.mem_cons_of_mem _ hother))
    intro share hshare
    have hsecurity : securityOf (db.executeBulk [row]) share =
        if share = row.1.symbol then
          some (absorb StoredSecurity.merge (securityOf db share) row.1)
        else securityOf db share :=
      securityOf_putSecurity db row.1 share
    have hinstrument : instrumentOf (db.executeBulk [row]) share =
        if shareId share = row.1.instrument.id then
          some (absorb Instrument.mergeBulk (instrumentOf db share) row.1.instrument)
        else instrumentOf db share :=
      find_upsert_absorb Instrument.id Instrument.mergeBulk (fun _ _ => rfl) db.instruments
        row.1.instrument (shareId share)
    rw [hsecurity, hinstrument]
    by_cases hown : share = row.1.symbol
    · have hid := ((@instrument_id_eq_shareId row.1 _ hshare).mpr hown.symm).symm
      rw [if_pos hown, if_pos hid]
      exact (h share hshare).bulk (hrows row List.mem_cons_self)
    · have hid : shareId share ≠ row.1.instrument.id := by
        intro hid
        exact hown ((instrument_id_eq_shareId hshare).mp hid.symm).symm
      rw [if_neg hown, if_neg hid]
      exact h share hshare

theorem AllAligned.upsertInstrument (h : AllAligned db) {instrument : Instrument}
    (hrow : instrument.delistedDate = none) (hspares : Spares db instrument) :
    AllAligned (db.upsertInstrument instrument) := by
  intro share hshare
  have hinstrument : instrumentOf (db.upsertInstrument instrument) share = _ :=
    find_upsertInstrument db instrument (shareId share)
  have hsecurity : securityOf (db.upsertInstrument instrument) share = securityOf db share := rfl
  rw [hinstrument, hsecurity]
  by_cases hid : shareId share = instrument.id
  · rw [if_pos hid]
    apply (h share hshare).bars hrow
    have hdate := hspares hrow
    rw [← hid] at hdate
    exact hdate hshare rfl
  · rw [if_neg hid]
    exact h share hshare

theorem AllAligned.newInstruments {instruments : List Instrument} :
    ∀ {db : MasterDb}, AllAligned db → (∀ row ∈ instruments, row.delistedDate = none) →
      (∀ row ∈ instruments,
        (find Instrument.id db.instruments row.id).bind Instrument.delistedDate = none) →
      AllAligned (instruments.foldl MasterDb.upsertInstrument db) := by
  induction instruments with
  | nil =>
    intro db h _ _
    exact h
  | cons row instruments ih =>
    intro db h hdates hknown
    rw [List.foldl_cons]
    have hrow := hdates row List.mem_cons_self
    apply ih
    · exact h.upsertInstrument hrow (fun _ _ _ => hknown row List.mem_cons_self)
    · exact fun other hother => hdates other (List.mem_cons_of_mem _ hother)
    · intro other hother
      rw [find_upsertInstrument]
      split_ifs
      · rw [Option.bind_some, absorb_plain_date, hrow]
      · exact hknown other (List.mem_cons_of_mem _ hother)

theorem aligned_step {call : MasterCall} (h : AllAligned db) (hcareful : CarefulCall db call) :
    AllAligned (db.step call) := by
  cases call with
  | importMaster request bulk =>
    simp only [CarefulCall] at hcareful
    show AllAligned (importSecurityMaster request bulk db).1
    unfold importSecurityMaster
    by_cases hbulk : bulk ∧ request.records ≠ []
    · rw [if_pos hbulk] at hcareful ⊢
      cases hrows : request.records.mapM request.parameters with
      | error message => exact h
      | ok rows =>
        rw [hrows] at hcareful
        exact h.executeBulk hcareful
    · rw [if_neg hbulk] at hcareful ⊢
      exact h.loop hcareful
  | upsertSecurity call => exact h.upsertSecurity hcareful
  | bars call =>
    show AllAligned (upsertMarketDailyBars call db)
    unfold upsertMarketDailyBars
    cases hinstrument : call.instrument? with
    | none => exact h
    | some instrument =>
      have hdate : instrument.delistedDate = none := by
        unfold BarsCall.instrument? at hinstrument
        split_ifs at hinstrument
        cases hinstrument
        rfl
      exact h.upsertInstrument hdate (hcareful instrument (by rw [hinstrument]; rfl))
  | barsBatch call =>
    show AllAligned (upsertMarketDailyBarsBatch call db)
    apply h.newInstruments
    · intro row hrow
      obtain ⟨symbol, _, rfl⟩ := List.mem_map.mp (List.mem_filter.mp hrow).1
      rfl
    · intro row hrow
      have hnone := (List.mem_filter.mp hrow).2
      rw [Option.isNone_iff_eq_none] at hnone
      rw [hnone]
      rfl

/-! ## Dates that stay -/

def delistedDate (db : MasterDb) (symbol : String) : Option String :=
  (securityOf db symbol).bind (fun row => row.delistedDate)

/-- The delisting date that a record supplies for a symbol. -/
def SecurityRecord.date (symbol : String) (record : SecurityRecord) : Option String :=
  match record.call with
  | .error _ => none
  | .ok call => if call.symbol = symbol then call.delistedDate else none

/-- The delisting dates that a call supplies for a symbol. -/
def MasterCall.dates (symbol : String) : MasterCall → List String
  | .importMaster request _ => request.records.filterMap (SecurityRecord.date symbol)
  | .upsertSecurity call => if call.symbol = symbol then call.delistedDate.toList else []
  | .bars _ => []
  | .barsBatch _ => []

theorem delistedDate_putSecurity (db : MasterDb) (security : StoredSecurity) (symbol : String) :
    delistedDate (db.putSecurity security) symbol =
      if symbol = security.symbol then security.delistedDate.or (delistedDate db symbol)
      else delistedDate db symbol := by
  unfold delistedDate
  rw [securityOf_putSecurity]
  split_ifs
  · rw [Option.bind_some, absorb_security_date]
  · rfl

variable {date : String}

theorem delistedDate_kept (h : delistedDate db symbol = some date)
    (hsame : security.symbol = symbol → ∀ other, security.delistedDate = some other → other = date) :
    delistedDate (db.putSecurity security) symbol = some date := by
  rw [delistedDate_putSecurity]
  split_ifs with hown
  · cases hdate : security.delistedDate with
    | none => exact h
    | some other => rw [hsame hown.symm other hdate, Option.some_or]
  · exact h

theorem SecurityRecord.date_eq {record : SecurityRecord} {call : SecurityCall}
    (hcall : record.call = .ok call) (hsymbol : call.symbol = symbol)
    (hdate : call.delistedDate = some date) : record.date symbol = some date := by
  rw [SecurityRecord.date, hcall]
  simp [hsymbol, hdate]

theorem delistedDate_loop {records : List SecurityRecord} :
    ∀ {db : MasterDb}, delistedDate db symbol = some date →
      (∀ other ∈ records.filterMap (SecurityRecord.date symbol), other = date) →
      delistedDate (request.loop records db).1 symbol = some date := by
  induction records with
  | nil =>
    intro db h _
    exact h
  | cons record records ih =>
    intro db h hsame
    unfold ImportRequest.loop
    cases hcall : record.call with
    | error message => exact h
    | ok call =>
      have hwritten : delistedDate (db.putSecurity call.security) symbol = some date := by
        apply delistedDate_kept h
        intro hsymbol other hother
        apply hsame other
        exact List.mem_filterMap.mpr ⟨record, List.mem_cons_self,
          SecurityRecord.date_eq hcall hsymbol hother⟩
      dsimp only
      cases hmembership : request.membership record call with
      | error message => exact hwritten
      | ok membership =>
        apply ih
        · exact hwritten
        · intro other hother
          obtain ⟨later, hlater, hdate⟩ := List.mem_filterMap.mp hother
          exact hsame other (List.mem_filterMap.mpr ⟨later, List.mem_cons_of_mem _ hlater, hdate⟩)

theorem delistedDate_executeBulk :
    ∀ {db : MasterDb}, delistedDate db symbol = some date →
      (∀ row ∈ rows, row.1.symbol = symbol → ∀ other, row.1.delistedDate = some other →
        other = date) →
      delistedDate (db.executeBulk rows) symbol = some date := by
  induction rows with
  | nil =>
    intro db h _
    exact h
  | cons row rows ih =>
    intro db h hsame
    rw [executeBulk_cons]
    apply ih
    · exact delistedDate_kept h (hsame row List.mem_cons_self)
    · exact fun other hother => hsame other (List.mem_cons_of_mem _ hother)

theorem parameters_ok {record : SecurityRecord} {row : StoredSecurity × UniverseMembership}
    (h : request.parameters record = .ok row) :
    ∃ call, record.call = .ok call ∧ row.1 = call.security ∧
      request.membership record call = .ok row.2 := by
  unfold ImportRequest.parameters at h
  cases hcall : record.call with
  | error message =>
    rw [hcall] at h
    cases h
  | ok call =>
    rw [hcall] at h
    cases hmembership : request.membership record call with
    | error message =>
      simp only [Bind.bind, Except.bind, hmembership] at h
      cases h
    | ok membership =>
      simp only [Bind.bind, Except.bind, hmembership] at h
      cases h
      exact ⟨call, rfl, rfl, hmembership⟩

theorem mem_parameters (h : request.records.mapM request.parameters = .ok rows)
    {row : StoredSecurity × UniverseMembership} (hrow : row ∈ rows) :
    ∃ record ∈ request.records, ∃ call, record.call = .ok call ∧ row.1 = call.security := by
  obtain ⟨record, hrecord, hparameters⟩ := exists_of_mapM h hrow
  obtain ⟨call, hcall, hsecurity, _⟩ := parameters_ok hparameters
  exact ⟨record, hrecord, call, hcall, hsecurity⟩

theorem delistedDate_step {call : MasterCall} (h : delistedDate db symbol = some date)
    (hsame : ∀ other ∈ call.dates symbol, other = date) :
    delistedDate (db.step call) symbol = some date := by
  cases call with
  | importMaster request bulk =>
    show delistedDate (importSecurityMaster request bulk db).1 symbol = _
    unfold importSecurityMaster
    by_cases hbulk : bulk ∧ request.records ≠ []
    · rw [if_pos hbulk]
      cases hrows : request.records.mapM request.parameters with
      | error message => exact h
      | ok rows =>
        apply delistedDate_executeBulk h
        intro row hrow hsymbol other hother
        obtain ⟨record, hrecord, call, hcall, hsecurity⟩ := mem_parameters hrows hrow
        rw [hsecurity] at hsymbol hother
        apply hsame other
        exact List.mem_filterMap.mpr ⟨record, hrecord, SecurityRecord.date_eq hcall hsymbol hother⟩
    · rw [if_neg hbulk]
      exact delistedDate_loop h hsame
  | upsertSecurity call =>
    apply delistedDate_kept h
    intro hsymbol other hother
    apply hsame other
    have hsymbol' : call.symbol = symbol := hsymbol
    have hother' : call.delistedDate = some other := hother
    simp [MasterCall.dates, hsymbol', hother']
  | bars call =>
    show delistedDate (upsertMarketDailyBars call db) symbol = _
    unfold upsertMarketDailyBars
    cases call.instrument? with
    | none => exact h
    | some instrument => exact h
  | barsBatch call =>
    have hkept : ∀ (instruments : List Instrument) (db : MasterDb),
        delistedDate (instruments.foldl MasterDb.upsertInstrument db) symbol =
          delistedDate db symbol := by
      intro instruments
      induction instruments with
      | nil => exact fun _ => rfl
      | cons row instruments ih =>
        intro db
        rw [List.foldl_cons, ih]
        rfl
    show delistedDate (upsertMarketDailyBarsBatch call db) symbol = _
    unfold upsertMarketDailyBarsBatch
    rw [hkept]
    exact h

/-! ## Runs -/

def emptyMaster : MasterDb where
  securities := []
  instruments := []
  memberships := []

/-- Both rows of a share have a delisting date and the delisted status. -/
structure DelistedOn (db : MasterDb) (symbol date : String) : Prop where
  security : ∃ row, securityOf db symbol = some row ∧ row.delistedDate = some date ∧
    row.status = "delisted"
  instrument : ∃ row, instrumentOf db symbol = some row ∧ row.delistedDate = some date ∧
    row.status = "delisted"

/-- One of the rows of a share has a delisting date. -/
def KnownDelisted (db : MasterDb) (symbol date : String) : Prop :=
  delistedDate db symbol = some date ∨
    (instrumentOf db symbol).bind Instrument.delistedDate = some date

instance (db : MasterDb) (symbol date : String) : Decidable (KnownDelisted db symbol date) :=
  inferInstanceAs (Decidable (_ ∨ _))

theorem Aligned.delistedOn (h : Aligned (securityOf db symbol) (instrumentOf db symbol))
    (hdate : delistedDate db symbol = some date) : DelistedOn db symbol date := by
  have hinstrument := h.dates.symm.trans hdate
  constructor
  · obtain ⟨row, hrow, hrowDate⟩ := Option.bind_eq_some_iff.mp hdate
    exact ⟨row, hrow, hrowDate, h.security row hrow (by simp [hrowDate])⟩
  · obtain ⟨row, hrow, hrowDate⟩ := Option.bind_eq_some_iff.mp hinstrument
    exact ⟨row, hrow, hrowDate, h.instrument row hrow (by simp [hrowDate])⟩

theorem allAligned_empty : AllAligned emptyMaster := by
  intro symbol _
  constructor
  · rfl
  · simp [emptyMaster, securityOf, find]
  · simp [emptyMaster, instrumentOf, find]

theorem allAligned_after {calls : List MasterCall} (h : AllAligned db)
    (haccepts : (masterMachine.restrict CarefulCall).Accepts db calls) :
    AllAligned (masterMachine.after db calls) :=
  @Machine.invariant _ _ (masterMachine.restrict CarefulCall) AllAligned
    (fun _ _ hdb hallowed => aligned_step hdb hallowed.2) calls db h haccepts

theorem delistedDate_after {calls : List MasterCall} :
    ∀ {db : MasterDb}, delistedDate db symbol = some date →
      (∀ call ∈ calls, ∀ other ∈ call.dates symbol, other = date) →
      delistedDate (masterMachine.after db calls) symbol = some date := by
  induction calls with
  | nil =>
    intro db h _
    exact h
  | cons call calls ih =>
    intro db h hsame
    apply ih
    · exact delistedDate_step h (hsame call List.mem_cons_self)
    · exact fun later hlater => hsame later (List.mem_cons_of_mem _ hlater)

theorem delistedOn_after {before after : List MasterCall}
    (hrun : (masterMachine.restrict CarefulCall).Accepts emptyMaster (before ++ after))
    (hshare : isShare symbol = true)
    (hknown : KnownDelisted (masterMachine.after emptyMaster before) symbol date)
    (hsame : ∀ call ∈ after, ∀ other ∈ call.dates symbol, other = date) :
    DelistedOn (masterMachine.after emptyMaster (before ++ after)) symbol date := by
  have hparts := (Machine.accepts_append before emptyMaster after).mp hrun
  have hbefore := allAligned_after allAligned_empty hparts.1
  have hdate : delistedDate (masterMachine.after emptyMaster before) symbol = some date := by
    cases hknown with
    | inl hsecurity => exact hsecurity
    | inr hinstrument => exact (hbefore symbol hshare).dates.trans hinstrument
  apply (allAligned_after allAligned_empty hrun symbol hshare).delistedOn
  rw [Machine.after_append]
  exact delistedDate_after hdate hsame

end LocalPlatform.Universe
