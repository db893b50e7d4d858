import LocalPlatform.Broker.Reconciliation
import Mathlib.Data.List.Count

/-!
# Proven economics

What `economicsProven` says about the orders of a snapshot.

* `economicsProven_iff`: the flag holds exactly when the envelopes are complete and account for
  every fill (`Accounted`).
* Every fill is then a fill of exactly one reconciled order (`Accounted.attributed`).
* The flag does not look at quantities.  `QuantitiesAgree` says which quantities and broker
  statuses give sound orders, and `economics_sound_iff` that no others do.
-/

namespace LocalPlatform.Broker

open JsonText Paper Tables

/-! ## Accounted envelopes -/

/-- Complete envelopes of one window in which every record has its id, no two fills conflict, and
every fill has a fee and an observed order. -/
structure Accounted (orders fills : BrokerQueryEnvelope) : Prop where
  ordersComplete : orders.complete = true
  fillsComplete : fills.complete = true
  window : sameWindow orders fills = true
  eventIds : ∀ event ∈ orders.records, brokerOrderId event ≠ ""
  fillIds : ∀ record ∈ fills.records, fillId record ≠ ""
  conflicts : NoConflicts fills.records
  known : ∀ record ∈ fills.records, ∃ event ∈ orders.records,
    brokerOrderId event = brokerOrderId record
  fees : ∀ record ∈ fills.records, feeKnown record = true

section Flag

variable {orders fills : BrokerQueryEnvelope}

theorem uniqueFirst_eq_nil {κ : Type} [DecidableEq κ] {rows : List κ} :
    uniqueFirst id rows = [] ↔ rows = [] := by
  rw [List.eq_nil_iff_forall_not_mem, List.eq_nil_iff_forall_not_mem]
  simp only [mem_uniqueFirst_id]

theorem fillError_eq_none {record : Object} :
    fillError fills record = none ↔ fillId record ≠ "" ∧
      (find fillId (identified fills.records) (fillId record)).map canonical =
        some (canonical record) := by
  unfold fillError
  split_ifs with hid hfind
  · simp [hid]
  · simp [hfind]
  · simpa [hid] using not_not.mp hfind

theorem fillErrors_eq_nil_iff :
    fills.records.filterMap (fillError fills) = [] ↔
      (∀ record ∈ fills.records, fillId record ≠ "") ∧ NoConflicts fills.records := by
  rw [List.filterMap_eq_nil_iff]
  constructor
  · intro h
    constructor
    · exact fun record hrecord => (fillError_eq_none.mp (h record hrecord)).1
    · intro a ha b hb _ hsame
      have hfirst := (fillError_eq_none.mp (h a ha)).2
      have hsecond := (fillError_eq_none.mp (h b hb)).2
      rw [hsame, hsecond] at hfirst
      exact (Option.some.inj hfirst).symm
  · intro h record hrecord
    rw [h.2.fillError hrecord, if_neg (h.1 record hrecord)]

theorem eventErrors_eq_nil_iff :
    (uniqueOrderEvents orders.records).filterMap (eventError orders) = [] ↔
      ∀ event ∈ orders.records, brokerOrderId event ≠ "" := by
  simp [List.filterMap_eq_nil_iff, eventError, mem_uniqueOrderEvents]

theorem dedupedErrors_eq_nil_iff :
    dedupedErrors orders fills = [] ↔ orders.sourceErrors = [] ∧ fills.sourceErrors = [] ∧
      (∀ record ∈ fills.records, fillId record ≠ "") ∧ NoConflicts fills.records ∧
      ∀ event ∈ orders.records, brokerOrderId event ≠ "" := by
  simp only [dedupedErrors, uniqueFirst_eq_nil, List.append_eq_nil_iff, fillErrors_eq_nil_iff,
    eventErrors_eq_nil_iff, and_assoc]

theorem economicsProven_iff :
    (snapshotOf orders fills).economicsProven = true ↔ Accounted orders fills := by
  have hflag : (snapshotOf orders fills).economicsProven =
      (historyComplete orders fills && (uniqueFills fills.records).all feeKnown) := rfl
  rw [hflag]
  simp only [historyComplete, Bool.and_eq_true, List.isEmpty_iff, dedupedErrors_eq_nil_iff]
  constructor
  · intro h
    obtain ⟨⟨⟨⟨⟨horders, hfills⟩, hwindow⟩, herrors⟩, horphans⟩, hfees⟩ := h
    obtain ⟨_, _, hfillIds, hconflicts, heventIds⟩ := herrors
    have hunique : ∀ record ∈ fills.records, record ∈ uniqueFills fills.records :=
      fun record hrecord => hconflicts.mem_uniqueFills.mpr ⟨hrecord, hfillIds record hrecord⟩
    refine ⟨horders, hfills, hwindow, heventIds, hfillIds, hconflicts, ?_, ?_⟩
    · intro record hrecord
      have hknown : brokerOrderId record ∈ orderIds orders.records := by
        by_contra hnot
        have horphan : record ∈ orphanFills orders.records fills.records :=
          mem_orphanFills.mpr (.inl ⟨hunique record hrecord, hnot⟩)
        rw [horphans] at horphan
        cases horphan
      obtain ⟨event, hevent, hid⟩ := mem_orderIds.mp hknown
      exact ⟨event, (mem_orderEvents.mp hevent).1, hid⟩
    · exact fun record hrecord => List.all_eq_true.mp hfees record (hunique record hrecord)
  · intro h
    refine ⟨⟨⟨⟨⟨h.ordersComplete, h.fillsComplete⟩, h.window⟩, ?_⟩, ?_⟩, ?_⟩
    · exact ⟨orders.completeness h.ordersComplete, fills.completeness h.fillsComplete, h.fillIds, h.conflicts,
        h.eventIds⟩
    · rw [List.eq_nil_iff_forall_not_mem]
      intro record horphan
      cases mem_orphanFills.mp horphan with
      | inl hunique =>
        obtain ⟨event, hevent, hid⟩ := h.known record (mem_of_uniqueFills hunique.1).1
        have hmem := mem_orderEvents.mpr ⟨hevent, h.eventIds event hevent⟩
        exact hunique.2 (mem_orderIds.mpr ⟨event, hmem, hid⟩)
      | inr hanonymous =>
        have hmem := mem_anonymousFills.mp hanonymous
        exact h.fillIds record hmem.1 hmem.2
    · rw [List.all_eq_true]
      exact fun record hunique => h.fees record (mem_of_uniqueFills hunique).1

end Flag

/-! ## Attribution -/

/-- The number of orders that a fill belongs to. -/
def attributions (orders : List ReconciledOrder) (record : Object) : Nat :=
  orders.countP (fun order => order.fills.contains record)

theorem nodup_orderIds (records : List Object) : (orderIds records).Nodup :=
  (orderBy_perm id _).nodup_iff.mpr nodup_uniqueFirst

theorem attributions_eq_one {orders fills : List Object} {record : Object}
    (hrecord : record ∈ uniqueFills fills) (hknown : brokerOrderId record ∈ orderIds orders) :
    attributions (reconciledOrders orders fills) record = 1 := by
  have hcount : attributions (reconciledOrders orders fills) record =
      (orderIds orders).count (brokerOrderId record) := by
    rw [attributions, reconciledOrders, List.countP_filterMap, List.count]
    apply List.countP_congr
    intro orderId hid
    obtain ⟨order, horder⟩ := @reconcileOrder_isSome _ _ fills hid
    simp only [horder, Option.map_some, Option.getD_some, reconcileOrder_fills horder,
      List.contains_iff_mem, mem_fillsOf, hrecord, true_and, beq_iff_eq]
    exact eq_comm
  rw [hcount]
  exact List.count_eq_one_of_mem (nodup_orderIds orders) hknown

theorem Accounted.attributed {orders fills : BrokerQueryEnvelope} (h : Accounted orders fills) :
    ∀ record ∈ fills.records, attributions (snapshotOf orders fills).orders record = 1 := by
  intro record hrecord
  obtain ⟨event, hevent, hid⟩ := h.known record hrecord
  have hmem := mem_orderEvents.mpr ⟨hevent, h.eventIds event hevent⟩
  apply attributions_eq_one
  · exact h.conflicts.mem_uniqueFills.mpr ⟨hrecord, h.fillIds record hrecord⟩
  · exact mem_orderIds.mpr ⟨event, hmem, hid⟩

/-! ## Quantities -/

/-- The terminal statuses of an order that is not filled, even in part. -/
def terminalUnfilled : List String := ["CANCELLED", "CANCELED", "REJECTED"]

/-- What a proven order promises. -/
structure OrderSound (order : ReconciledOrder) : Prop where
  filled : order.status = "FILLED" →
    order.observedFillQuantity = quantityOf order.facts ∧ 0 < quantityOf order.facts
  bounded : order.observedFillQuantity ≤ quantityOf order.facts
  terminal : order.status ∈ terminalUnfilled → order.fills = []

/-- The latest observation of an order. -/
structure Latest (records : List Object) (latest : Object) : Prop where
  mem : latest ∈ records
  orderId : brokerOrderId latest ≠ ""
  last : ∀ event ∈ records, brokerOrderId event = brokerOrderId latest →
    eventRank event ≤ eventRank latest

/-- The latest observation of an order and its fills agree: the fills do not exceed the order,
they complete it when the broker calls it filled, and there are none that count for nothing when
the broker calls it cancelled, or for less than the order when it calls it rejected. -/
structure OrderAgrees (latest : Object) (fills : List Object) : Prop where
  bounded : fillQuantity fills ≤ quantityOf latest
  filled : statusOf latest = "FILLED" →
    0 < quantityOf latest ∧ quantityOf latest ≤ fillQuantity fills
  cancelled : statusOf latest ∈ terminalCancelled → fills = [] ∨ 0 < fillQuantity fills
  rejected : statusOf latest = "REJECTED" →
    fills = [] ∨ 0 < quantityOf latest ∧ quantityOf latest ≤ fillQuantity fills

theorem quantityOf_orderOf (latest : Object) (fills : List Object) :
    quantityOf (orderOf latest fills).facts = quantityOf latest := by
  have hkey : "quantity" ∉ ["status", "observedFillQuantity", "fills"] := by decide
  rw [quantityOf, orderOf, latest.get_without hkey, quantityOf]

theorem OrderSound.agrees {latest : Object} {fills : List Object}
    (h : OrderSound (orderOf latest fills)) : OrderAgrees latest fills := by
  have hbounded := h.bounded
  have hfilled := h.filled
  have hterminal := h.terminal
  rw [quantityOf_orderOf] at hbounded hfilled
  simp only [orderOf] at hbounded hfilled hterminal
  refine ⟨hbounded, ?_, ?_, ?_⟩
  · intro hs
    rw [hs] at hfilled
    have hboth := hfilled (by simp [reconciledStatus, terminalCancelled])
    exact ⟨hboth.2, hboth.1.ge⟩
  · intro hs
    by_cases hpositive : 0 < fillQuantity fills
    · exact .inr hpositive
    · by_cases hfull : 0 < quantityOf latest ∧ quantityOf latest ≤ fillQuantity fills
      · exact absurd (lt_of_lt_of_le hfull.1 hfull.2) hpositive
      · simp only [reconciledStatus, hpositive, hfull, and_false, false_and, if_false] at hterminal
        apply Or.inl
        apply hterminal
        simp only [terminalCancelled, List.mem_cons, List.not_mem_nil, or_false] at hs
        cases hs with
        | inl hs => simp [hs, terminalUnfilled]
        | inr hs => simp [hs, terminalUnfilled]
  · intro hs
    by_cases hfull : 0 < quantityOf latest ∧ quantityOf latest ≤ fillQuantity fills
    · exact .inr hfull
    · rw [hs] at hterminal
      simp [reconciledStatus, hfull, terminalCancelled] at hterminal
      exact .inl (hterminal (by decide))

theorem OrderAgrees.sound {latest : Object} {fills : List Object} (h : OrderAgrees latest fills) :
    OrderSound (orderOf latest fills) := by
  constructor
  · rw [quantityOf_orderOf]
    simp only [orderOf, reconciledStatus]
    intro hs
    split_ifs at hs with hcancelled hfull hpartial
    · exact absurd hs (by decide)
    · exact ⟨le_antisymm h.bounded hfull.2, hfull.1⟩
    · exact absurd hs (by decide)
    · exact absurd (h.filled hs) hfull
  · rw [quantityOf_orderOf]
    exact h.bounded
  · simp only [orderOf, reconciledStatus]
    intro hs
    split_ifs at hs with hcancelled hfull hpartial
    · exact absurd hs (by decide)
    · exact absurd hs (by decide)
    · exact absurd hs (by decide)
    · by_cases hrejected : statusOf latest = "REJECTED"
      · exact (h.rejected hrejected).resolve_right hfull
      · have hmem : statusOf latest ∈ terminalCancelled := by
          simpa [terminalUnfilled, terminalCancelled, hrejected] using hs
        exact (h.cancelled hmem).resolve_right (fun hpositive => hcancelled ⟨hmem, hpositive⟩)

theorem orderSound_iff (latest : Object) (fills : List Object) :
    OrderSound (orderOf latest fills) ↔ OrderAgrees latest fills :=
  ⟨OrderSound.agrees, OrderAgrees.sound⟩

theorem getLast?_lifecycleOf {records : List Object} {orderId : String} {latest : Object} :
    (lifecycleOf records orderId).getLast? = some latest ↔
      Latest records latest ∧ brokerOrderId latest = orderId := by
  constructor
  · intro hlast
    have hfound := le_of_getLast?_orderBy hlast
    simp only [List.mem_filter, beq_iff_eq, mem_orderEvents] at hfound
    obtain ⟨⟨⟨hmem, hid⟩, horder⟩, hle⟩ := hfound
    refine ⟨⟨hmem, hid, ?_⟩, horder⟩
    intro event hevent hsame
    exact hle event ⟨⟨hevent, hsame ▸ hid⟩, hsame.trans horder⟩
  · intro h
    have hmem : latest ∈ lifecycleOf records orderId :=
      mem_lifecycleOf.mpr ⟨mem_orderEvents.mpr ⟨h.1.mem, h.1.orderId⟩, h.2⟩
    cases hlast : (lifecycleOf records orderId).getLast? with
    | none =>
      rw [List.getLast?_eq_none_iff] at hlast
      rw [hlast] at hmem
      cases hmem
    | some other =>
      have hfound := le_of_getLast?_orderBy hlast
      simp only [List.mem_filter, beq_iff_eq, mem_orderEvents] at hfound
      have hle := hfound.2 latest ⟨⟨h.1.mem, h.1.orderId⟩, h.2⟩
      have hge := h.1.last other hfound.1.1.1 (hfound.1.2.trans h.2.symm)
      rw [eventRank_injective (le_antisymm hge hle)]

theorem mem_orders_iff {orders fills : BrokerQueryEnvelope} {order : ReconciledOrder} :
    order ∈ (snapshotOf orders fills).orders ↔ ∃ latest, Latest orders.records latest ∧
      order = orderOf latest (fillsOf fills.records (brokerOrderId latest)) := by
  have horders : (snapshotOf orders fills).orders =
      reconciledOrders orders.records fills.records := rfl
  rw [horders, mem_reconciledOrders]
  constructor
  · intro h
    obtain ⟨orderId, _, horder⟩ := h
    obtain ⟨latest, hlast, rfl⟩ := Option.map_eq_some_iff.mp horder
    have hlatest := getLast?_lifecycleOf.mp hlast
    exact ⟨latest, hlatest.1, by rw [hlatest.2]⟩
  · intro h
    obtain ⟨latest, hlatest, rfl⟩ := h
    have hmem := mem_orderEvents.mpr ⟨hlatest.mem, hlatest.orderId⟩
    refine ⟨brokerOrderId latest, mem_orderIds.mpr ⟨latest, hmem, rfl⟩, ?_⟩
    rw [reconcileOrder, getLast?_lifecycleOf.mpr ⟨hlatest, rfl⟩, Option.map_some]

/-! ## Soundness -/

/-- The latest observations agree with the fills. -/
def QuantitiesAgree (orders fills : BrokerQueryEnvelope) : Prop :=
  ∀ latest, Latest orders.records latest →
    OrderAgrees latest (fillsOf fills.records (brokerOrderId latest))

/-- Every fill belongs to one order, and every order keeps its promise. -/
structure EconomicsSound (snapshot : BrokerReconciliationSnapshot) : Prop where
  attributed : ∀ record ∈ snapshot.rawFills, attributions snapshot.orders record = 1
  orders : ∀ order ∈ snapshot.orders, OrderSound order

theorem Accounted.economicsSound_iff {orders fills : BrokerQueryEnvelope}
    (h : Accounted orders fills) :
    EconomicsSound (snapshotOf orders fills) ↔ QuantitiesAgree orders fills := by
  constructor
  · intro hsound latest hlatest
    have hmem : orderOf latest (fillsOf fills.records (brokerOrderId latest)) ∈
        (snapshotOf orders fills).orders := mem_orders_iff.mpr ⟨latest, hlatest, rfl⟩
    exact (orderSound_iff _ _).mp (hsound.orders _ hmem)
  · intro hagree
    constructor
    · exact h.attributed
    · intro order horder
      obtain ⟨latest, hlatest, rfl⟩ := mem_orders_iff.mp horder
      exact (orderSound_iff _ _).mpr (hagree latest hlatest)

/-- Proven economics are sound exactly when the latest observations of accounted envelopes agree
with the fills. -/
theorem economics_sound_iff (orders fills : BrokerQueryEnvelope) :
    (∀ snapshot, reconcileBrokerHistory orders fills = .ok snapshot →
        snapshot.economicsProven = true → EconomicsSound snapshot) ↔
      (Reconcilable orders fills → Accounted orders fills → QuantitiesAgree orders fills) := by
  constructor
  · intro h hreconcilable haccounted
    have hok := reconcileBrokerHistory_eq_ok.mpr ⟨hreconcilable, rfl⟩
    exact haccounted.economicsSound_iff.mp (h _ hok (economicsProven_iff.mpr haccounted))
  · intro h snapshot hok hproven
    obtain ⟨hreconcilable, rfl⟩ := reconcileBrokerHistory_eq_ok.mp hok
    have haccounted := economicsProven_iff.mp hproven
    exact haccounted.economicsSound_iff.mpr (h hreconcilable haccounted)

/-- An order of 100 with a fill of 150 is proven. -/
theorem overfilled_order_proven :
    ¬ ∀ snapshot, reconcileBrokerHistory
        (sampleEnvelope "orders" [sampleOrder "ACKNOWLEDGED" "100"])
        (sampleEnvelope "fills" [sampleFill "fill-1" "150"]) = .ok snapshot →
      snapshot.economicsProven = true → EconomicsSound snapshot := by
  intro h
  have hsound := h _ (reconcileBrokerHistory_eq_ok.mpr ⟨⟨rfl, rfl, rfl⟩, rfl⟩) (by decide +kernel)
  have hbounded := fun order horder => (hsound.orders order horder).bounded
  revert hbounded
  decide +kernel

end LocalPlatform.Broker
