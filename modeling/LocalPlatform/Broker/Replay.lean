import LocalPlatform.Broker.Reconciliation

/-!
# Replays of broker records

A broker delivers its records again, in another order and more than once.

* What the snapshot derives depends only on which records there are, as long as no two fills of
  the same id conflict (`NoConflicts.sameOutcome`).
* Of two fills that conflict the first one stays, so a list that begins with another one derives
  something else (`conflict_not_invariant`).
* `replay_invariant_iff` puts the two together.
-/

namespace LocalPlatform.Broker

open JsonText Paper Tables

/-! ## Replays -/

/-- The records are delivered in any order, each of them at least as often as before. -/
structure Replayed (records again : List Object) : Prop where
  all : records.Subperm again
  only : ∀ record ∈ again, record ∈ records

theorem Replayed.refl (records : List Object) : Replayed records records :=
  ⟨List.Subperm.refl _, fun _ h => h⟩

theorem Replayed.mem_iff {records again : List Object} (h : Replayed records again)
    (record : Object) : record ∈ records ↔ record ∈ again :=
  ⟨fun hmem => h.all.subset hmem, h.only record⟩

theorem Replayed.cons {records : List Object} {record : Object} (h : record ∈ records) :
    Replayed records (record :: records) where
  all := (List.sublist_cons_self record records).subperm
  only := by
    intro other hother
    cases List.mem_cons.mp hother with
    | inl heq => rwa [heq]
    | inr hmem => exact hmem

def BrokerQueryEnvelope.redelivered (envelope : BrokerQueryEnvelope) (records : List Object) :
    BrokerQueryEnvelope :=
  { envelope with records := records }

/-- Two snapshots derive the same. -/
structure SameDerived (a b : BrokerReconciliationSnapshot) : Prop where
  orders : a.orders = b.orders
  orphans : ∀ record, record ∈ a.orphanFills ↔ record ∈ b.orphanFills
  errors : ∀ error, error ∈ a.sourceErrors ↔ error ∈ b.sourceErrors
  complete : a.complete = b.complete
  economics : a.economicsProven = b.economicsProven

/-- Two calls raise the same error or derive the same. -/
def SameOutcome : Except String BrokerReconciliationSnapshot →
    Except String BrokerReconciliationSnapshot → Prop
  | .error a, .error b => a = b
  | .ok a, .ok b => SameDerived a b
  | _, _ => False

/-- Every replay of the records has the same outcome. -/
def ReplayInvariant (orders fills : BrokerQueryEnvelope) : Prop :=
  ∀ orders' fills', Replayed orders.records orders' → Replayed fills.records fills' →
    SameOutcome (reconcileBrokerHistory orders fills)
      (reconcileBrokerHistory (orders.redelivered orders') (fills.redelivered fills'))

/-! ## The same records -/

section Members

variable {records again : List Object} (hmem : ∀ record, record ∈ records ↔ record ∈ again)

include hmem

theorem mem_orderEvents_congr (record : Object) :
    record ∈ orderEvents records ↔ record ∈ orderEvents again := by
  rw [mem_orderEvents, mem_orderEvents, hmem]

theorem orderIds_congr : orderIds records = orderIds again := by
  apply orderBy_eq_of_mem (fun _ _ _ _ h => h) nodup_uniqueFirst nodup_uniqueFirst
  intro orderId
  simp only [mem_uniqueFirst_id, List.mem_map, mem_orderEvents_congr hmem]

theorem lifecycleOf_congr (orderId : String) :
    lifecycleOf records orderId = lifecycleOf again orderId := by
  apply orderBy_eq_of_mem (fun _ _ _ _ h => eventRank_injective h)
  · exact (nodup_uniqueFirst.filter _).filter _
  · exact (nodup_uniqueFirst.filter _).filter _
  · intro record
    rw [List.mem_filter, List.mem_filter, mem_orderEvents_congr hmem]

theorem NoConflicts.congr (h : NoConflicts records) : NoConflicts again := by
  intro a ha b hb
  exact h a ((hmem a).mpr ha) b ((hmem b).mpr hb)

theorem NoConflicts.mem_uniqueFills_congr (h : NoConflicts records) (record : Object) :
    record ∈ uniqueFills records ↔ record ∈ uniqueFills again := by
  rw [h.mem_uniqueFills, (h.congr hmem).mem_uniqueFills, hmem]

theorem NoConflicts.fillsOf_congr (h : NoConflicts records) (orderId : String) :
    fillsOf records orderId = fillsOf again orderId := by
  apply orderBy_eq_of_mem
  · intro a ha b hb hrank
    simp only [fillRank, EmbeddingLike.apply_eq_iff_eq, Prod.mk.injEq] at hrank
    have hid : fillId a = fillId b := by rw [fillId, fillId, hrank.2]
    have hfill := mem_of_uniqueFills (List.mem_filter.mp ha).1
    have hother := mem_of_uniqueFills (List.mem_filter.mp hb).1
    exact h.eq hfill.1 hother.1 hfill.2 hid
  · exact nodup_uniqueFirst.filter _
  · exact nodup_uniqueFirst.filter _
  · intro record
    rw [List.mem_filter, List.mem_filter, h.mem_uniqueFills_congr hmem]

end Members

/-! ## The same outcome -/

section Outcome

variable {orders fills : BrokerQueryEnvelope} {orders' fills' : List Object}

theorem NoConflicts.mem_dedupedErrors (h : NoConflicts fills.records) {error : BrokerSourceError} :
    error ∈ dedupedErrors orders fills ↔
      error ∈ orders.sourceErrors ∨ error ∈ fills.sourceErrors ∨
        (∃ record ∈ fills.records, fillId record = "" ∧ fillIdMissing fills.adapterId = error) ∨
        ∃ record ∈ orders.records, eventError orders record = some error := by
  have hfills : error ∈ fills.records.filterMap (Broker.fillError fills) ↔
      ∃ record ∈ fills.records, fillId record = "" ∧ fillIdMissing fills.adapterId = error := by
    rw [List.mem_filterMap]
    constructor
    · intro hex
      obtain ⟨record, hrecord, herror⟩ := hex
      rw [h.fillError hrecord] at herror
      by_cases hid : fillId record = ""
      · simp only [hid, if_true, Option.some.injEq] at herror
        exact ⟨record, hrecord, hid, herror⟩
      · simp [hid] at herror
    · intro hex
      obtain ⟨record, hrecord, hid, herror⟩ := hex
      exact ⟨record, hrecord, by simp [h.fillError hrecord, hid, herror]⟩
  simp only [dedupedErrors, mem_uniqueFirst_id, List.mem_append, hfills, or_assoc,
    List.mem_filterMap, mem_uniqueOrderEvents]

theorem isEmpty_congr {α : Type} {a b : List α} (h : ∀ x, x ∈ a ↔ x ∈ b) :
    a.isEmpty = b.isEmpty := by
  rw [Bool.eq_iff_iff, List.isEmpty_iff, List.isEmpty_iff, List.eq_nil_iff_forall_not_mem,
    List.eq_nil_iff_forall_not_mem]
  simp [h]

theorem all_congr {α : Type} {p : α → Bool} {a b : List α} (h : ∀ x, x ∈ a ↔ x ∈ b) :
    a.all p = b.all p := by
  rw [Bool.eq_iff_iff, List.all_eq_true, List.all_eq_true]
  simp [h]

theorem NoConflicts.sameDerived (h : NoConflicts fills.records)
    (horders : ∀ record, record ∈ orders.records ↔ record ∈ orders')
    (hfills : ∀ record, record ∈ fills.records ↔ record ∈ fills') :
    SameDerived (snapshotOf orders fills)
      (snapshotOf (orders.redelivered orders') (fills.redelivered fills')) := by
  have hagain : NoConflicts (fills.redelivered fills').records := h.congr hfills
  have hids := orderIds_congr horders
  have hunique := h.mem_uniqueFills_congr hfills
  have hreconciled : reconciledOrders orders.records fills.records =
      reconciledOrders orders' fills' := by
    unfold reconciledOrders
    rw [hids]
    congr 1
    funext orderId
    rw [reconcileOrder, reconcileOrder, lifecycleOf_congr horders, h.fillsOf_congr hfills]
  have horphans : ∀ record, record ∈ orphanFills orders.records fills.records ↔
      record ∈ orphanFills orders' fills' := by
    intro record
    rw [mem_orphanFills, mem_orphanFills, hunique, hids, mem_anonymousFills, mem_anonymousFills,
      hfills]
  have herrors : ∀ error, error ∈ dedupedErrors orders fills ↔
      error ∈ dedupedErrors (orders.redelivered orders') (fills.redelivered fills') := by
    intro error
    rw [h.mem_dedupedErrors, hagain.mem_dedupedErrors]
    simp only [BrokerQueryEnvelope.redelivered, horders, hfills, eventError]
  have hcomplete : historyComplete orders fills =
      historyComplete (orders.redelivered orders') (fills.redelivered fills') := by
    unfold historyComplete
    rw [isEmpty_congr herrors, isEmpty_congr horphans]
    rfl
  constructor
  · exact hreconciled
  · exact horphans
  · exact herrors
  · exact hcomplete
  · show (historyComplete _ _ && _) = (historyComplete _ _ && _)
    rw [hcomplete, all_congr hunique]
    rfl

theorem sameOutcome_iff :
    SameOutcome (reconcileBrokerHistory orders fills)
        (reconcileBrokerHistory (orders.redelivered orders') (fills.redelivered fills')) ↔
      (Reconcilable orders fills → SameDerived (snapshotOf orders fills)
        (snapshotOf (orders.redelivered orders') (fills.redelivered fills'))) := by
  have hsame : rejection (orders.redelivered orders') (fills.redelivered fills') =
      rejection orders fills := rfl
  rw [reconcileBrokerHistory, reconcileBrokerHistory, hsame, ← rejection_eq_none_iff]
  cases rejection orders fills with
  | some message => simp [SameOutcome]
  | none => simp [SameOutcome]

theorem not_sameDerived_of_conflict {first other : Object}
    (hfirst : find fillId (identified fills.records) (fillId first) = some first)
    (hsame : fillId other = fillId first) (hne : other ≠ first) :
    ¬ SameDerived (snapshotOf orders fills)
      (snapshotOf orders (fills.redelivered (other :: fills.records))) := by
  intro h
  have hmem : first ∈ uniqueFills fills.records := mem_uniqueFirst_iff.mpr hfirst
  have hid := (mem_of_uniqueFills hmem).2
  have hgone : first ∉ uniqueFills (other :: fills.records) := by
    intro hstays
    have hfind := mem_uniqueFirst_iff.mp hstays
    have hkept : identified (other :: fills.records) = other :: identified fills.records := by
      rw [identified, List.filter_cons_of_pos (by simpa [hsame] using hid)]
      rfl
    rw [hkept, find, List.find?_cons_of_pos (by simpa using hsame)] at hfind
    exact hne (Option.some.inj hfind)
  by_cases hknown : brokerOrderId first ∈ orderIds orders.records
  · obtain ⟨order, horder⟩ := @reconcileOrder_isSome _ _ fills.records hknown
    have hin : order ∈ reconciledOrders orders.records fills.records :=
      mem_reconciledOrders.mpr ⟨_, hknown, horder⟩
    have hfill : first ∈ order.fills := by
      rw [reconcileOrder_fills horder]
      exact mem_fillsOf.mpr ⟨hmem, rfl⟩
    have hafter : order ∈ reconciledOrders orders.records (other :: fills.records) := by
      have horders : reconciledOrders orders.records fills.records =
        reconciledOrders orders.records (other :: fills.records) := h.orders
      rwa [← horders]
    obtain ⟨orderId, _, hagain⟩ := mem_reconciledOrders.mp hafter
    rw [reconcileOrder_fills hagain] at hfill
    exact hgone (mem_fillsOf.mp hfill).1
  · have horphan : first ∈ orphanFills orders.records (other :: fills.records) :=
      (h.orphans first).mp (mem_orphanFills.mpr (.inl ⟨hmem, hknown⟩))
    cases mem_orphanFills.mp horphan with
    | inl hunique => exact hgone hunique.1
    | inr hanonymous => exact hid (mem_anonymousFills.mp hanonymous).2

theorem exists_conflict {records : List Object} (h : ¬ NoConflicts records) :
    ∃ first other, find fillId (identified records) (fillId first) = some first ∧
      other ∈ records ∧ fillId other = fillId first ∧ other ≠ first := by
  unfold NoConflicts at h
  push Not at h
  obtain ⟨a, ha, b, hb, hid, hsame, hne⟩ := h
  have hfound : ∃ first, find fillId (identified records) (fillId a) = some first := by
    apply Option.ne_none_iff_exists'.mp
    rw [ne_eq, find_eq_none_iff, not_not]
    exact List.mem_map_of_mem (mem_identified.mpr ⟨ha, hid⟩)
  obtain ⟨first, hfirst⟩ := hfound
  have hkey := find_key hfirst
  rw [← hkey] at hfirst
  by_cases hfa : a = first
  · have hfb : b ≠ first := by
      intro hfb
      rw [hfa, hfb] at hne
      exact hne rfl
    exact ⟨first, b, hfirst, hb, by rw [← hsame, hkey], hfb⟩
  · exact ⟨first, a, hfirst, ha, hkey.symm, hfa⟩

end Outcome

/-! ## Invariance -/

/-- Every replay of the records has the same outcome, exactly when the call raises or no two fills
of one id differ. -/
theorem replay_invariant_iff (orders fills : BrokerQueryEnvelope) :
    ReplayInvariant orders fills ↔ (Reconcilable orders fills → NoConflicts fills.records) := by
  constructor
  · intro h hreconcilable
    by_contra hconflict
    obtain ⟨first, other, hfirst, hmem, hsame, hne⟩ := exists_conflict hconflict
    have houtcome := h _ _ (Replayed.refl orders.records) (Replayed.cons hmem)
    exact not_sameDerived_of_conflict hfirst hsame hne (sameOutcome_iff.mp houtcome hreconcilable)
  · intro h orders' fills' horders hfills
    apply sameOutcome_iff.mpr
    intro hreconcilable
    exact (h hreconcilable).sameDerived horders.mem_iff hfills.mem_iff

/-- Two fills with one id and other quantities: the order is filled or not by the one that comes
first. -/
theorem conflicting_fills_reordered :
    ¬ ReplayInvariant (sampleEnvelope "orders" [sampleOrder "ACKNOWLEDGED" "100"])
      (sampleEnvelope "fills" [sampleFill "fill-1" "60", sampleFill "fill-1" "100"]) := by
  intro h
  have houtcome := h [sampleOrder "ACKNOWLEDGED" "100"]
    [sampleFill "fill-1" "100", sampleFill "fill-1" "60"] (Replayed.refl _)
    ⟨(List.Perm.swap _ _ []).subperm, by simp [sampleEnvelope]⟩
  have hderived := (sameOutcome_iff.mp houtcome ⟨rfl, rfl, rfl⟩).orders
  revert hderived
  decide +kernel

end LocalPlatform.Broker
