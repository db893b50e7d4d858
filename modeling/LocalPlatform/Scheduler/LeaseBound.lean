import LocalPlatform.Lib.Rows
import LocalPlatform.Scheduler.Leases
import Mathlib.Data.List.Induction
import Mathlib.Data.List.Perm.Subperm

/-!
# Leases as a bounded semaphore

* `Leases` is the invariant of the table: ids, slots and holders are unique, and a slot is below
  the limit.  Every step keeps it, on either database (`Leases.step`).
* `acquire_cases` are the four ways in which a call for a lease ends.
* `StepRight` says what a semaphore promises about one step.
* `leases_right_iff`: it holds of every step of a run exactly when no call on PostgreSQL has to
  look for a second slot (`FirstSlot`).
-/

namespace LocalPlatform.Scheduler

open Sessions Tables

/-! ## The invariant -/

structure Leases (limit : String → Int) (db : LeaseDb) : Prop where
  ids : Unique Lease.id db.leases
  slots : Unique Lease.slotKey db.leases
  holders : Unique Lease.holderKey db.leases
  below : ∀ lease ∈ db.leases, lease.slotIndex < maxSlots (limit lease.resource)
  fresh : ∀ lease ∈ db.leases, lease.id < db.nextId

def Free (db : LeaseDb) (resource : String) (slot : Nat) : Prop :=
  ∀ lease ∈ db.leases, lease.slotKey ≠ (resource, slot)

instance (db : LeaseDb) (resource : String) (slot : Nat) : Decidable (Free db resource slot) :=
  inferInstanceAs (Decidable (∀ lease ∈ db.leases, lease.slotKey ≠ (resource, slot)))

section Invariant

variable {limit : String → Int} {db : LeaseDb}

theorem Leases.sublist (h : Leases limit db) {next : LeaseDb}
    (hleases : next.leases.Sublist db.leases) (hid : db.nextId ≤ next.nextId) :
    Leases limit next where
  ids := h.ids.sublist (hleases.map _)
  slots := h.slots.sublist (hleases.map _)
  holders := h.holders.sublist (hleases.map _)
  below := fun lease hlease => h.below lease (hleases.subset hlease)
  fresh := by
    intro lease hlease
    have hlt := h.fresh lease (hleases.subset hlease)
    omega

theorem cleaned_sublist (resource : String) (db : LeaseDb) :
    (cleaned resource db).leases.Sublist db.leases := by
  unfold cleaned dropTerminal
  split_ifs
  · exact List.filter_sublist.trans List.filter_sublist
  · exact List.filter_sublist

@[simp] theorem cleaned_now (resource : String) (db : LeaseDb) :
    (cleaned resource db).now = db.now := by
  unfold cleaned dropTerminal
  split_ifs <;> rfl

@[simp] theorem cleaned_nextId (resource : String) (db : LeaseDb) :
    (cleaned resource db).nextId = db.nextId := by
  unfold cleaned dropTerminal
  split_ifs <;> rfl

variable {lease : Lease}

theorem cleaned_active {resource : String} (h : lease ∈ (cleaned resource db).leases) :
    db.now < lease.expiresAt := by
  have hdropped : lease ∈ (dropExpired db).leases := by
    unfold cleaned dropTerminal at h
    split_ifs at h
    · exact List.mem_of_mem_filter h
    · exact h
  simpa using (List.mem_filter.mp hdropped).2

theorem insertLease_eq_none_iff : insertLease lease db = none ↔
    ∃ old ∈ db.leases, old.id = lease.id ∨ old.slotKey = lease.slotKey ∨
      old.holderKey = lease.holderKey := by
  unfold insertLease
  split_ifs with hconflict
  · simp [hconflict]
  · simp [hconflict]

theorem insertLease_some (h : insertLease lease db ≠ none) :
    insertLease lease db = some (lease, { db with leases := db.leases ++ [lease] }) := by
  unfold insertLease at h ⊢
  split_ifs at h ⊢ with hconflict
  · exact absurd rfl h
  · rfl

theorem Leases.insert (h : Leases limit db) (hinsert : insertLease lease db ≠ none)
    (hbelow : lease.slotIndex < maxSlots (limit lease.resource)) {nextId : Nat}
    (hold : db.nextId ≤ nextId) (hnew : lease.id < nextId) :
    Leases limit { db with leases := db.leases ++ [lease], nextId := nextId } := by
  have hclear : ∀ old ∈ db.leases, ¬ (old.id = lease.id ∨ old.slotKey = lease.slotKey ∨
      old.holderKey = lease.holderKey) := by
    intro old hmem hconflict
    exact hinsert (insertLease_eq_none_iff.mpr ⟨old, hmem, hconflict⟩)
  refine ⟨?_, ?_, ?_, ?_, ?_⟩
  · apply h.ids.append_singleton
    rw [find_eq_none_iff, List.mem_map]
    rintro ⟨old, hmem, heq⟩
    exact hclear old hmem (Or.inl heq)
  · apply h.slots.append_singleton
    rw [find_eq_none_iff, List.mem_map]
    rintro ⟨old, hmem, heq⟩
    exact hclear old hmem (Or.inr (Or.inl heq))
  · apply h.holders.append_singleton
    rw [find_eq_none_iff, List.mem_map]
    rintro ⟨old, hmem, heq⟩
    exact hclear old hmem (Or.inr (Or.inr heq))
  · intro old hmem
    cases List.mem_append.mp hmem with
    | inl hmem => exact h.below old hmem
    | inr hlast =>
      rw [List.mem_singleton.mp hlast]
      exact hbelow
  · intro old hmem
    show old.id < nextId
    cases List.mem_append.mp hmem with
    | inl hmem =>
      have hlt := h.fresh old hmem
      omega
    | inr hlast =>
      rw [List.mem_singleton.mp hlast]
      exact hnew

/-! ## A call for a lease -/

theorem leaseOf_eq_none {resource holderId : String}
    (h : leaseOf (cleaned resource db) resource holderId = none) :
    ∀ old ∈ (cleaned resource db).leases, old.holderKey ≠ (resource, holderId) := by
  intro old hmem hkey
  obtain ⟨hresource, hholder⟩ := Prod.mk.inj hkey
  have hnone := List.find?_eq_none.mp h old hmem
  simp [hresource, hholder, cleaned_active hmem] at hnone

theorem insertLease_new_iff (h : Leases limit db) {resource holderId : String}
    (hnone : leaseOf (cleaned resource db) resource holderId = none) (bound ttlSeconds : Int)
    (slot : Nat) :
    insertLease (newLease db resource holderId bound ttlSeconds slot) (cleaned resource db) = none ↔
      ¬ Free (cleaned resource db) resource slot := by
  have hclean := h.sublist (cleaned_sublist resource db) (by simp)
  rw [insertLease_eq_none_iff]
  constructor
  · rintro ⟨old, hmem, hid | hslot | hholder⟩
    · have hlt := hclean.fresh old hmem
      rw [cleaned_nextId, hid] at hlt
      unfold newLease at hlt
      simp only at hlt
      omega
    · exact fun hfree => hfree old hmem hslot
    · exact absurd hholder (leaseOf_eq_none hnone old hmem)
  · intro htaken
    unfold Free at htaken
    simp only [ne_eq, not_forall, not_not] at htaken
    obtain ⟨old, hmem, hslot⟩ := htaken
    exact ⟨old, hmem, Or.inr (Or.inl hslot)⟩

/-- How a call for a lease ends: with the lease that the holder has, with a slot that was free,
with nothing when all slots are taken, or with an error, on PostgreSQL and when the first of
several slots is taken. -/
theorem acquire_cases (h : Leases limit db) (backend : Backend) (resource holderId : String)
    (ttlSeconds : Int) :
    (∃ lease, leaseOf (cleaned resource db) resource holderId = some lease ∧
      acquireSchedulerLease backend resource holderId (limit resource) ttlSeconds db =
        (cleaned resource db, .lease (some lease))) ∨
    (leaseOf (cleaned resource db) resource holderId = none ∧ ∃ slot < maxSlots (limit resource),
      Free (cleaned resource db) resource slot ∧ (backend = .sqlite ∨ slot = 0) ∧
      acquireSchedulerLease backend resource holderId (limit resource) ttlSeconds db =
        ({ cleaned resource db with
            leases := (cleaned resource db).leases ++
              [newLease db resource holderId (limit resource) ttlSeconds slot]
            nextId := db.nextId + maxSlots (limit resource) },
          .lease (some (newLease db resource holderId (limit resource) ttlSeconds slot)))) ∨
    (leaseOf (cleaned resource db) resource holderId = none ∧
      (∀ slot < maxSlots (limit resource), ¬ Free (cleaned resource db) resource slot) ∧
      (backend = .sqlite ∨ maxSlots (limit resource) = 1) ∧
      ∃ kept, (kept = cleaned resource db ∨ kept = db) ∧
        acquireSchedulerLease backend resource holderId (limit resource) ttlSeconds db =
          ({ kept with nextId := db.nextId + maxSlots (limit resource) }, .lease none)) ∨
    (leaseOf (cleaned resource db) resource holderId = none ∧ backend = .postgresql ∧
      maxSlots (limit resource) ≠ 1 ∧ ¬ Free (cleaned resource db) resource 0 ∧
      acquireSchedulerLease backend resource holderId (limit resource) ttlSeconds db =
        ({ db with nextId := db.nextId + maxSlots (limit resource) }, .raised)) := by
  cases hlease : leaseOf (cleaned resource db) resource holderId with
  | some lease =>
    left
    refine ⟨lease, rfl, ?_⟩
    simp [acquireSchedulerLease, hlease, Session.start, Session.commit]
  | none =>
    right
    have hfree := insertLease_new_iff h hlease (limit resource) ttlSeconds
    have hpositive : 0 < maxSlots (limit resource) := by
      unfold maxSlots
      omega
    have htake : ∀ slot, Free (cleaned resource db) resource slot →
        insertLease (newLease db resource holderId (limit resource) ttlSeconds slot)
          (cleaned resource db) = some (newLease db resource holderId (limit resource) ttlSeconds slot,
            { cleaned resource db with leases := (cleaned resource db).leases ++
                [newLease db resource holderId (limit resource) ttlSeconds slot] }) :=
      fun slot hslot => insertLease_some (fun hfail => (hfree slot).mp hfail hslot)
    unfold acquireSchedulerLease
    simp only [hlease]
    cases backend with
    | sqlite =>
      rcases @insertFirst_sqlite _ _ _
          (fun slot => insertLease (newLease db resource holderId (limit resource) ttlSeconds slot))
          { Session.start db with current := cleaned resource db }
          (List.range (maxSlots (limit resource))) rfl with
        ⟨slot, hslot, row, next, hrow, hfound⟩ | ⟨htaken, hnothing⟩
      · left
        have hopen : Free (cleaned resource db) resource slot := by
          by_contra hnot
          have hfail := (hfree slot).mpr hnot
          rw [show insertLease _ (cleaned resource db) = some (row, next) from hrow] at hfail
          cases hfail
        have hsame := (htake slot hopen).symm.trans hrow
        cases hsame
        refine ⟨trivial, slot, List.mem_range.mp hslot, hopen, Or.inl rfl, ?_⟩
        rw [hfound]
        rfl
      · right; left
        refine ⟨trivial, ?_, Or.inl rfl, cleaned resource db, Or.inl rfl, ?_⟩
        · intro slot hslot
          exact (hfree slot).mp (htaken slot (List.mem_range.mpr hslot))
        · rw [hnothing]
          rfl
    | postgresql =>
      obtain ⟨n, hn⟩ : ∃ n, maxSlots (limit resource) = n + 1 :=
        ⟨maxSlots (limit resource) - 1, by omega⟩
      rw [hn, List.range_succ_eq_map]
      by_cases hopen : Free (cleaned resource db) resource 0
      · left
        refine ⟨trivial, 0, by omega, hopen, Or.inr rfl, ?_⟩
        rw [insertFirst_free rfl (htake 0 hopen)]
        rfl
      · right
        rw [insertFirst_postgresql rfl ((hfree 0).mpr hopen)]
        by_cases hone : n = 0
        · left
          subst hone
          refine ⟨trivial, ?_, Or.inr (by omega), db, Or.inr rfl, rfl⟩
          intro slot hslot
          have hzero : slot = 0 := by omega
          rw [hzero]
          exact hopen
        · right
          refine ⟨trivial, rfl, by omega, hopen, ?_⟩
          rw [if_neg (by simpa using hone)]

/-! ## Steps -/

theorem Leases.step (h : Leases limit db) (backend : Backend) (action : LeaseAction) :
    Leases limit (leaseStep backend limit db action).1 := by
  cases action with
  | acquire resource holderId ttlSeconds =>
    have hclean := h.sublist (cleaned_sublist resource db) (by simp)
    show Leases limit (acquireSchedulerLease backend resource holderId (limit resource) ttlSeconds db).1
    rcases acquire_cases h backend resource holderId ttlSeconds with
      ⟨lease, -, heq⟩ | ⟨hnone, slot, hslot, hfree, -, heq⟩ | ⟨-, -, -, kept, hkept, heq⟩ |
        ⟨-, -, -, -, heq⟩
    · rw [heq]
      exact hclean
    · rw [heq]
      have hinsert := insertLease_new_iff h hnone (limit resource) ttlSeconds slot
      have hid : db.nextId + slot < db.nextId + maxSlots (limit resource) := by omega
      exact hclean.insert (fun hfail => hinsert.mp hfail hfree) hslot (by simp) hid
    · rw [heq]
      cases hkept with
      | inl hkept =>
        subst hkept
        exact hclean.sublist (List.Sublist.refl _) (by simp)
      | inr hkept =>
        subst hkept
        exact h.sublist (List.Sublist.refl _) (by simp)
    · rw [heq]
      exact h.sublist (List.Sublist.refl _) (by simp)
  | renew id ttlSeconds =>
    have hmap : ∀ {κ : Type} (key : Lease → κ), (∀ lease expiresAt, key { lease with expiresAt := expiresAt } =
        key lease) → ∀ lease ∈ db.leases, key (if lease.id = id ∧ db.now < lease.expiresAt then
          { lease with expiresAt := db.now + lifetime ttlSeconds } else lease) = key lease := by
      intro κ key hkey lease _
      split_ifs
      · exact hkey lease _
      · rfl
    refine ⟨h.ids.map (hmap _ (fun _ _ => rfl)), h.slots.map (hmap _ (fun _ _ => rfl)),
      h.holders.map (hmap _ (fun _ _ => rfl)), ?_, ?_⟩
    · intro lease hlease
      obtain ⟨old, hold, rfl⟩ := List.mem_map.mp hlease
      have hbelow := h.below old hold
      split_ifs <;> exact hbelow
    · intro lease hlease
      obtain ⟨old, hold, rfl⟩ := List.mem_map.mp hlease
      have hfresh := h.fresh old hold
      split_ifs <;> exact hfresh
  | release id => exact h.sublist List.filter_sublist (Nat.le_refl _)
  | tick elapsed => exact h.sublist (List.Sublist.refl _) (Nat.le_refl _)
  | finish runId => exact h.sublist (List.Sublist.refl _) (Nat.le_refl _)

theorem lease_origin (h : Leases limit db) (backend : Backend) (action : LeaseAction) :
    ∀ new ∈ (leaseStep backend limit db action).1.leases,
      (∃ old ∈ db.leases, new.id = old.id ∧ new.slotKey = old.slotKey ∧
        new.holderKey = old.holderKey) ∨ db.nextId ≤ new.id := by
  have hsame : ∀ {leases : List Lease}, leases.Sublist db.leases → ∀ new ∈ leases,
      (∃ old ∈ db.leases, new.id = old.id ∧ new.slotKey = old.slotKey ∧
        new.holderKey = old.holderKey) ∨ db.nextId ≤ new.id :=
    fun hsub new hnew => Or.inl ⟨new, hsub.subset hnew, rfl, rfl, rfl⟩
  cases action with
  | acquire resource holderId ttlSeconds =>
    have hclean := cleaned_sublist resource db
    show ∀ new ∈ (acquireSchedulerLease backend resource holderId (limit resource) ttlSeconds db).1.leases,
      _
    rcases acquire_cases h backend resource holderId ttlSeconds with
      ⟨lease, -, heq⟩ | ⟨hnone, slot, hslot, hfree, -, heq⟩ | ⟨-, -, -, kept, hkept, heq⟩ |
        ⟨-, -, -, -, heq⟩
    · rw [heq]
      exact hsame hclean
    · rw [heq]
      intro new hnew
      cases List.mem_append.mp hnew with
      | inl hold => exact hsame hclean new hold
      | inr hlast =>
        rw [List.mem_singleton.mp hlast]
        exact Or.inr (Nat.le_add_right _ _)
    · rw [heq]
      cases hkept with
      | inl hkept =>
        subst hkept
        exact hsame hclean
      | inr hkept =>
        subst hkept
        exact hsame (List.Sublist.refl _)
    · rw [heq]
      exact hsame (List.Sublist.refl _)
  | renew id ttlSeconds =>
    intro new hnew
    obtain ⟨old, hold, rfl⟩ := List.mem_map.mp hnew
    left
    refine ⟨old, hold, ?_⟩
    split_ifs <;> exact ⟨rfl, rfl, rfl⟩
  | release id => exact hsame List.filter_sublist
  | tick elapsed => exact hsame (List.Sublist.refl _)
  | finish runId => exact hsame (List.Sublist.refl _)

end Invariant

/-! ## The semaphore -/

/-- The leases of a resource that have not expired. -/
def activeLeases (db : LeaseDb) (resource : String) : List Lease :=
  db.leases.filter (fun lease => lease.resource == resource && decide (db.now < lease.expiresAt))

/-- What a bounded semaphore promises about a step: no more active leases than slots, one for each
holder, no lease changes its slot, and a call for a lease gives the one that the holder has, or
one when a slot is free, and does not raise. -/
structure StepRight (limit : String → Int) (db : LeaseDb) (action : LeaseAction) (next : LeaseDb)
    (outcome : LeaseOutcome) : Prop where
  bounded : ∀ resource, (activeLeases next resource).length ≤ maxSlots (limit resource)
  oneEach : ∀ resource, ((activeLeases next resource).map Lease.holderId).Nodup
  keepsSlot : ∀ old ∈ db.leases, ∀ new ∈ next.leases, new.id = old.id →
    new.slotKey = old.slotKey ∧ new.holderKey = old.holderKey
  acquires : ∀ resource holderId ttlSeconds, action = .acquire resource holderId ttlSeconds →
    outcome ≠ .raised ∧
    (∀ lease, leaseOf (cleaned resource db) resource holderId = some lease →
      outcome = .lease (some lease)) ∧
    ((∃ slot < maxSlots (limit resource), Free (cleaned resource db) resource slot) →
      ∃ lease ∈ next.leases, outcome = .lease (some lease) ∧
        lease.holderKey = (resource, holderId))

/-- On PostgreSQL, a call for a lease by a holder that has none finds the first slot free, or
there is only one slot. -/
def FirstSlot (backend : Backend) (limit : String → Int) (db : LeaseDb) : LeaseAction → Prop
  | .acquire resource holderId _ =>
    backend = .sqlite ∨ maxSlots (limit resource) = 1 ∨
      leaseOf (cleaned resource db) resource holderId ≠ none ∨ Free (cleaned resource db) resource 0
  | _ => True

section Semaphore

variable {limit : String → Int} {db : LeaseDb}

theorem activeLeases_map_nodup {α : Type} [DecidableEq α] (f : Lease → α)
    (h : Unique (fun lease : Lease => (lease.resource, f lease)) db.leases) (resource : String) :
    ((activeLeases db resource).map f).Nodup := by
  have hsub : (activeLeases db resource).Sublist db.leases := List.filter_sublist
  have hpair : ((activeLeases db resource).map (fun lease => (lease.resource, f lease))).Nodup :=
    h.sublist (hsub.map _)
  have heq : (activeLeases db resource).map (fun lease => (lease.resource, f lease)) =
      ((activeLeases db resource).map f).map (fun value => (resource, value)) := by
    rw [List.map_map]
    apply List.map_congr_left
    intro lease hlease
    have hresource := (List.mem_filter.mp hlease).2
    simp only [Bool.and_eq_true, beq_iff_eq] at hresource
    simp [hresource.1]
  rw [heq] at hpair
  exact hpair.of_map

theorem Leases.bounded (h : Leases limit db) (resource : String) :
    (activeLeases db resource).length ≤ maxSlots (limit resource) := by
  have hnodup := activeLeases_map_nodup Lease.slotIndex h.slots resource
  have hbelow : (activeLeases db resource).map Lease.slotIndex ⊆
      List.range (maxSlots (limit resource)) := by
    intro slot hslot
    obtain ⟨lease, hlease, rfl⟩ := List.mem_map.mp hslot
    obtain ⟨hmem, hresource⟩ := List.mem_filter.mp hlease
    simp only [Bool.and_eq_true, beq_iff_eq] at hresource
    have hlt := h.below lease hmem
    rw [hresource.1] at hlt
    exact List.mem_range.mpr hlt
  have hlength := (hnodup.subperm hbelow).length_le
  simpa using hlength

theorem leaseOf_holderKey {resource holderId : String} {lease : Lease}
    (h : leaseOf db resource holderId = some lease) :
    lease ∈ db.leases ∧ lease.holderKey = (resource, holderId) := by
  have htest := List.find?_some h
  simp only [Bool.and_eq_true, beq_iff_eq] at htest
  exact ⟨List.mem_of_find?_eq_some h, by simp [Lease.holderKey, htest.1.1, htest.1.2]⟩

theorem acquires_iff (h : Leases limit db) (backend : Backend) (resource holderId : String)
    (ttlSeconds : Int) :
    ((leaseStep backend limit db (.acquire resource holderId ttlSeconds)).2 ≠ .raised ∧
      (∀ lease, leaseOf (cleaned resource db) resource holderId = some lease →
        (leaseStep backend limit db (.acquire resource holderId ttlSeconds)).2 =
          .lease (some lease)) ∧
      ((∃ slot < maxSlots (limit resource), Free (cleaned resource db) resource slot) →
        ∃ lease ∈ (leaseStep backend limit db (.acquire resource holderId ttlSeconds)).1.leases,
          (leaseStep backend limit db (.acquire resource holderId ttlSeconds)).2 =
            .lease (some lease) ∧ lease.holderKey = (resource, holderId))) ↔
      FirstSlot backend limit db (.acquire resource holderId ttlSeconds) := by
  have hstep : leaseStep backend limit db (.acquire resource holderId ttlSeconds) =
      acquireSchedulerLease backend resource holderId (limit resource) ttlSeconds db := rfl
  rw [hstep]
  unfold FirstSlot
  rcases acquire_cases h backend resource holderId ttlSeconds with
    ⟨lease, hlease, heq⟩ | ⟨hnone, slot, hslot, hfree, hfirst, heq⟩ | ⟨hnone, htaken, honly, kept, hkept, heq⟩ |
      ⟨hnone, hbackend, hmany, htaken, heq⟩
  · rw [heq]
    have hheld := leaseOf_holderKey hlease
    simp [hlease, hheld.1, hheld.2]
  · rw [heq]
    constructor
    · intro _
      cases hfirst with
      | inl hsqlite => exact Or.inl hsqlite
      | inr hzero => exact Or.inr (Or.inr (Or.inr (hzero ▸ hfree)))
    · intro _
      refine ⟨by simp, by simp [hnone], ?_⟩
      intro _
      exact ⟨newLease db resource holderId (limit resource) ttlSeconds slot, by simp, rfl, rfl⟩
  · rw [heq]
    constructor
    · intro _
      cases honly with
      | inl hsqlite => exact Or.inl hsqlite
      | inr hone => exact Or.inr (Or.inl hone)
    · intro _
      refine ⟨by simp, by simp [hnone], ?_⟩
      rintro ⟨slot, hslot, hfree⟩
      exact absurd hfree (htaken slot hslot)
  · rw [heq]
    simp [hnone, hbackend, hmany, htaken]

theorem stepRight_iff (h : Leases limit db) (backend : Backend) (action : LeaseAction) :
    StepRight limit db action (leaseStep backend limit db action).1
        (leaseStep backend limit db action).2 ↔ FirstSlot backend limit db action := by
  have hnext := h.step backend action
  constructor
  · intro hright
    cases action with
    | acquire resource holderId ttlSeconds =>
      exact (acquires_iff h backend resource holderId ttlSeconds).mp
        (hright.acquires resource holderId ttlSeconds rfl)
    | _ => trivial
  · intro hfirst
    refine ⟨hnext.bounded, activeLeases_map_nodup Lease.holderId hnext.holders, ?_, ?_⟩
    · intro old hold new hnew hid
      rcases lease_origin h backend action new hnew with ⟨same, hsame, hsameId, hslot, hholder⟩ | hge
      · have heq := h.ids.eq hsame hold (hsameId.symm.trans hid)
        subst heq
        exact ⟨hslot, hholder⟩
      · have hlt := h.fresh old hold
        omega
    · intro resource holderId ttlSeconds haction
      subst haction
      exact (acquires_iff h backend resource holderId ttlSeconds).mpr hfirst

/-! ## Runs -/

theorem leasesAfter_snoc (backend : Backend) (limit : String → Int) (now : Int)
    (actions : List LeaseAction) (action : LeaseAction) :
    leasesAfter backend limit now (actions ++ [action]) =
      (leaseStep backend limit (leasesAfter backend limit now actions) action).1 := by
  simp [leasesAfter, List.foldl_append]

theorem leasesAfter_leases (backend : Backend) (limit : String → Int) (now : Int)
    (actions : List LeaseAction) : Leases limit (leasesAfter backend limit now actions) := by
  induction actions using List.reverseRecOn with
  | nil =>
    refine ⟨List.nodup_nil, List.nodup_nil, List.nodup_nil, ?_, ?_⟩
    · intro lease hlease
      cases hlease
    · intro lease hlease
      cases hlease
  | append_singleton actions action ih =>
    rw [leasesAfter_snoc]
    exact ih.step backend action

/-- The leases are a bounded semaphore in all steps of a run exactly when no call of the run has
to look for a second slot on PostgreSQL. -/
theorem leases_right_iff (backend : Backend) (limit : String → Int) (now : Int)
    (actions : List LeaseAction) :
    (∀ before action, before ++ [action] <+: actions →
      StepRight limit (leasesAfter backend limit now before) action
        (leaseStep backend limit (leasesAfter backend limit now before) action).1
        (leaseStep backend limit (leasesAfter backend limit now before) action).2) ↔
    ∀ before action, before ++ [action] <+: actions →
      FirstSlot backend limit (leasesAfter backend limit now before) action := by
  constructor
  · intro h before action hpre
    exact (stepRight_iff (leasesAfter_leases backend limit now before) backend action).mp
      (h before action hpre)
  · intro h before action hpre
    exact (stepRight_iff (leasesAfter_leases backend limit now before) backend action).mpr
      (h before action hpre)

def oneHeld : LeaseDb :=
  leasesAfter .postgresql (fun _ => 2) 0 [.acquire "backtest" "run-1" 900]

/-- On PostgreSQL the next holder gets an error although the second slot is free. -/
theorem second_slot_raises :
    (leaseStep .postgresql (fun _ => 2) oneHeld (.acquire "backtest" "run-2" 900)).2 = .raised ∧
      (∃ slot < maxSlots 2, Free (cleaned "backtest" oneHeld) "backtest" slot) ∧
      ¬ StepRight (fun _ => 2) oneHeld (.acquire "backtest" "run-2" 900)
        (leaseStep .postgresql (fun _ => 2) oneHeld (.acquire "backtest" "run-2" 900)).1
        (leaseStep .postgresql (fun _ => 2) oneHeld (.acquire "backtest" "run-2" 900)).2 := by
  have hraised : (leaseStep .postgresql (fun _ => 2) oneHeld
      (.acquire "backtest" "run-2" 900)).2 = .raised := by decide +kernel
  refine ⟨hraised, ⟨1, by decide +kernel, by decide +kernel⟩, ?_⟩
  intro hright
  exact (hright.acquires "backtest" "run-2" 900 rfl).1 hraised

/-- On either database and in every run, raising calls included, the leases of a resource have
different slots and holders, and are at most as many as its limit. -/
theorem leases_bounded (backend : Backend) (limit : String → Int) (now : Int)
    (actions : List LeaseAction) (resource : String) :
    ((activeLeases (leasesAfter backend limit now actions) resource).map Lease.slotIndex).Nodup ∧
      ((activeLeases (leasesAfter backend limit now actions) resource).map Lease.holderId).Nodup ∧
        (activeLeases (leasesAfter backend limit now actions) resource).length ≤
          maxSlots (limit resource) := by
  have hleases := leasesAfter_leases backend limit now actions
  exact ⟨activeLeases_map_nodup Lease.slotIndex hleases.slots resource,
    activeLeases_map_nodup Lease.holderId hleases.holders resource, hleases.bounded resource⟩

end Semaphore

end LocalPlatform.Scheduler
