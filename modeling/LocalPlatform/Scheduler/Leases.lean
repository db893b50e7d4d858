import LocalPlatform.Lib.Machine
import LocalPlatform.Lib.Sessions
import LocalPlatform.Lib.Table

/-!
# Scheduler leases

`scheduler.py` hands out numbered slots of a resource.  A lease is a row of `scheduler_leases`
with a slot, a holder and an expiry, and a slot is taken by inserting a row for it.

* `acquireSchedulerLease` deletes what has expired (and the leases of backtests that are over),
  returns the lease that the holder has, or else tries the slots in order.
* `leaseStep` is one call, or time that passes, on either database.
* `Leases` is the invariant of the table.

Time is a number of microseconds.  An id is a number that was not used before.  The metadata of
a lease is left out.
-/

namespace LocalPlatform.Scheduler

open Sessions Tables

/-! ## The table -/

/-- `scheduler_leases` -/
structure Lease where
  id : Nat
  resource : String
  slotIndex : Nat
  holderId : String
  limitCount : Nat
  acquiredAt : Int
  expiresAt : Int
  deriving DecidableEq

structure LeaseDb where
  leases : List Lease
  /-- The runs of `backtest_runs` with a terminal status. -/
  terminalRuns : List String
  now : Int
  nextId : Nat
  deriving DecidableEq

/-- `max(1, int(limit or 1))` -/
def maxSlots (limit : Int) : Nat := (max 1 limit).toNat

/-- `max(60, ttl_seconds)` seconds -/
def lifetime (ttlSeconds : Int) : Int := max 60 ttlSeconds * 1000000

/-- `delete from scheduler_leases where expires_at <= now` -/
def dropExpired (db : LeaseDb) : LeaseDb :=
  { db with leases := db.leases.filter (fun lease => db.now < lease.expiresAt) }

/-- The leases of backtests that are over. -/
def dropTerminal (resource : String) (db : LeaseDb) : LeaseDb :=
  if resource = "backtest" then
    { db with leases := db.leases.filter (fun lease =>
        !(lease.resource == "backtest" && db.terminalRuns.contains lease.holderId)) }
  else db

def cleaned (resource : String) (db : LeaseDb) : LeaseDb := dropTerminal resource (dropExpired db)

def leaseOf (db : LeaseDb) (resource holderId : String) : Option Lease :=
  db.leases.find? (fun lease =>
    lease.resource == resource && lease.holderId == holderId && decide (db.now < lease.expiresAt))

def Lease.slotKey (lease : Lease) : String × Nat := (lease.resource, lease.slotIndex)

def Lease.holderKey (lease : Lease) : String × String := (lease.resource, lease.holderId)

/-- The insert of a lease, with the unique constraints of the table. -/
def insertLease (lease : Lease) (db : LeaseDb) : Option (Lease × LeaseDb) :=
  if ∃ old ∈ db.leases, old.id = lease.id ∨ old.slotKey = lease.slotKey ∨
      old.holderKey = lease.holderKey then none
  else some (lease, { db with leases := db.leases ++ [lease] })

/-- The row that is tried for a slot. -/
def newLease (db : LeaseDb) (resource holderId : String) (limit ttlSeconds : Int) (slot : Nat) :
    Lease where
  id := db.nextId + slot
  resource := resource
  slotIndex := slot
  holderId := holderId
  limitCount := maxSlots limit
  acquiredAt := db.now
  expiresAt := db.now + lifetime ttlSeconds

/-! ## Calls -/

/-- What a call answers. -/
inductive LeaseOutcome where
  | lease (row : Option Lease)
  | renewed (done : Bool)
  | none
  | raised
  deriving DecidableEq

/-- `acquire_scheduler_lease`; the ids of the slots that were tried are used up. -/
def acquireSchedulerLease (backend : Backend) (resource holderId : String)
    (limit ttlSeconds : Int) (db : LeaseDb) : LeaseDb × LeaseOutcome :=
  let session := { Session.start db with current := cleaned resource db }
  match leaseOf session.current resource holderId with
  | some lease => (session.commit, .lease lease)
  | none =>
    let used := fun after : LeaseDb => { after with nextId := db.nextId + maxSlots limit }
    match insertFirst backend
        (fun slot => insertLease (newLease db resource holderId limit ttlSeconds slot))
        (List.range (maxSlots limit)) session with
    | some (row, session) => (used session.commit, .lease row)
    | none => (used db, .raised)

/-- `release_scheduler_lease` -/
def releaseSchedulerLease (id : Nat) (db : LeaseDb) : LeaseDb :=
  { db with leases := db.leases.filter (fun lease => lease.id != id) }

/-- `renew_scheduler_lease` -/
def renewSchedulerLease (id : Nat) (ttlSeconds : Int) (db : LeaseDb) : LeaseDb × Bool :=
  ({ db with leases := db.leases.map (fun lease =>
      if lease.id = id ∧ db.now < lease.expiresAt then
        { lease with expiresAt := db.now + lifetime ttlSeconds }
      else lease) },
    db.leases.any (fun lease => lease.id == id && decide (db.now < lease.expiresAt)))

inductive LeaseAction where
  | acquire (resource holderId : String) (ttlSeconds : Int)
  | renew (id : Nat) (ttlSeconds : Int)
  | release (id : Nat)
  /-- Time passes. -/
  | tick (elapsed : Nat)
  /-- A backtest run gets a terminal status. -/
  | finish (runId : String)
  deriving DecidableEq

/-- One step, where all holders of a resource use the same limit. -/
def leaseStep (backend : Backend) (limit : String → Int) (db : LeaseDb) :
    LeaseAction → LeaseDb × LeaseOutcome
  | .acquire resource holderId ttlSeconds =>
    acquireSchedulerLease backend resource holderId (limit resource) ttlSeconds db
  | .renew id ttlSeconds =>
    ((renewSchedulerLease id ttlSeconds db).1, .renewed (renewSchedulerLease id ttlSeconds db).2)
  | .release id => (releaseSchedulerLease id db, .none)
  | .tick elapsed => ({ db with now := db.now + elapsed }, .none)
  | .finish runId => ({ db with terminalRuns := runId :: db.terminalRuns }, .none)

def leaseStart (now : Int) : LeaseDb where
  leases := []
  terminalRuns := []
  now := now
  nextId := 0

def leasesAfter (backend : Backend) (limit : String → Int) (now : Int)
    (actions : List LeaseAction) : LeaseDb :=
  actions.foldl (fun db action => (leaseStep backend limit db action).1) (leaseStart now)

end LocalPlatform.Scheduler
