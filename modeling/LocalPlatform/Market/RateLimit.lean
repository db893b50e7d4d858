import LocalPlatform.Lib.Machine
import LocalPlatform.Lib.SlidingWindow
import Mathlib.Data.List.Infix

/-!
# The shared rate limit

Every process that calls the provider first asks `_database_window`, which counts the admissions of
a bucket in one table of PostgreSQL.

* `databaseWindow` is the transaction, and `Answer.refused` how its callers read the answer.
* A process reads the clock, then waits for the advisory lock of its bucket, and runs the
  transaction while it holds it.  The clock can move between any two of these steps, and a process
  can stop at any of them.
* So an event is stamped, and the table is pruned, at clock readings from before the lock.
  `InTime` says that the readings sort the events as the times of the locks do, and
  `limiter_right` that the quota is then kept.
-/

namespace LocalPlatform.Market.RateLimit

open Machines SlidingWindow

/-! ## The transaction -/

/-- What the callers of a bucket allow. -/
structure Quota where
  windowMs : ℕ
  limit : ℕ
  deriving DecidableEq

/-- A row of the table.  When the lock was granted is no column: the code does not read it. -/
structure Event where
  bucket : String
  occurredAtMs : ℕ
  grantedAt : ℕ
  deriving DecidableEq

structure Call where
  bucket : String
  consume : Bool
  deriving DecidableEq

structure Answer where
  count : ℕ
  waitMs : ℕ
  deriving DecidableEq

/-- The callers wait, or give up, when they are told a full count and a time. -/
def Answer.refused (quota : Quota) (answer : Answer) : Bool :=
  decide (quota.limit ≤ answer.count ∧ answer.waitMs ≠ 0)

/-- An event of the bucket that a call with this clock reading deletes. -/
def Event.Expired (quota : Quota) (call : Call) (nowMs : ℕ) (event : Event) : Prop :=
  event.bucket = call.bucket ∧ event.occurredAtMs + quota.windowMs ≤ nowMs

instance (quota : Quota) (call : Call) (nowMs : ℕ) (event : Event) :
    Decidable (event.Expired quota call nowMs) :=
  inferInstanceAs (Decidable (_ ∧ _))

def unexpired (quota : Quota) (call : Call) (nowMs : ℕ) (events : List Event) : List Event :=
  events.filter (fun event => ¬ event.Expired quota call nowMs)

def ofBucket (bucket : String) (events : List Event) : List Event :=
  events.filter (fun event => event.bucket = bucket)

/-- The earliest stamp, or the reading where there is none (or it is zero). -/
def oldestMs (nowMs : ℕ) (events : List Event) : ℕ :=
  match (events.map Event.occurredAtMs).min? with
  | none => nowMs
  | some 0 => nowMs
  | some oldest => oldest

/-- `_database_window`, from the lock to the commit. -/
def databaseWindow (quota : Quota) (call : Call) (nowMs grantedAt : ℕ) (events : List Event) :
    List Event × Answer :=
  let kept := unexpired quota call nowMs events
  let counted := ofBucket call.bucket kept
  if call.consume ∧ counted.length < quota.limit then
    (kept ++ [{ bucket := call.bucket, occurredAtMs := nowMs, grantedAt := grantedAt }],
      { count := counted.length + 1, waitMs := 0 })
  else
    (kept,
      { count := counted.length
        waitMs := if quota.limit ≤ counted.length then
            max 1 (oldestMs nowMs counted + quota.windowMs - nowMs) else 0 })

/-! ## The processes -/

inductive Phase where
  | idle
  | waiting (call : Call) (nowMs : ℕ)
  | locked (call : Call) (nowMs grantedAt : ℕ)
  deriving DecidableEq

/-- The lock that the process waits for is free. -/
def Phase.MayLock {P : Type} (holder : String → Option P) : Phase → Prop
  | .waiting call _ => holder call.bucket = none
  | _ => False

def Phase.MayCommit : Phase → Prop
  | .locked _ _ _ => True
  | _ => False

instance {P : Type} [DecidableEq P] (holder : String → Option P) :
    (phase : Phase) → Decidable (phase.MayLock holder)
  | .idle => .isFalse id
  | .waiting call _ => inferInstanceAs (Decidable (holder call.bucket = none))
  | .locked _ _ _ => .isFalse id

instance : (phase : Phase) → Decidable phase.MayCommit
  | .idle => .isFalse id
  | .waiting _ _ => .isFalse id
  | .locked _ _ _ => .isTrue trivial

/-- A call that has committed. -/
structure Outcome where
  call : Call
  grantedAt : ℕ
  refused : Bool
  deriving DecidableEq

structure State (P : Type) where
  clockMs : ℕ
  events : List Event
  holder : String → Option P
  phase : P → Phase
  log : List Outcome

inductive Action (P : Type) where
  | tick (laterMs : ℕ)
  | read (process : P) (call : Call)
  | lock (process : P)
  | commit (process : P)
  | abort (process : P)
  deriving DecidableEq

section Machine

variable {P : Type} [DecidableEq P]

/-- The process has left its transaction, and the lock is free. -/
def State.release (s : State P) (process : P) : State P :=
  { s with
    holder := match s.phase process with
      | .locked call _ _ => Function.update s.holder call.bucket none
      | _ => s.holder
    phase := Function.update s.phase process .idle }

def State.lock (s : State P) (process : P) (call : Call) (nowMs : ℕ) : State P :=
  { s with
    holder := Function.update s.holder call.bucket (some process)
    phase := Function.update s.phase process (.locked call nowMs s.clockMs) }

def State.commit (quota : String → Quota) (s : State P) (process : P) (call : Call)
    (nowMs grantedAt : ℕ) : State P :=
  let result := databaseWindow (quota call.bucket) call nowMs grantedAt s.events
  let outcome : Outcome :=
    { call := call, grantedAt := grantedAt, refused := result.2.refused (quota call.bucket) }
  { s.release process with events := result.1, log := s.log ++ [outcome] }

def State.next (quota : String → Quota) (s : State P) : Action P → State P
  | .tick laterMs => { s with clockMs := laterMs }
  | .read process call =>
    { s with phase := Function.update s.phase process (.waiting call s.clockMs) }
  | .lock process =>
    match s.phase process with
    | .waiting call nowMs => s.lock process call nowMs
    | _ => s
  | .commit process =>
    match s.phase process with
    | .locked call nowMs grantedAt => s.commit quota process call nowMs grantedAt
    | _ => s
  | .abort process => s.release process

def State.Allowed (s : State P) : Action P → Prop
  | .tick laterMs => s.clockMs ≤ laterMs
  | .read process _ => s.phase process = .idle
  | .lock process => (s.phase process).MayLock s.holder
  | .commit process => (s.phase process).MayCommit
  | .abort _ => True

instance (s : State P) : (a : Action P) → Decidable (s.Allowed a)
  | .tick laterMs => inferInstanceAs (Decidable (s.clockMs ≤ laterMs))
  | .read process _ => inferInstanceAs (Decidable (s.phase process = .idle))
  | .lock process => inferInstanceAs (Decidable ((s.phase process).MayLock s.holder))
  | .commit process => inferInstanceAs (Decidable (s.phase process).MayCommit)
  | .abort _ => inferInstanceAs (Decidable True)

def limiter (P : Type) [DecidableEq P] (quota : String → Quota) : Machine (State P) (Action P) where
  allowed := State.Allowed
  next := State.next quota

instance (quota : String → Quota) (s : State P) (a : Action P) :
    Decidable ((limiter P quota).allowed s a) := inferInstanceAs (Decidable (s.Allowed a))

/-- An empty table, and nobody calls. -/
def start (P : Type) : State P where
  clockMs := 0
  events := []
  holder := fun _ => none
  phase := fun _ => .idle
  log := []

end Machine

/-! ## What a quota promises -/

/-- When the lock was granted to the calls of a bucket that were admitted. -/
def granted (bucket : String) (log : List Outcome) : List ℕ :=
  (log.filter (fun outcome => outcome.call.bucket = bucket ∧ outcome.call.consume ∧
    ¬ outcome.refused)).map Outcome.grantedAt

/-- A call is refused only after `limit` admissions of its bucket in the window before it. -/
def RefusalsDue (quota : String → Quota) (log : List Outcome) : Prop :=
  ∀ before outcome after, log = before ++ outcome :: after →
    outcome.call.consume → outcome.refused →
      (quota outcome.call.bucket).limit ≤ (live (quota outcome.call.bucket).windowMs
        outcome.grantedAt (granted outcome.call.bucket before)).length

structure QuotaKept (quota : String → Quota) (log : List Outcome) : Prop where
  bounded : ∀ bucket start,
    (within (quota bucket).windowMs start (granted bucket log)).length ≤ (quota bucket).limit
  refusals : RefusalsDue quota log

/-- The readings of a call and of the events sort the events as the times of their locks do: none is
deleted that is still in the window, and, where the call finds the bucket full, none is kept that
has left it. -/
structure ReadingsAgree (quota : Quota) (call : Call) (nowMs grantedAt : ℕ)
    (events : List Event) : Prop where
  deleted : ∀ event ∈ events, event.Expired quota call nowMs →
    event.grantedAt + quota.windowMs ≤ grantedAt
  kept : quota.limit ≤ (ofBucket call.bucket (unexpired quota call nowMs events)).length →
    ∀ event ∈ ofBucket call.bucket (unexpired quota call nowMs events),
      grantedAt < event.grantedAt + quota.windowMs

instance (quota : Quota) (call : Call) (nowMs grantedAt : ℕ) (events : List Event) :
    Decidable (ReadingsAgree quota call nowMs grantedAt events) :=
  decidable_of_iff
    ((∀ event ∈ events, event.Expired quota call nowMs →
        event.grantedAt + quota.windowMs ≤ grantedAt) ∧
      (quota.limit ≤ (ofBucket call.bucket (unexpired quota call nowMs events)).length →
        ∀ event ∈ ofBucket call.bucket (unexpired quota call nowMs events),
          grantedAt < event.grantedAt + quota.windowMs))
    ⟨fun h => ⟨h.1, h.2⟩, fun h => ⟨h.deleted, h.kept⟩⟩

/-- The events that a process meets are sorted right by the readings. -/
def Phase.InTime (quota : String → Quota) (events : List Event) : Phase → Prop
  | .locked call nowMs grantedAt =>
    ReadingsAgree (quota call.bucket) call nowMs grantedAt events
  | _ => True

instance (quota : String → Quota) (events : List Event) :
    (phase : Phase) → Decidable (phase.InTime quota events)
  | .idle => .isTrue trivial
  | .waiting _ _ => .isTrue trivial
  | .locked call nowMs grantedAt =>
    inferInstanceAs (Decidable (ReadingsAgree (quota call.bucket) call nowMs grantedAt events))

def InTime {P : Type} (quota : String → Quota) (s : State P) : Action P → Prop
  | .commit process => (s.phase process).InTime quota s.events
  | _ => True

instance {P : Type} (quota : String → Quota) (s : State P) :
    (a : Action P) → Decidable (InTime quota s a)
  | .tick _ => .isTrue trivial
  | .read _ _ => .isTrue trivial
  | .lock _ => .isTrue trivial
  | .commit process => inferInstanceAs (Decidable ((s.phase process).InTime quota s.events))
  | .abort _ => .isTrue trivial

/-! ## One transaction -/

section Transaction

variable {quota : Quota} {call : Call} {nowMs grantedAt : ℕ} {events : List Event}

def grants (bucket : String) (events : List Event) : List ℕ :=
  (ofBucket bucket events).map Event.grantedAt

theorem grants_append (bucket : String) (events others : List Event) :
    grants bucket (events ++ others) = grants bucket events ++ grants bucket others := by
  simp [grants, ofBucket]

theorem grants_unexpired_other {bucket : String} (h : bucket ≠ call.bucket) :
    grants bucket (unexpired quota call nowMs events) = grants bucket events := by
  unfold grants ofBucket unexpired
  rw [List.filter_filter]
  congr 1
  apply List.filter_congr
  intro event _
  by_cases hbucket : event.bucket = bucket
  · have hkept : ¬ event.Expired quota call nowMs := fun hexpired => h (hbucket.symm.trans hexpired.1)
    simp [hbucket, hkept]
  · simp [hbucket]

theorem live_grants_unexpired (h : ∀ event ∈ events, event.Expired quota call nowMs →
      event.grantedAt + quota.windowMs ≤ grantedAt) {later : ℕ} (hlater : grantedAt ≤ later) :
    live quota.windowMs later (grants call.bucket (unexpired quota call nowMs events)) =
      live quota.windowMs later (grants call.bucket events) := by
  induction events with
  | nil => rfl
  | cons event events ih =>
    have hrest := ih (fun other hother => h other (List.mem_cons_of_mem _ hother))
    by_cases hexpired : event.Expired quota call nowMs
    · have hgone := h event List.mem_cons_self hexpired
      have hdeleted : unexpired quota call nowMs (event :: events) =
          unexpired quota call nowMs events := by
        simp [unexpired, hexpired]
      have hleft : ¬ later < event.grantedAt + quota.windowMs := by omega
      rw [hdeleted, hrest]
      simp [grants, ofBucket, live, hexpired.1, hleft]
    · have hkept : unexpired quota call nowMs (event :: events) =
          event :: unexpired quota call nowMs events := by
        simp [unexpired, hexpired]
      rw [hkept]
      by_cases hbucket : event.bucket = call.bucket
      · have hsplit : ∀ others, live quota.windowMs later (grants call.bucket (event :: others)) =
            live quota.windowMs later [event.grantedAt] ++
              live quota.windowMs later (grants call.bucket others) := by
          intro others
          rw [← live_append]
          simp [grants, ofBucket, hbucket]
        rw [hsplit, hsplit, hrest]
      · have hother : ∀ others, grants call.bucket (event :: others) =
            grants call.bucket others := by
          intro others
          simp [grants, ofBucket, hbucket]
        rw [hother, hother, hrest]

theorem databaseWindow_admitted (h : call.consume ∧
    (ofBucket call.bucket (unexpired quota call nowMs events)).length < quota.limit) :
    (databaseWindow quota call nowMs grantedAt events).1 =
        unexpired quota call nowMs events ++
          [{ bucket := call.bucket, occurredAtMs := nowMs, grantedAt := grantedAt }] ∧
      (databaseWindow quota call nowMs grantedAt events).2.refused quota = false := by
  unfold databaseWindow
  dsimp only
  rw [if_pos h]
  exact ⟨rfl, by simp [Answer.refused]⟩

theorem databaseWindow_declined (h : ¬ (call.consume ∧
    (ofBucket call.bucket (unexpired quota call nowMs events)).length < quota.limit)) :
    (databaseWindow quota call nowMs grantedAt events).1 = unexpired quota call nowMs events ∧
      (call.consume → (databaseWindow quota call nowMs grantedAt events).2.refused quota = true) := by
  unfold databaseWindow
  dsimp only
  rw [if_neg h]
  refine ⟨rfl, ?_⟩
  intro hconsume
  have hfull : quota.limit ≤
      (ofBucket call.bucket (unexpired quota call nowMs events)).length :=
    not_lt.mp (fun hroom => h ⟨hconsume, hroom⟩)
  unfold Answer.refused
  dsimp only
  rw [if_pos hfull]
  apply decide_eq_true
  exact ⟨hfull, by omega⟩

end Transaction

/-! ## Any interleaving -/

section Run

variable {P : Type} [DecidableEq P] {quota : String → Quota} {s : State P} {process : P}

theorem lock_cases (h : s.Allowed (.lock process)) :
    ∃ call nowMs, s.phase process = .waiting call nowMs ∧ s.holder call.bucket = none ∧
      s.next quota (.lock process) = s.lock process call nowMs := by
  have hmay : (s.phase process).MayLock s.holder := h
  cases hphase : s.phase process with
  | idle => simp [hphase, Phase.MayLock] at hmay
  | waiting call nowMs =>
    rw [hphase] at hmay
    exact ⟨call, nowMs, rfl, hmay, by simp only [State.next, hphase]⟩
  | locked call nowMs grantedAt => simp [hphase, Phase.MayLock] at hmay

theorem commit_cases (h : s.Allowed (.commit process)) :
    ∃ call nowMs grantedAt, s.phase process = .locked call nowMs grantedAt ∧
      s.next quota (.commit process) = s.commit quota process call nowMs grantedAt := by
  have hmay : (s.phase process).MayCommit := h
  cases hphase : s.phase process with
  | idle => simp [hphase, Phase.MayCommit] at hmay
  | waiting call nowMs => simp [hphase, Phase.MayCommit] at hmay
  | locked call nowMs grantedAt =>
    exact ⟨call, nowMs, grantedAt, rfl, by simp only [State.next, hphase]⟩

/-- Who holds a lock is its holder, and no call of the bucket was granted it later. -/
structure Ordered (s : State P) : Prop where
  past : ∀ outcome ∈ s.log, outcome.grantedAt ≤ s.clockMs
  holds : ∀ process call nowMs grantedAt, s.phase process = .locked call nowMs grantedAt →
    s.holder call.bucket = some process
  latest : ∀ process call nowMs grantedAt, s.phase process = .locked call nowMs grantedAt →
    grantedAt ≤ s.clockMs ∧
      ∀ outcome ∈ s.log, outcome.call.bucket = call.bucket → outcome.grantedAt ≤ grantedAt

theorem update_phase_locked {phase : P → Phase} {other : P} {new : Phase} {call : Call}
    {nowMs grantedAt : ℕ}
    (h : Function.update phase process new other = .locked call nowMs grantedAt) :
    (other = process ∧ new = .locked call nowMs grantedAt) ∨
      (other ≠ process ∧ phase other = .locked call nowMs grantedAt) := by
  by_cases hother : other = process
  · rw [hother, Function.update_self] at h
    exact .inl ⟨hother, h⟩
  · rw [Function.update_of_ne hother] at h
    exact .inr ⟨hother, h⟩

theorem Ordered.release (h : Ordered s) (process : P) : Ordered (s.release process) := by
  have hleft : ∀ other call nowMs grantedAt,
      (s.release process).phase other = .locked call nowMs grantedAt →
        other ≠ process ∧ s.phase other = .locked call nowMs grantedAt := by
    intro other call nowMs grantedAt hphase
    cases update_phase_locked hphase with
    | inl hself => exact absurd hself.2 (by simp)
    | inr hother => exact hother
  refine ⟨h.past, ?_, ?_⟩
  · intro other call nowMs grantedAt hphase
    obtain ⟨hne, hbefore⟩ := hleft other call nowMs grantedAt hphase
    have hholder := h.holds other call nowMs grantedAt hbefore
    unfold State.release
    dsimp only
    cases hprocess : s.phase process with
    | idle => exact hholder
    | waiting mine reading => exact hholder
    | locked mine reading since =>
      have hmine := h.holds process mine reading since hprocess
      have hbuckets : call.bucket ≠ mine.bucket := by
        intro heq
        rw [heq, hmine] at hholder
        exact hne (Option.some.inj hholder).symm
      dsimp only
      rw [Function.update_of_ne hbuckets]
      exact hholder
  · intro other call nowMs grantedAt hphase
    exact h.latest other call nowMs grantedAt (hleft other call nowMs grantedAt hphase).2

theorem Ordered.lock (h : Ordered s) {call : Call} {nowMs : ℕ} (hfree : s.holder call.bucket = none)
    : Ordered (s.lock process call nowMs) := by
  refine ⟨h.past, ?_, ?_⟩
  · intro other mine reading since hphase
    cases update_phase_locked hphase with
    | inl hself =>
      cases hself.2
      rw [hself.1]
      exact Function.update_self ..
    | inr hother =>
      have hholder := h.holds other mine reading since hother.2
      have hbuckets : mine.bucket ≠ call.bucket := by
        intro heq
        rw [heq, hfree] at hholder
        cases hholder
      show Function.update s.holder call.bucket (some process) mine.bucket = some other
      rw [Function.update_of_ne hbuckets]
      exact hholder
  · intro other mine reading since hphase
    cases update_phase_locked hphase with
    | inl hself =>
      cases hself.2
      exact ⟨le_rfl, fun outcome houtcome _ => h.past outcome houtcome⟩
    | inr hother => exact h.latest other mine reading since hother.2

theorem Ordered.commit (h : Ordered s) {call : Call} {nowMs grantedAt : ℕ}
    (hlocked : s.phase process = .locked call nowMs grantedAt) :
    Ordered (s.commit quota process call nowMs grantedAt) := by
  have hreleased := h.release process
  have hmine := h.latest process call nowMs grantedAt hlocked
  refine ⟨?_, hreleased.holds, ?_⟩
  · intro outcome houtcome
    cases List.mem_append.mp houtcome with
    | inl hold => exact h.past outcome hold
    | inr hnew =>
      rw [List.mem_singleton.mp hnew]
      exact hmine.1
  · intro other theirs reading since hphase
    have hbefore := hreleased.latest other theirs reading since hphase
    refine ⟨hbefore.1, ?_⟩
    intro outcome houtcome hbucket
    cases List.mem_append.mp houtcome with
    | inl hold => exact hbefore.2 outcome hold hbucket
    | inr hnew =>
      -- the bucket has one holder, and it has just left
      rw [List.mem_singleton.mp hnew] at hbucket
      cases update_phase_locked hphase with
      | inl hself => exact absurd hself.2 (by simp)
      | inr hother =>
        have htheirs := h.holds other theirs reading since hother.2
        rw [← hbucket, h.holds process call nowMs grantedAt hlocked] at htheirs
        exact absurd (Option.some.inj htheirs).symm hother.1

theorem Ordered.step (h : Ordered s) {a : Action P} (ha : s.Allowed a) :
    Ordered (s.next quota a) := by
  cases a with
  | tick laterMs =>
    have hlater : s.clockMs ≤ laterMs := ha
    refine ⟨fun outcome houtcome => (h.past outcome houtcome).trans hlater, h.holds, ?_⟩
    intro process call nowMs grantedAt hphase
    have hbefore := h.latest process call nowMs grantedAt hphase
    exact ⟨hbefore.1.trans hlater, hbefore.2⟩
  | read process call =>
    have hsame : ∀ other mine reading since,
        Function.update s.phase process (.waiting call s.clockMs) other =
          .locked mine reading since → s.phase other = .locked mine reading since := by
      intro other mine reading since hphase
      cases update_phase_locked hphase with
      | inl hself => exact absurd hself.2 (by simp)
      | inr hother => exact hother.2
    exact ⟨h.past, fun other mine reading since hphase =>
        h.holds other mine reading since (hsame other mine reading since hphase),
      fun other mine reading since hphase =>
        h.latest other mine reading since (hsame other mine reading since hphase)⟩
  | lock process =>
    obtain ⟨call, nowMs, hphase, hfree, hnext⟩ := @lock_cases _ _ quota _ _ ha
    rw [hnext]
    exact h.lock hfree
  | commit process =>
    obtain ⟨call, nowMs, grantedAt, hphase, hnext⟩ := @commit_cases _ _ quota _ _ ha
    rw [hnext]
    exact h.commit hphase
  | abort process => exact h.release process

end Run

/-! ## The quota -/

theorem granted_snoc (bucket : String) (log : List Outcome) (outcome : Outcome) :
    granted bucket (log ++ [outcome]) = granted bucket log ++
      if outcome.call.bucket = bucket ∧ outcome.call.consume ∧ ¬ outcome.refused then
        [outcome.grantedAt] else [] := by
  unfold granted
  rw [List.filter_append, List.map_append]
  congr 1
  split_ifs with h
  · simp only [List.filter_cons, decide_eq_true_eq, if_pos h, List.filter_nil, List.map_cons,
      List.map_nil]
  · simp only [List.filter_cons, decide_eq_true_eq, if_neg h, List.filter_nil, List.map_nil]

theorem mem_granted {bucket : String} {log : List Outcome} {time : ℕ}
    (h : time ∈ granted bucket log) :
    ∃ outcome ∈ log, outcome.call.bucket = bucket ∧ outcome.grantedAt = time := by
  obtain ⟨outcome, houtcome, htime⟩ := List.mem_map.mp h
  have hkept := List.mem_filter.mp houtcome
  exact ⟨outcome, hkept.1, (of_decide_eq_true hkept.2).1, htime⟩

theorem RefusalsDue.snoc {quota : String → Quota} {log : List Outcome}
    (h : RefusalsDue quota log) {outcome : Outcome}
    (hdue : outcome.call.consume → outcome.refused → (quota outcome.call.bucket).limit ≤
      (live (quota outcome.call.bucket).windowMs outcome.grantedAt
        (granted outcome.call.bucket log)).length) :
    RefusalsDue quota (log ++ [outcome]) := by
  intro before other after hsplit hconsume hrefused
  cases List.eq_nil_or_concat after with
  | inl hnil =>
    rw [hnil] at hsplit
    have hparts := List.append_inj' hsplit rfl
    rw [← hparts.1, ← List.singleton_inj.mp hparts.2]
    rw [← List.singleton_inj.mp hparts.2] at hconsume hrefused
    exact hdue hconsume hrefused
  | inr hsnoc =>
    obtain ⟨shorter, last, hafter⟩ := hsnoc
    rw [hafter, List.concat_eq_append, ← List.cons_append, ← List.append_assoc] at hsplit
    have hparts := List.append_inj' hsplit rfl
    exact h before other shorter hparts.1 hconsume hrefused

/-- The table has the admissions that are still in the window, and they kept the quota. -/
structure Booked (quota : String → Quota) (events : List Event) (log : List Outcome) : Prop where
  paced : ∀ bucket, Paced (quota bucket).limit (quota bucket).windowMs (granted bucket log)
  tracked : ∀ bucket later,
    (∀ outcome ∈ log, outcome.call.bucket = bucket → outcome.grantedAt ≤ later) →
      live (quota bucket).windowMs later (grants bucket events) =
        live (quota bucket).windowMs later (granted bucket log)
  refusals : RefusalsDue quota log

section Commit

variable {quota : String → Quota} {events : List Event} {log : List Outcome} {call : Call}
  {nowMs grantedAt : ℕ}

theorem Booked.unexpired_live (h : Booked quota events log)
    (hlatest : ∀ outcome ∈ log, outcome.call.bucket = call.bucket → outcome.grantedAt ≤ grantedAt)
    (hdeleted : ∀ event ∈ events, event.Expired (quota call.bucket) call nowMs →
      event.grantedAt + (quota call.bucket).windowMs ≤ grantedAt)
    {later : ℕ} (hlater : grantedAt ≤ later) :
    live (quota call.bucket).windowMs later
        (grants call.bucket (unexpired (quota call.bucket) call nowMs events)) =
      live (quota call.bucket).windowMs later (granted call.bucket log) := by
  rw [live_grants_unexpired hdeleted hlater]
  apply h.tracked
  intro outcome houtcome hbucket
  exact (hlatest outcome houtcome hbucket).trans hlater

theorem grants_length (bucket : String) (events : List Event) :
    (grants bucket events).length = (ofBucket bucket events).length := List.length_map _

theorem Booked.admitted (h : Booked quota events log)
    (hlatest : ∀ outcome ∈ log, outcome.call.bucket = call.bucket → outcome.grantedAt ≤ grantedAt)
    (hdeleted : ∀ event ∈ events, event.Expired (quota call.bucket) call nowMs →
      event.grantedAt + (quota call.bucket).windowMs ≤ grantedAt)
    (hconsume : call.consume) (hroom : (ofBucket call.bucket
      (unexpired (quota call.bucket) call nowMs events)).length < (quota call.bucket).limit) :
    Booked quota
      (unexpired (quota call.bucket) call nowMs events ++
        [{ bucket := call.bucket, occurredAtMs := nowMs, grantedAt := grantedAt }])
      (log ++ [{ call := call, grantedAt := grantedAt, refused := false }]) := by
  refine ⟨?_, ?_, ?_⟩
  · intro bucket
    rw [granted_snoc]
    by_cases hbucket : call.bucket = bucket
    · rw [if_pos ⟨hbucket, hconsume, by simp⟩, ← hbucket]
      apply (h.paced call.bucket).snoc
      · intro time htime
        obtain ⟨outcome, houtcome, hown, heq⟩ := mem_granted htime
        rw [← heq]
        exact hlatest outcome houtcome hown
      · rw [← h.unexpired_live hlatest hdeleted le_rfl]
        have hle := List.length_filter_le (fun time => grantedAt < time +
          (quota call.bucket).windowMs)
          (grants call.bucket (unexpired (quota call.bucket) call nowMs events))
        rw [grants_length] at hle
        exact hle.trans_lt hroom
    · rw [if_neg (fun hown => hbucket hown.1), List.append_nil]
      exact h.paced bucket
  · intro bucket later hlater
    rw [granted_snoc, grants_append, live_append, live_append]
    have hearlier : ∀ outcome ∈ log, outcome.call.bucket = bucket → outcome.grantedAt ≤ later :=
      fun outcome houtcome => hlater outcome (List.mem_append_left _ houtcome)
    by_cases hbucket : call.bucket = bucket
    · have hnow := hlater _ (List.mem_append_right _ (List.mem_singleton_self _)) hbucket
      rw [if_pos ⟨hbucket, hconsume, by simp⟩, ← hbucket,
        h.unexpired_live hlatest hdeleted hnow]
      simp [grants, ofBucket]
    · rw [if_neg (fun hown => hbucket hown.1), grants_unexpired_other (Ne.symm hbucket),
        h.tracked bucket later hearlier]
      simp [grants, ofBucket, hbucket]
  · exact h.refusals.snoc (fun _ hrefused => by simp at hrefused)

theorem Booked.declined (h : Booked quota events log)
    (hlatest : ∀ outcome ∈ log, outcome.call.bucket = call.bucket → outcome.grantedAt ≤ grantedAt)
    (htime : ReadingsAgree (quota call.bucket) call nowMs grantedAt events) {refused : Bool}
    (hrefused : call.consume → refused = true ∧ (quota call.bucket).limit ≤
      (ofBucket call.bucket (unexpired (quota call.bucket) call nowMs events)).length) :
    Booked quota (unexpired (quota call.bucket) call nowMs events)
      (log ++ [{ call := call, grantedAt := grantedAt, refused := refused }]) := by
  have hsame : ∀ bucket,
      granted bucket (log ++ [{ call := call, grantedAt := grantedAt, refused := refused }]) =
        granted bucket log := by
    intro bucket
    rw [granted_snoc, if_neg ?_, List.append_nil]
    rintro ⟨_, hconsume, hadmitted⟩
    exact hadmitted (hrefused hconsume).1
  refine ⟨?_, ?_, ?_⟩
  · intro bucket
    rw [hsame]
    exact h.paced bucket
  · intro bucket later hlater
    rw [hsame]
    by_cases hbucket : call.bucket = bucket
    · have hnow := hlater _ (List.mem_append_right _ (List.mem_singleton_self _)) hbucket
      rw [← hbucket]
      exact h.unexpired_live hlatest htime.deleted hnow
    · rw [grants_unexpired_other (Ne.symm hbucket)]
      exact h.tracked bucket later
        (fun outcome houtcome => hlater outcome (List.mem_append_left _ houtcome))
  · apply h.refusals.snoc
    intro hconsume _
    have hfull := (hrefused hconsume).2
    have hall : live (quota call.bucket).windowMs grantedAt
        (grants call.bucket (unexpired (quota call.bucket) call nowMs events)) =
          grants call.bucket (unexpired (quota call.bucket) call nowMs events) := by
      apply List.filter_eq_self.mpr
      intro time hmem
      obtain ⟨event, hevent, heq⟩ := List.mem_map.mp hmem
      rw [← heq]
      exact decide_eq_true (htime.kept hfull event hevent)
    rw [← h.unexpired_live hlatest htime.deleted le_rfl, hall, grants_length]
    exact hfull

end Commit

theorem Booked.step {P : Type} [DecidableEq P] {quota : String → Quota} {s : State P}
    (h : Booked quota s.events s.log) (hordered : Ordered s) {a : Action P} (ha : s.Allowed a)
    (htime : InTime quota s a) : Booked quota (s.next quota a).events (s.next quota a).log := by
  cases a with
  | tick laterMs => exact h
  | read process call => exact h
  | lock process =>
    obtain ⟨call, nowMs, _, _, hnext⟩ := @lock_cases _ _ quota _ _ ha
    rw [hnext]
    exact h
  | commit process =>
    obtain ⟨call, nowMs, grantedAt, hphase, hnext⟩ := @commit_cases _ _ quota _ _ ha
    have hlatest := (hordered.latest process call nowMs grantedAt hphase).2
    have hagree : (s.phase process).InTime quota s.events := htime
    rw [hphase] at hagree
    rw [hnext]
    unfold State.commit
    dsimp only
    by_cases hroom : call.consume ∧ (ofBucket call.bucket
        (unexpired (quota call.bucket) call nowMs s.events)).length < (quota call.bucket).limit
    · have hresult := @databaseWindow_admitted _ _ nowMs grantedAt _ hroom
      rw [hresult.1, hresult.2]
      exact h.admitted hlatest hagree.deleted hroom.1 hroom.2
    · have hresult := @databaseWindow_declined _ _ nowMs grantedAt _ hroom
      rw [hresult.1]
      apply h.declined hlatest hagree
      intro hconsume
      exact ⟨hresult.2 hconsume, not_lt.mp (fun hlt => hroom ⟨hconsume, hlt⟩)⟩
  | abort process => exact h

theorem booked_start (quota : String → Quota) : Booked quota [] [] := by
  refine ⟨fun bucket => .nil, fun bucket later _ => rfl, ?_⟩
  intro before outcome after hsplit
  simp at hsplit

theorem ordered_start (P : Type) : Ordered (start P) := by
  refine ⟨?_, ?_, ?_⟩
  · intro outcome houtcome
    simp [start] at houtcome
  · intro process call nowMs grantedAt hphase
    simp [start] at hphase
  · intro process call nowMs grantedAt hphase
    simp [start] at hphase

/-- In every run whose commits are in time, the quota of every bucket is kept. -/
theorem limiter_right {P : Type} [DecidableEq P] (quota : String → Quota) (actions : List (Action P))
    (h : ((limiter P quota).restrict (InTime quota)).Accepts (start P) actions) :
    QuotaKept quota ((limiter P quota).after (start P) actions).log := by
  have hbooked : Ordered ((limiter P quota).after (start P) actions) ∧
      Booked quota ((limiter P quota).after (start P) actions).events
        ((limiter P quota).after (start P) actions).log := by
    have hrun := @Machine.invariant _ _ ((limiter P quota).restrict (InTime quota))
      (fun s => Ordered s ∧ Booked quota s.events s.log)
      (fun s a hs ha => ⟨hs.1.step ha.1, hs.2.step hs.1 ha.1 ha.2⟩) actions (start P)
      ⟨ordered_start P, booked_start quota⟩ h
    exact hrun
  exact ⟨fun bucket start => (hbooked.2.paced bucket).within_le start, hbooked.2.refusals⟩

def oneAMinute (_ : String) : Quota := { windowMs := 60000, limit := 1 }

def globalCall : Call := { bucket := "global", consume := true }

/-- The first process reads the clock a minute before it gets the lock. -/
def lateLock : List (Action Bool) :=
  [.read true globalCall, .tick 60000, .lock true, .commit true, .tick 60001,
    .read false globalCall, .lock false, .commit false]

/-- The event of the first process is deleted a millisecond after its admission. -/
theorem lateLock_exceeds : (limiter Bool oneAMinute).Accepts (start Bool) lateLock ∧
    ¬ QuotaKept oneAMinute ((limiter Bool oneAMinute).after (start Bool) lateLock).log := by
  refine ⟨by decide +kernel, ?_⟩
  intro h
  have hgranted : granted "global" ((limiter Bool oneAMinute).after (start Bool) lateLock).log =
      [60000, 60001] := by decide +kernel
  have hbound := h.bounded "global" 60000
  rw [hgranted] at hbound
  exact absurd hbound (by decide)

/-- Two calls a minute apart, and one between them that waits for its lock. -/
def promptLocks : List (Action Bool) :=
  [.read true globalCall, .lock true, .commit true, .tick 5, .read false globalCall, .tick 9,
    .lock false, .commit false, .tick 60000, .read true globalCall, .lock true, .commit true]

theorem promptLocks_kept :
    QuotaKept oneAMinute ((limiter Bool oneAMinute).after (start Bool) promptLocks).log :=
  limiter_right oneAMinute promptLocks (by decide +kernel)

end LocalPlatform.Market.RateLimit
