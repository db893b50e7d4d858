import LocalPlatform.Lib.Machine

/-!
# Statements of transactions at the level READ COMMITTED

Sessions work on one store, statement by statement, in any order.

* A `Program` is what a session has left: a select goes on with what it sees, a write waits until
  no other open transaction has written under one of its locks, and a commit makes the writes of the
  transaction visible together.
* A session sees the committed store with its own writes over it (`Database.view`).  What raises
  ends the session and drops its writes; so does `Action.abort`, which may come at any time.
* A `Protocol` is a rely-guarantee argument: an invariant of the committed store, what a session may
  rely on while its writes are pending, and what a commit guarantees.  `Protocol.Follows` is the
  obligation of a program, and `Protocol.run` the conclusion for every run.
-/

namespace LocalPlatform.ReadCommitted

open Machines

variable {σ ω ν κ : Type}

/-! ## Programs and sessions -/

/-- The statements that a session has left.  Where it halts its open transaction is dropped. -/
inductive Program (σ ω : Type) where
  | halt
  | select (rest : σ → Program σ ω)
  | write (statement : ω) (rest : Program σ ω)
  | commit (rest : Program σ ω)

/-- What a write does or raises, and the locks that it holds until its transaction ends. -/
structure Database (σ ω ν : Type) where
  apply : ω → σ → Except String σ
  locks : ω → List ν

/-- A store with the writes of a transaction over it. -/
def Database.view (database : Database σ ω ν) (pending : List ω) (store : σ) : Except String σ :=
  pending.foldlM (fun store statement => database.apply statement store) store

structure Session (σ ω : Type) where
  program : Program σ ω
  pending : List ω

/-- A session without an open transaction that does nothing more. -/
def Session.ended : Session σ ω := ⟨.halt, []⟩

/-- The store and the session after the next statement of a session. -/
def Session.next (database : Database σ ω ν) (store : σ) (session : Session σ ω) :
    σ × Session σ ω :=
  match session.program with
  | .halt => (store, .ended)
  | .select rest =>
    match database.view session.pending store with
    | .ok seen => (store, ⟨rest seen, session.pending⟩)
    | .error _ => (store, .ended)
  | .write statement rest =>
    match database.view (session.pending ++ [statement]) store with
    | .ok _ => (store, ⟨rest, session.pending ++ [statement]⟩)
    | .error _ => (store, .ended)
  | .commit rest =>
    match database.view session.pending store with
    | .ok store => (store, ⟨rest, []⟩)
    | .error _ => (store, .ended)

/-! ## Worlds -/

/-- The committed store, and the sessions. -/
structure World (σ ω : Type) where
  store : σ
  sessions : List (Session σ ω)

/-- A call starts, a session runs its next statement, or it ends early. -/
inductive Action (κ : Type) where
  | call (call : κ)
  | step (index : ℕ)
  | abort (index : ℕ)

def Session.statement (session : Session σ ω) : Option ω :=
  match session.program with
  | .write statement _ => some statement
  | _ => none

def Database.Apart (database : Database σ ω ν) (a b : ω) : Prop :=
  ∀ lock ∈ database.locks a, lock ∉ database.locks b

instance [DecidableEq ν] (database : Database σ ω ν) (a b : ω) : Decidable (database.Apart a b) :=
  inferInstanceAs (Decidable (∀ lock ∈ database.locks a, lock ∉ database.locks b))

theorem Database.Apart.symm {database : Database σ ω ν} {a b : ω} (h : database.Apart a b) :
    database.Apart b a :=
  fun lock hb ha => h lock ha hb

/-- No other session holds a lock of a session's next write. -/
def World.Free (database : Database σ ω ν) (world : World σ ω) (index : ℕ) : Prop :=
  ∀ statement ∈ (world.sessions[index]?).bind Session.statement,
    ∀ other < world.sessions.length, other ≠ index →
      ∀ held ∈ ((world.sessions[other]?).map Session.pending).getD [], database.Apart statement held

instance [DecidableEq ν] (database : Database σ ω ν) (world : World σ ω) (index : ℕ) :
    Decidable (world.Free database index) := by
  unfold World.Free
  infer_instance

/-- A world after an action. -/
def World.next (database : Database σ ω ν) (programOf : κ → Program σ ω) (world : World σ ω) :
    Action κ → World σ ω
  | .call call => { world with sessions := world.sessions ++ [⟨programOf call, []⟩] }
  | .step index =>
    match world.sessions[index]? with
    | some session =>
      { store := (session.next database world.store).1
        sessions := world.sessions.set index (session.next database world.store).2 }
    | none => world
  | .abort index => { world with sessions := world.sessions.set index .ended }

/-- Every order of the statements of every number of calls. -/
def statements (database : Database σ ω ν) (programOf : κ → Program σ ω) :
    Machine (World σ ω) (Action κ) where
  allowed := fun world action =>
    match action with
    | .step index => world.Free database index
    | _ => True
  next := World.next database programOf

instance [DecidableEq ν] (database : Database σ ω ν) (programOf : κ → Program σ ω)
    (world : World σ ω) (action : Action κ) :
    Decidable ((statements database programOf).allowed world action) :=
  match action with
  | .call _ => .isTrue trivial
  | .step index => inferInstanceAs (Decidable (world.Free database index))
  | .abort _ => .isTrue trivial

/-! ## Rely and guarantee -/

/-- What the sessions may rely on, and what their commits guarantee. -/
structure Protocol (database : Database σ ω ν) where
  /-- The invariant of the committed store. -/
  inv : σ → Prop
  /-- What the other sessions may do while these writes are pending. -/
  rely : List ω → σ → σ → Prop
  /-- What a commit does to the store. -/
  guarantee : σ → σ → Prop
  /-- The condition on the committed store before a write. -/
  condition : σ → ω → Prop
  relyRefl : ∀ pending store, rely pending store store
  relyTrans : ∀ pending a b c, rely pending a b → rely pending b c → rely pending a c
  guaranteeRefl : ∀ store, guarantee store store
  guaranteeTrans : ∀ a b c, guarantee a b → guarantee b c → guarantee a c
  /-- A commit of a session is what the others may rely on. -/
  interference : ∀ pending other store next,
    (∀ a ∈ pending, ∀ b ∈ other, database.Apart a b) → inv store →
    database.view other store = .ok next → guarantee store next → rely pending store next

namespace Protocol

variable {database : Database σ ω ν} (protocol : Protocol database)

/-- The obligation of a program with pending writes, in a committed store. -/
def Follows : Program σ ω → List ω → σ → Prop
  | .halt, _, _ => True
  | .select rest, pending, store => ∀ now seen, protocol.rely pending store now →
      protocol.inv now → database.view pending now = .ok seen → Follows (rest seen) pending now
  | .write statement rest, pending, store => ∀ now seen, protocol.rely pending store now →
      protocol.inv now → protocol.condition now statement →
      database.view (pending ++ [statement]) now = .ok seen →
        Follows rest (pending ++ [statement]) now
  | .commit rest, pending, store => ∀ now next, protocol.rely pending store now →
      protocol.inv now → database.view pending now = .ok next →
        protocol.inv next ∧ protocol.guarantee now next ∧ Follows rest [] next

variable {protocol}

theorem Follows.stable {program : Program σ ω} {pending : List ω} {store now : σ}
    (h : protocol.Follows program pending store) (hrely : protocol.rely pending store now) :
    protocol.Follows program pending now := by
  cases program with
  | halt => trivial
  | select rest =>
    intro later seen hlater
    exact h later seen (protocol.relyTrans _ _ _ _ hrely hlater)
  | write statement rest =>
    intro later seen hlater
    exact h later seen (protocol.relyTrans _ _ _ _ hrely hlater)
  | commit rest =>
    intro later next hlater
    exact h later next (protocol.relyTrans _ _ _ _ hrely hlater)

/-- The invariant of a world: that of the store, the obligations of the sessions, and that no two
of them hold one lock. -/
structure Keeps (protocol : Protocol database) (world : World σ ω) : Prop where
  inv : protocol.inv world.store
  follows : ∀ (index : ℕ) (session : Session σ ω), world.sessions[index]? = some session →
    protocol.Follows session.program session.pending world.store
  apart : ∀ (i j : ℕ) (a b : Session σ ω), i ≠ j → world.sessions[i]? = some a →
    world.sessions[j]? = some b → ∀ v ∈ a.pending, ∀ w ∈ b.pending, database.Apart v w

/-- The condition on an action: the next write of the session meets the condition of the
protocol. -/
def meets (protocol : Protocol database) (world : World σ ω) : Action κ → Prop
  | .step index => ∀ statement ∈ (world.sessions[index]?).bind Session.statement,
      protocol.condition world.store statement
  | _ => True

/-- What a step of a session does to the store and to the session. -/
structure Stepped (protocol : Protocol database) (store : σ) (session : Session σ ω) (next : σ)
    (session' : Session σ ω) : Prop where
  inv : protocol.inv next
  guarantee : protocol.guarantee store next
  /-- The store is changed by a commit only. -/
  committed : next = store ∨ database.view session.pending store = .ok next
  follows : protocol.Follows session'.program session'.pending next
  pending : ∀ w ∈ session'.pending, w ∈ session.pending ∨ w ∈ session.statement

theorem Stepped.ended {store : σ} (h : protocol.inv store) (session : Session σ ω) :
    protocol.Stepped store session store .ended :=
  ⟨h, protocol.guaranteeRefl store, .inl rfl, trivial, by simp [Session.ended]⟩

variable {world : World σ ω}

theorem Keeps.session (h : protocol.Keeps world) {index : ℕ} {session : Session σ ω}
    (hsession : world.sessions[index]? = some session)
    (hmeets : ∀ statement ∈ session.statement, protocol.condition world.store statement) :
    protocol.Stepped world.store session (session.next database world.store).1
      (session.next database world.store).2 := by
  obtain ⟨program, pending⟩ := session
  have hfollows := h.follows index _ hsession
  have hrefl := protocol.relyRefl pending world.store
  have hsame := protocol.guaranteeRefl world.store
  unfold Session.next
  cases program with
  | halt => exact .ended h.inv _
  | select rest =>
    dsimp only
    cases hview : database.view pending world.store with
    | error message => exact .ended h.inv _
    | ok seen =>
      exact ⟨h.inv, hsame, .inl rfl, hfollows world.store seen hrefl h.inv hview,
        fun w hw => .inl hw⟩
  | write statement rest =>
    dsimp only
    cases hview : database.view (pending ++ [statement]) world.store with
    | error message => exact .ended h.inv _
    | ok seen =>
      refine ⟨h.inv, hsame, .inl rfl,
        hfollows world.store seen hrefl h.inv (hmeets statement rfl) hview, fun w hw => ?_⟩
      cases List.mem_append.mp hw with
      | inl hold => exact .inl hold
      | inr hnew => exact .inr (List.mem_singleton.mp hnew ▸ rfl)
  | commit rest =>
    dsimp only
    cases hview : database.view pending world.store with
    | error message => exact .ended h.inv _
    | ok next =>
      obtain ⟨hinv, hguarantee, hrest⟩ := hfollows world.store next hrefl h.inv hview
      exact ⟨hinv, hguarantee, .inr hview, hrest, by simp⟩

/-- A session without pending writes comes to the others. -/
theorem Keeps.of_fresh (h : protocol.Keeps world) {sessions : List (Session σ ω)}
    (fresh : Session σ ω) (hfresh : protocol.Follows fresh.program [] world.store)
    (hpending : fresh.pending = [])
    (hread : ∀ (i : ℕ) (a : Session σ ω), sessions[i]? = some a →
      a = fresh ∨ world.sessions[i]? = some a) :
    protocol.Keeps { world with sessions := sessions } := by
  refine ⟨h.inv, fun i a ha => ?_, fun i j a b hij ha hb v hv w hw => ?_⟩
  · cases hread i a ha with
    | inl hnew =>
      rw [hnew, hpending]
      exact hfresh
    | inr hold => exact h.follows i a hold
  · cases hread i a ha with
    | inl hnew =>
      rw [hnew, hpending] at hv
      cases hv
    | inr holda =>
      cases hread j b hb with
      | inl hnew =>
        rw [hnew, hpending] at hw
        cases hw
      | inr holdb => exact h.apart i j a b hij holda holdb v hv w hw

theorem Keeps.of_ended (h : protocol.Keeps world) (index : ℕ) :
    protocol.Keeps { world with sessions := world.sessions.set index .ended } := by
  refine h.of_fresh .ended trivial rfl (fun i a ha => ?_)
  rw [List.getElem?_set] at ha
  split_ifs at ha
  · exact .inl (Option.some.inj ha).symm
  · exact .inr ha

theorem Keeps.call (h : protocol.Keeps world) {program : Program σ ω}
    (hprogram : protocol.Follows program [] world.store) :
    protocol.Keeps { world with sessions := world.sessions ++ [⟨program, []⟩] } := by
  refine h.of_fresh ⟨program, []⟩ hprogram rfl (fun i a ha => ?_)
  rw [List.getElem?_append] at ha
  split_ifs at ha
  · exact .inr ha
  · exact .inl (List.mem_singleton.mp (List.mem_of_getElem? ha))

theorem Keeps.step (h : protocol.Keeps world) {index : ℕ} {session : Session σ ω}
    (hsession : world.sessions[index]? = some session)
    (hmeets : ∀ statement ∈ session.statement, protocol.condition world.store statement)
    (hfree : world.Free database index) :
    protocol.Keeps { store := (session.next database world.store).1
                     sessions := world.sessions.set index (session.next database world.store).2 } := by
  have hstep := h.session hsession hmeets
  have hlength : index < world.sessions.length := (List.getElem?_eq_some_iff.mp hsession).1
  generalize (session.next database world.store).1 = next at hstep ⊢
  generalize (session.next database world.store).2 = session' at hstep ⊢
  have hread : ∀ (i : ℕ) (a : Session σ ω), (world.sessions.set index session')[i]? = some a →
      (i = index ∧ a = session') ∨ (i ≠ index ∧ world.sessions[i]? = some a) := by
    intro i a ha
    rw [List.getElem?_set] at ha
    split_ifs at ha with hi
    · exact .inl ⟨hi.symm, (Option.some.inj ha).symm⟩
    · exact .inr ⟨fun heq => hi heq.symm, ha⟩
  have hlocks : ∀ (j : ℕ) (b : Session σ ω), j ≠ index → world.sessions[j]? = some b →
      ∀ v ∈ session'.pending, ∀ w ∈ b.pending, database.Apart v w := by
    intro j b hj hb v hv w hw
    cases hstep.pending v hv with
    | inl hold => exact h.apart index j session b (Ne.symm hj) hsession hb v hold w hw
    | inr hnew =>
      refine hfree v (by rw [hsession]; exact hnew) j (List.getElem?_eq_some_iff.mp hb).1 hj w ?_
      rw [hb]
      exact hw
  refine ⟨hstep.inv, fun i a ha => ?_, fun i j a b hij ha hb v hv w hw => ?_⟩
  · cases hread i a ha with
    | inl hnew => exact hnew.2 ▸ hstep.follows
    | inr hold =>
      refine (h.follows i a hold.2).stable ?_
      cases hstep.committed with
      | inl hsame => exact hsame ▸ protocol.relyRefl _ _
      | inr hview =>
        refine protocol.interference a.pending session.pending world.store next
          (fun v hv w hw => ?_) h.inv hview hstep.guarantee
        exact h.apart i index a session hold.1 hold.2 hsession v hv w hw
  · rcases hread i a ha with ⟨rfl, rfl⟩ | ⟨hi, holda⟩
    · rcases hread j b hb with ⟨rfl, rfl⟩ | ⟨hj, holdb⟩
      · exact absurd rfl hij
      · exact hlocks j b hj holdb v hv w hw
    · rcases hread j b hb with ⟨rfl, rfl⟩ | ⟨hj, holdb⟩
      · exact (hlocks i a hi holda w hw v hv).symm
      · exact h.apart i j a b hij holda holdb v hv w hw

variable {programOf : κ → Program σ ω}

theorem Keeps.next
    (hprograms : ∀ call store, protocol.inv store → protocol.Follows (programOf call) [] store)
    (h : protocol.Keeps world) {action : Action κ}
    (hallowed : ((statements database programOf).restrict protocol.meets).allowed world action) :
    protocol.Keeps (world.next database programOf action) ∧
      protocol.guarantee world.store (world.next database programOf action).store := by
  cases action with
  | call call => exact ⟨h.call (hprograms call _ h.inv), protocol.guaranteeRefl _⟩
  | abort index => exact ⟨h.of_ended index, protocol.guaranteeRefl _⟩
  | step index =>
    unfold World.next
    dsimp only
    cases hsession : world.sessions[index]? with
    | none => exact ⟨h, protocol.guaranteeRefl _⟩
    | some session =>
      have hmeets : ∀ statement ∈ session.statement,
          protocol.condition world.store statement := by
        intro statement hstatement
        exact hallowed.2 statement (by rw [hsession]; exact hstatement)
      exact ⟨h.step hsession hmeets hallowed.1, (h.session hsession hmeets).guarantee⟩

theorem run (hprograms : ∀ call store, protocol.inv store →
      protocol.Follows (programOf call) [] store) (actions : List (Action κ)) :
    ∀ {world : World σ ω}, protocol.Keeps world →
      ((statements database programOf).restrict protocol.meets).Accepts world actions →
        protocol.Keeps ((statements database programOf).after world actions) ∧
          protocol.guarantee world.store
            ((statements database programOf).after world actions).store := by
  induction actions with
  | nil => exact fun h _ => ⟨h, protocol.guaranteeRefl _⟩
  | cons action actions ih =>
    intro world h haccepts
    have hnext := h.next hprograms haccepts.1
    have hrest := ih hnext.1 haccepts.2
    exact ⟨hrest.1, protocol.guaranteeTrans _ _ _ hnext.2 hrest.2⟩

theorem Keeps.start {store : σ} (h : protocol.inv store) : protocol.Keeps ⟨store, []⟩ :=
  ⟨h, by simp, by simp⟩

end Protocol

end LocalPlatform.ReadCommitted
