import Mathlib.Data.List.Forall2

/-!
# Programs made of committed transactions

A program that talks to a database commits a sequence of transactions.  A
transaction either commits as a whole or is rolled back when a statement of it
fails, and the worker that runs the program can die between two transactions.
`TxM` records what such a worker leaves behind: the database after each
commit, the database at the end, and the result or the error.

There are six groups.

* `settle`, the database after one transaction, committed or rolled back, and
  the invariant rule for a sequence of them.
* The monad.  `tx` commits one transaction, `read` looks at the database
  without committing anything, `fail` raises.
* `wp`, the weakest precondition of a program.  It carries two assertions: one
  for every committed database on the way and one for the outcome.  The rules
  follow the shape of the program.
* `Within R m`: every database that `m` leaves on its way and at its end is
  related to the one it started on by the preorder `R`.  `Composes R W` are the
  rules by which any such property of programs follows their shape.
* Crash.  `crashStates` lists the databases a dying worker can leave behind, and
  `Skips` says that a run finds nothing to do.
* Provenance.  `Visits` is a run of programs that stop anywhere, with the
  databases that it passed.  `Sourced` says that what a program adds to a database
  comes from one that it passed before.
-/

namespace LocalPlatform.Transaction

variable {σ ε α β ι : Type}

/-! ## Single transactions -/

/-- The database after a transaction: what it wrote, or what was there before
when a statement of it failed. -/
def settle (f : σ → Except ε (α × σ)) (s : σ) : σ :=
  match f s with
  | .ok r => r.2
  | .error _ => s

theorem settle_ok {f : σ → Except ε (α × σ)} {s t : σ} {a : α} (h : f s = .ok (a, t)) :
    settle f s = t := by
  simp [settle, h]

theorem settle_error {f : σ → Except ε (α × σ)} {s : σ} {e : ε} (h : f s = .error e) :
    settle f s = s := by
  simp [settle, h]

/-- A transaction that returns has one result and one database after it. -/
theorem ok_inj {s t : σ} {a b : α} (h : (.ok (a, s) : Except ε (α × σ)) = .ok (b, t)) :
    a = b ∧ s = t :=
  Prod.mk.inj (Except.ok.inj h)

theorem settle_invariant {Inv : σ → Prop} (step : ι → σ → Except ε (α × σ))
    (hstep : ∀ i s a t, Inv s → step i s = .ok (a, t) → Inv t) :
    ∀ (is : List ι) (s : σ), Inv s → Inv (is.foldl (fun s i => settle (step i) s) s) := by
  intro is
  induction is with
  | nil =>
    intro s hs
    exact hs
  | cons i is ih =>
    intro s hs
    rw [List.foldl_cons]
    apply ih
    cases h : step i s with
    | ok r =>
      rw [settle_ok h]
      exact hstep i s r.1 r.2 hs h
    | error e =>
      rw [settle_error h]
      exact hs

/-! ## The monad -/

/-- What a program leaves behind: the database after each committed
transaction, in order, the database at the end, and the result or the error. -/
structure Outcome (σ ε α : Type) where
  commits : List σ
  state : σ
  value : Except ε α

/-- A program that reads and writes a database `σ` in committed transactions,
and may raise an error `ε`. -/
def TxM (σ ε α : Type) : Type := σ → Outcome σ ε α

namespace TxM

/-- Run `f` after `m`, unless `m` raised. -/
def bind (m : TxM σ ε α) (f : α → TxM σ ε β) : TxM σ ε β := fun s =>
  match (m s).value with
  | .ok a =>
    { commits := (m s).commits ++ (f a (m s).state).commits
      state := (f a (m s).state).state
      value := (f a (m s).state).value }
  | .error e => { commits := (m s).commits, state := (m s).state, value := .error e }

instance : Monad (TxM σ ε) where
  pure a := fun s => { commits := [], state := s, value := .ok a }
  bind := TxM.bind

/-- Commit one transaction.  A statement that fails rolls the whole
transaction back and raises. -/
def tx (f : σ → Except ε (α × σ)) : TxM σ ε α := fun s =>
  match f s with
  | .ok (a, t) => { commits := [t], state := t, value := .ok a }
  | .error e => { commits := [], state := s, value := .error e }

/-- Read the database.  A transaction that writes nothing leaves no new
database behind. -/
def read (f : σ → Except ε α) : TxM σ ε α := fun s =>
  { commits := [], state := s, value := f s }

def fail (e : ε) : TxM σ ε α := fun s => { commits := [], state := s, value := .error e }

/-- Run `f` on each item in order and collect the results. -/
def forEach (f : ι → TxM σ ε α) : List ι → TxM σ ε (List α)
  | [] => pure []
  | i :: is => do
    let a ← f i
    let as ← forEach f is
    pure (a :: as)

/-- `try`: the error of `m` is its result. -/
def attempt (m : TxM σ ε α) : TxM σ ε (Except ε α) := fun s =>
  { commits := (m s).commits, state := (m s).state, value := .ok (m s).value }

def zoom {τ : Type} (get : σ → τ) (put : τ → σ → σ) (m : TxM τ ε α) : TxM σ ε α := fun s =>
  { commits := (m (get s)).commits.map (fun t => put t s)
    state := put (m (get s)).state s
    value := (m (get s)).value }

theorem pure_run (a : α) (s : σ) :
    (pure a : TxM σ ε α) s = { commits := [], state := s, value := .ok a } := rfl

variable {m : TxM σ ε α} {f : α → TxM σ ε β} {s : σ} {a : α}

theorem bind_ok (h : (m s).value = .ok a) :
    (m >>= f) s =
      { commits := (m s).commits ++ (f a (m s).state).commits
        state := (f a (m s).state).state
        value := (f a (m s).state).value } := by
  change TxM.bind m f s = _
  simp only [TxM.bind, h]

theorem bind_error {e : ε} (h : (m s).value = .error e) :
    (m >>= f) s = { commits := (m s).commits, state := (m s).state, value := .error e } := by
  change TxM.bind m f s = _
  simp only [TxM.bind, h]

theorem bind_value_ok {b : β} (h : ((m >>= f) s).value = .ok b) :
    ∃ a, (m s).value = .ok a ∧ (f a (m s).state).value = .ok b := by
  cases hm : (m s).value with
  | ok a =>
    rw [bind_ok hm] at h
    exact ⟨a, rfl, h⟩
  | error e =>
    rw [bind_error hm] at h
    cases h

variable {is : List ι}

theorem forEach_cons_ok_iff {f : ι → TxM σ ε α} {i : ι} {l : List α} :
    (forEach f (i :: is) s).value = .ok l ↔
      ∃ a as, (f i s).value = .ok a ∧ (forEach f is (f i s).state).value = .ok as ∧
        l = a :: as := by
  constructor
  · intro h
    obtain ⟨a, ha, h⟩ := bind_value_ok h
    obtain ⟨as, has, h⟩ := bind_value_ok h
    refine ⟨a, as, ha, has, ?_⟩
    rw [pure_run] at h
    exact (Except.ok.inj h).symm
  · rintro ⟨a, as, ha, has, rfl⟩
    show ((f i >>= _) s).value = _
    rw [bind_ok ha, bind_ok has]
    rfl

theorem forEach_cons_state {f : ι → TxM σ ε α} {i : ι} (h : (f i s).value = .ok a) :
    (forEach f (i :: is) s).state = (forEach f is (f i s).state).state := by
  show ((f i >>= _) s).state = _
  rw [bind_ok h]
  cases hrest : (forEach f is (f i s).state).value with
  | ok as =>
    rw [bind_ok hrest]
    rfl
  | error e => rw [bind_error hrest]

theorem forEach_unchanged {f : ι → TxM σ ε Bool}
    (hf : ∀ i s, (f i s).value = .ok false → (f i s).state = s) :
    ∀ (is : List ι) (s : σ) (answers : List Bool), (forEach f is s).value = .ok answers →
      answers.any id = false → (forEach f is s).state = s := by
  intro is
  induction is with
  | nil => exact fun _ _ _ _ => rfl
  | cons i is ih =>
    intro s answers hvalue hnone
    obtain ⟨first, rest, hfirst, hrest, rfl⟩ := forEach_cons_ok_iff.mp hvalue
    rw [List.any_cons, Bool.or_eq_false_iff] at hnone
    have hstate : (f i s).state = s := by
      refine hf i s ?_
      rw [hfirst]
      exact congrArg Except.ok hnone.1
    rw [forEach_cons_state hfirst, hstate]
    rw [hstate] at hrest
    exact ih s rest hrest hnone.2

/-! ## Weakest preconditions -/

/-- `wp I m Q s`: started on `s`, the program `m` commits only databases that
satisfy `I`, and its result or error and the database at the end satisfy `Q`. -/
def wp (I : σ → Prop) (m : TxM σ ε α) (Q : Except ε α → σ → Prop) (s : σ) : Prop :=
  (∀ t ∈ (m s).commits, I t) ∧ Q (m s).value (m s).state

variable {I J : σ → Prop} {s : σ} {Q : Except ε α → σ → Prop}

theorem wp_pure (h : Q (.ok a) s) : wp I (pure a : TxM σ ε α) Q s :=
  ⟨by simp [pure_run], h⟩

theorem wp_fail {e : ε} (h : Q (.error e) s) : wp I (fail e : TxM σ ε α) Q s :=
  ⟨by simp [fail], h⟩

theorem wp_read {f : σ → Except ε α} (h : Q (f s) s) : wp I (read f) Q s :=
  ⟨by simp [read], h⟩

theorem wp_tx {f : σ → Except ε (α × σ)} (hok : ∀ a t, f s = .ok (a, t) → I t ∧ Q (.ok a) t)
    (herr : ∀ e, f s = .error e → Q (.error e) s) : wp I (tx f) Q s := by
  unfold wp tx
  cases h : f s with
  | ok r =>
    obtain ⟨a, t⟩ := r
    have hok' := hok a t h
    simp [hok'.1, hok'.2]
  | error e => simp [herr e h]

theorem wp_bind {Q : Except ε β → σ → Prop} (h : wp I m (fun r t => match r with
      | .ok a => wp I (f a) Q t
      | .error e => Q (.error e) t) s) : wp I (m >>= f) Q s := by
  obtain ⟨hcommits, hpost⟩ := h
  cases hm : (m s).value with
  | ok a =>
    simp only [hm] at hpost
    unfold wp
    rw [bind_ok hm]
    refine ⟨?_, hpost.2⟩
    intro t ht
    rcases List.mem_append.mp ht with ht | ht
    · exact hcommits t ht
    · exact hpost.1 t ht
  | error e =>
    simp only [hm] at hpost
    unfold wp
    rw [bind_error hm]
    exact ⟨hcommits, hpost⟩

theorem wp_attempt {Q : Except ε (Except ε α) → σ → Prop} (h : wp I m (fun r t => Q (.ok r) t) s) :
    wp I (attempt m) Q s := h

theorem wp_zoom {τ : Type} {get : σ → τ} {put : τ → σ → σ} {m : TxM τ ε α}
    (h : wp (fun t => I (put t s)) m (fun r t => Q r (put t s)) (get s)) :
    wp I (zoom get put m) Q s := by
  refine ⟨?_, h.2⟩
  intro t ht
  obtain ⟨u, hu, rfl⟩ := List.mem_map.mp ht
  exact h.1 u hu

theorem wp_of_eq {m' : TxM σ ε α} (h : m s = m' s) (hwp : wp I m' Q s) : wp I m Q s := by
  unfold wp
  rw [h]
  exact hwp

theorem wp_mono {R : Except ε α → σ → Prop} (h : wp I m Q s) (hI : ∀ t, I t → J t)
    (hQ : ∀ r t, Q r t → R r t) : wp J m R s :=
  ⟨fun t ht => hI t (h.1 t ht), hQ _ _ h.2⟩

/-- A bind keeps a property that both of its parts keep. -/
theorem wp_bind_keep {P : σ → Prop} (hm : wp I m (fun _ t => P t) s)
    (hf : ∀ a t, P t → wp I (f a) (fun _ u => P u) t) : wp I (m >>= f) (fun _ t => P t) s := by
  refine wp_bind (wp_mono hm (fun _ h => h) ?_)
  rintro (e | a) t ht
  · exact ht
  · exact hf a t ht

theorem wp_and {R : Except ε α → σ → Prop} (h : wp I m Q s) (h' : wp J m R s) :
    wp (fun t => I t ∧ J t) m (fun r t => Q r t ∧ R r t) s :=
  ⟨fun t ht => ⟨h.1 t ht, h'.1 t ht⟩, h.2, h'.2⟩

theorem wp_forEach {f : ι → TxM σ ε α} (Inv : List ι → σ → Prop) (E : ε → σ → Prop)
    (hstep : ∀ i is t, Inv (i :: is) t →
      wp I (f i) (fun r u => match r with
        | .ok _ => Inv is u
        | .error e => E e u) t) :
    ∀ (is : List ι) (s : σ), Inv is s →
      wp I (forEach f is) (fun r t => match r with
        | .ok _ => Inv [] t
        | .error e => E e t) s := by
  intro is
  induction is with
  | nil =>
    intro s hs
    exact wp_pure hs
  | cons i is ih =>
    intro s hs
    refine wp_bind (wp_mono (hstep i is s hs) (fun _ h => h) ?_)
    intro r t hr
    cases r with
    | error e => exact hr
    | ok a =>
      refine wp_bind (wp_mono (ih t hr) (fun _ h => h) ?_)
      intro r' t' hr'
      cases r' with
      | error e => exact hr'
      | ok as => exact wp_pure hr'

theorem wp_forEach_keep {f : ι → TxM σ ε α} (Inv : σ → Prop)
    (hstep : ∀ i t, Inv t → wp I (f i) (fun _ u => Inv u) t) (is : List ι) (s : σ)
    (hs : Inv s) : wp I (forEach f is) (fun _ t => Inv t) s := by
  have hloop := wp_forEach (fun _ t => Inv t) (fun _ t => Inv t)
    (fun i _ t ht => wp_mono (hstep i t ht) (fun _ h => h) (by rintro (e | a) u hu <;> exact hu))
    is s hs
  refine wp_mono hloop (fun _ h => h) ?_
  rintro (e | as) t ht <;> exact ht

/-! ## Preorders -/

/-- Every database that `m` commits, and the one it ends on, is related by `R`
to the one it started on. -/
def Within (R : σ → σ → Prop) (m : TxM σ ε α) : Prop := ∀ s, wp (R s) m (fun _ t => R s t) s

variable {R : σ → σ → Prop}

/-- The programs of a property `W` are closed under the shapes of a program, and a
transaction within `R` is one of them. -/
structure Composes (R : σ → σ → Prop) (W : ∀ {α : Type}, TxM σ ε α → Prop) : Prop where
  pure : ∀ {α : Type} (a : α), W (Pure.pure a : TxM σ ε α)
  fail : ∀ {α : Type} (e : ε), W (TxM.fail e : TxM σ ε α)
  read : ∀ {α : Type} (f : σ → Except ε α), W (TxM.read f)
  tx : ∀ {α : Type} {f : σ → Except ε (α × σ)}, (∀ s a t, f s = .ok (a, t) → R s t) →
    W (TxM.tx f)
  bind : ∀ {α β : Type} {m : TxM σ ε α} {f : α → TxM σ ε β}, W m → (∀ a, W (f a)) → W (m >>= f)
  attempt : ∀ {α : Type} {m : TxM σ ε α}, W m → W (TxM.attempt m)

theorem Composes.forEach {W : ∀ {α : Type}, TxM σ ε α → Prop} (h : Composes R W)
    {f : ι → TxM σ ε α} (is : List ι) (hf : ∀ i ∈ is, W (f i)) : W (TxM.forEach f is) := by
  induction is with
  | nil => exact h.pure []
  | cons i is ih =>
    obtain ⟨hi, hrest⟩ := List.forall_mem_cons.mp hf
    refine h.bind hi (fun a => ?_)
    exact h.bind (ih hrest) (fun as => h.pure (a :: as))

theorem composes_within (hrefl : ∀ s, R s s) (htrans : ∀ s t u, R s t → R t u → R s u) :
    Composes R (fun {α} (m : TxM σ ε α) => Within R m) where
  pure := fun _ s => wp_pure (hrefl s)
  fail := fun _ s => wp_fail (hrefl s)
  read := fun _ s => wp_read (hrefl s)
  tx := fun h s => wp_tx (fun a t hok => ⟨h s a t hok, h s a t hok⟩) (fun _ _ => hrefl s)
  bind := by
    intro α β m f hm hf s
    refine wp_bind_keep (hm s) (fun a t hst => ?_)
    exact wp_mono (hf a t) (fun u htu => htrans s t u hst htu) (fun _ u htu => htrans s t u hst htu)
  attempt := fun hm s => wp_attempt (hm s)

/-! ## Crash -/

/-- The databases that a worker can leave behind when it dies during `m`: the
one it started on, and the one after each commit. -/
def crashStates (m : TxM σ ε α) (s : σ) : List σ := s :: (m s).commits

/-- A worker that runs `m` from `s` can leave `t` behind: it died before or
after a commit, or it reached the end. -/
def Leaves (m : TxM σ ε α) (s t : σ) : Prop := t ∈ crashStates m s ∨ t = (m s).state

theorem Leaves.of_wp {t : σ} (h : Leaves m s t) (hstart : I s) (hwp : wp I m (fun _ u => I u) s) :
    I t := by
  rcases h with h | rfl
  · rcases List.mem_cons.mp h with rfl | h
    · exact hstart
    · exact hwp.1 t h
  · exact hwp.2

/-- On `t` the program returns `a` and leaves the database as it is. -/
def Skips (m : TxM σ ε α) (t : σ) (a : α) : Prop :=
  (m t).value = .ok a ∧ (m t).state = t

theorem Skips.bind {t : σ} {b : β} (hm : Skips m t a) (hf : Skips (f a) t b) :
    Skips (m >>= f) t b := by
  unfold Skips
  rw [bind_ok hm.1, hm.2]
  exact hf

theorem skips_forEach {f : ι → TxM σ ε α} {t : σ} {as : List α}
    (h : List.Forall₂ (fun i a => Skips (f i) t a) is as) : Skips (forEach f is) t as := by
  induction h with
  | nil => exact ⟨rfl, rfl⟩
  | @cons i a is as hi _ ih =>
    have hvalue : (forEach f is (f i t).state).value = .ok as := by
      rw [hi.2]
      exact ih.1
    refine ⟨forEach_cons_ok_iff.mpr ⟨a, as, hi.1, hvalue, rfl⟩, ?_⟩
    rw [forEach_cons_state hi.1, hi.2]
    exact ih.2

/-! ## Provenance -/

/-- A run of programs from `start` is in `t`, and the worker of each may have died
at any of its commits.  The databases that the run passed are `before`. -/
inductive Visits {κ : Type} (allowed : σ → κ → Prop) (program : κ → TxM σ ε α) (start : σ) :
    List σ → σ → Prop where
  | start : Visits allowed program start [] start
  | call {before : List σ} {s : σ} {k : κ} {passed : List σ} {t : σ} {left : List σ}
      (hrun : Visits allowed program start before s) (hallowed : allowed s k)
      (ht : crashStates (program k) s = passed ++ t :: left) :
      Visits allowed program start (before ++ passed) t

/-- The program ends on a database that it committed, or on the first one. -/
def Settles (m : TxM σ ε α) : Prop := ∀ s, (m s).state ∈ crashStates m s

theorem composes_settles :
    Composes (fun _ _ => True) (fun {α} (m : TxM σ ε α) => Settles m) where
  pure := fun _ _ => List.mem_cons_self
  fail := fun _ _ => List.mem_cons_self
  read := fun _ _ => List.mem_cons_self
  tx := by
    intro α f _ s
    unfold crashStates TxM.tx
    cases f s <;> simp
  bind := by
    intro α β m f hm hf s
    unfold crashStates
    cases hvalue : (m s).value with
    | error e =>
      rw [bind_error hvalue]
      exact hm s
    | ok a =>
      rw [bind_ok hvalue, ← List.cons_append]
      rcases List.mem_cons.mp (hf a (m s).state) with hstart | hcommit
      · show (f a (m s).state).state ∈ _
        rw [hstart]
        exact List.mem_append_left _ (hm s)
      · exact List.mem_append_right _ hcommit
  attempt := fun hm => hm

/-- What a database of the program has was there at the start, or has its origin
in a database that the program passed before. -/
structure Sourced {κ : Type} (has origin : σ → κ → Prop) (m : TxM σ ε α) : Prop where
  settles : Settles m
  source : ∀ s {before : List σ} {t : σ} {after : List σ},
    crashStates m s = before ++ t :: after → ∀ k, has t k → has s k ∨ ∃ u ∈ before, origin u k

section Sources

variable {κ : Type} {has origin : σ → κ → Prop}

theorem sourced_of_start {m : TxM σ ε α} (hsettles : Settles m)
    (h : ∀ s, ∀ t ∈ (m s).commits, ∀ k, has t k → has s k ∨ origin s k) : Sourced has origin m := by
  refine ⟨hsettles, ?_⟩
  intro s before t after htrace k hk
  cases before with
  | nil =>
    obtain ⟨rfl, -⟩ := List.cons.inj htrace
    exact Or.inl hk
  | cons u before =>
    obtain ⟨rfl, hcommits⟩ := List.cons.inj htrace
    have ht : t ∈ (m s).commits := by
      rw [hcommits]
      simp
    rcases h s t ht k hk with hstart | horigin
    · exact Or.inl hstart
    · exact Or.inr ⟨s, List.mem_cons_self, horigin⟩

theorem sourced_bind {m : TxM σ ε α} {f : α → TxM σ ε β} (hm : Sourced has origin m)
    (hf : ∀ a, Sourced has origin (f a)) : Sourced has origin (m >>= f) := by
  refine ⟨composes_settles.bind hm.settles (fun a => (hf a).settles), ?_⟩
  intro s before t after htrace k hk
  cases hvalue : (m s).value with
  | error e =>
    unfold crashStates at htrace
    rw [bind_error hvalue] at htrace
    exact hm.source s htrace k hk
  | ok a =>
    unfold crashStates at htrace
    rw [bind_ok hvalue, ← List.cons_append] at htrace
    -- a database of the second program has everything that the first one ended on
    have hsecond : ∀ passed, (f a (m s).state).commits = passed ++ t :: after →
        has s k ∨ ∃ u ∈ crashStates m s ++ passed, origin u k := by
      intro passed hpassed
      have hcrash : crashStates (f a) (m s).state = ((m s).state :: passed) ++ t :: after :=
        congrArg ((m s).state :: ·) hpassed
      rcases (hf a).source _ hcrash k hk with hmid | ⟨u, hu, horigin⟩
      · obtain ⟨pre, post, hsplit⟩ := List.append_of_mem (hm.settles s)
        rcases hm.source s hsplit k hmid with hstart | ⟨u, hu, horigin⟩
        · exact Or.inl hstart
        · refine Or.inr ⟨u, List.mem_append_left _ ?_, horigin⟩
          rw [hsplit]
          exact List.mem_append_left _ hu
      · rcases List.mem_cons.mp hu with rfl | hu
        · exact Or.inr ⟨_, List.mem_append_left _ (hm.settles s), horigin⟩
        · exact Or.inr ⟨u, List.mem_append_right _ hu, horigin⟩
    rcases List.append_eq_append_iff.mp htrace with ⟨passed, rfl, hpassed⟩ | ⟨rest, hfirst, hrest⟩
    · exact hsecond passed hpassed
    · cases rest with
      | nil =>
        rw [List.append_nil] at hfirst
        have hpassed := hsecond [] hrest.symm
        rw [List.append_nil, show crashStates m s = before from hfirst] at hpassed
        exact hpassed
      | cons u rest =>
        obtain ⟨rfl, -⟩ := List.cons.inj hrest
        exact hm.source s hfirst k hk

theorem composes_sourced : Composes (fun s t => ∀ k, has t k → has s k)
    (fun {α} (m : TxM σ ε α) => Sourced has origin m) where
  pure := fun a => sourced_of_start (composes_settles.pure a) (fun _ _ ht => by cases ht)
  fail := fun e => sourced_of_start (composes_settles.fail e) (fun _ _ ht => by cases ht)
  read := fun f => sourced_of_start (composes_settles.read f) (fun _ _ ht => by cases ht)
  tx := by
    intro α f hf
    refine sourced_of_start (composes_settles.tx (fun _ _ _ _ => trivial)) ?_
    intro s t ht k hk
    unfold TxM.tx at ht
    split at ht
    · rename_i a t' hrun
      rw [List.mem_singleton.mp ht] at hk
      exact Or.inl (hf s a t' hrun k hk)
    · cases ht
  bind := sourced_bind
  attempt := fun hm => ⟨hm.settles, hm.source⟩

end Sources

end TxM

end LocalPlatform.Transaction
