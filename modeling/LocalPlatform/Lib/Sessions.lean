import Mathlib.Data.List.Basic

/-!
# Statements in one transaction

A transaction runs statements on one connection.  A statement may violate a constraint.  On
SQLite the transaction goes on after that.  On PostgreSQL it is aborted: every later statement
fails with another error, and the commit is a rollback.

* `Session.execute` runs a statement and `Session.commit` ends the transaction.
* `insertFirst` tries one insert for each candidate and goes on after a violation, as a program
  does that looks for a free place in this way.  `insertFirst_sqlite` and
  `insertFirst_postgresql` say what it finds on either database.
-/

namespace LocalPlatform.Sessions

variable {σ α ι : Type}

inductive Backend where
  | sqlite
  | postgresql
  deriving DecidableEq

/-- A transaction: the database at its start, the one that it sees, and whether it is aborted. -/
structure Session (σ : Type) where
  saved : σ
  current : σ
  aborted : Bool

def Session.start (db : σ) : Session σ where
  saved := db
  current := db
  aborted := false

/-- What a statement answers: a result, a violated constraint, or that the transaction is
aborted. -/
inductive StatementResult (α : Type) where
  | ok (value : α)
  | integrity
  | inFailedTransaction
  deriving DecidableEq

/-- A statement that gives nothing violates a constraint. -/
def Session.execute (backend : Backend) (session : Session σ) (statement : σ → Option (α × σ)) :
    StatementResult α × Session σ :=
  if session.aborted then (.inFailedTransaction, session)
  else
    match statement session.current with
    | some (value, next) => (.ok value, { session with current := next })
    | none => (.integrity, { session with aborted := backend == .postgresql })

def Session.commit (session : Session σ) : σ :=
  if session.aborted then session.saved else session.current

/-- Insert at the first candidate that violates nothing.  The result is nothing when an error
other than a violation was raised, and then the row if there is one. -/
def insertFirst (backend : Backend) (statement : ι → σ → Option (α × σ)) :
    List ι → Session σ → Option (Option α × Session σ)
  | [], session => some (none, session)
  | i :: rest, session =>
    match session.execute backend (statement i) with
    | (.ok value, session) => some (some value, session)
    | (.integrity, session) => insertFirst backend statement rest session
    | (.inFailedTransaction, _) => none

section InsertFirst

variable {backend : Backend} {statement : ι → σ → Option (α × σ)} {session : Session σ}

theorem insertFirst_free {i : ι} {rest : List ι} {value : α} {next : σ}
    (hactive : session.aborted = false) (hfree : statement i session.current = some (value, next)) :
    insertFirst backend statement (i :: rest) session =
      some (some value, { session with current := next }) := by
  simp [insertFirst, Session.execute, hactive, hfree]

theorem insertFirst_sqlite (is : List ι) (hactive : session.aborted = false) :
    (∃ i ∈ is, ∃ value next, statement i session.current = some (value, next) ∧
      insertFirst .sqlite statement is session =
        some (some value, { session with current := next })) ∨
    ((∀ i ∈ is, statement i session.current = none) ∧
      insertFirst .sqlite statement is session = some (none, session)) := by
  induction is with
  | nil => exact Or.inr ⟨by simp, rfl⟩
  | cons i rest ih =>
    cases hfree : statement i session.current with
    | some entry =>
      left
      exact ⟨i, List.mem_cons_self, entry.1, entry.2, hfree, insertFirst_free hactive hfree⟩
    | none =>
      have hskip : insertFirst .sqlite statement (i :: rest) session =
          insertFirst .sqlite statement rest session := by
        cases session
        subst hactive
        simp only [insertFirst, Session.execute, hfree]
        rfl
      rw [hskip]
      cases ih with
      | inl hfound =>
        obtain ⟨j, hj, hrest⟩ := hfound
        exact Or.inl ⟨j, List.mem_cons_of_mem i hj, hrest⟩
      | inr hnone =>
        right
        refine ⟨?_, hnone.2⟩
        intro j hj
        cases List.mem_cons.mp hj with
        | inl heq => rw [heq, hfree]
        | inr hmem => exact hnone.1 j hmem

theorem insertFirst_postgresql {i : ι} {rest : List ι} (hactive : session.aborted = false)
    (htaken : statement i session.current = none) :
    insertFirst .postgresql statement (i :: rest) session =
      if rest = [] then some (none, { session with aborted := true }) else none := by
  cases rest with
  | nil => simp [insertFirst, Session.execute, hactive, htaken]
  | cons j rest => simp [insertFirst, Session.execute, hactive, htaken]

end InsertFirst

end LocalPlatform.Sessions
