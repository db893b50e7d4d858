import Mathlib.Data.List.Induction

/-!
# A register with looks and writes

Several parties read and overwrite one register.  The log has the values in the order in which
they were written, so a position in the log says how far it was when a party looked.

* `last` is the value of the register.
* `Looked` says that the value at a position did not have a property, and a position keeps that
  while the log grows.
* `Quiet` says that no value with the property was written since.  The two together say that the
  value now does not have the property (`Looked.quiet`).
-/

namespace LocalPlatform.Registers

variable {V : Type} {p q : V → Prop} {first : V} {log : List V} {seen : Nat}

def last (first : V) (log : List V) : V := log.getLast?.getD first

@[simp] theorem last_nil (first : V) : last first [] = first := rfl

@[simp] theorem last_snoc (first : V) (log : List V) (v : V) : last first (log ++ [v]) = v := by
  simp [last]

theorem last_append (first : V) (log more : List V) :
    last first (log ++ more) = last (last first log) more := by
  induction more using List.reverseRecOn with
  | nil => simp
  | append_singleton more v _ => rw [← List.append_assoc, last_snoc, last_snoc]

/-- No value with the property was written since a position. -/
def Quiet (p : V → Prop) (log : List V) (seen : Nat) : Prop := ∀ v ∈ log.drop seen, ¬ p v

instance (p : V → Prop) [DecidablePred p] (log : List V) (seen : Nat) :
    Decidable (Quiet p log seen) :=
  inferInstanceAs (Decidable (∀ v ∈ log.drop seen, ¬ p v))

/-- The value at a position did not have the property. -/
structure Looked (p : V → Prop) (first : V) (log : List V) (seen : Nat) : Prop where
  le : seen ≤ log.length
  value : ¬ p (last first (log.take seen))

theorem Looked.start (h : ¬ p first) (log : List V) : Looked p first log 0 where
  le := Nat.zero_le _
  value := by simpa using h

theorem Looked.now (h : ¬ p (last first log)) : Looked p first log log.length where
  le := Nat.le_refl _
  value := by simpa using h

theorem Looked.append (h : Looked p first log seen) (more : List V) :
    Looked p first (log ++ more) seen where
  le := by
    have hle := h.le
    simp only [List.length_append]
    omega
  value := by
    rw [List.take_append_of_le_length h.le]
    exact h.value

theorem Looked.weaken (h : Looked p first log seen) (hpq : ∀ v, q v → p v) :
    Looked q first log seen where
  le := h.le
  value := fun hq => h.value (hpq _ hq)

theorem last_mem_or (first : V) (log : List V) : last first log ∈ log ∨ log = [] := by
  induction log using List.reverseRecOn with
  | nil => exact Or.inr rfl
  | append_singleton log v _ => simp

theorem Looked.quiet (h : Looked p first log seen) (hquiet : Quiet p log seen) :
    ¬ p (last first log) := by
  have hsplit : last first log = last (last first (log.take seen)) (log.drop seen) := by
    rw [← last_append, List.take_append_drop]
  rw [hsplit]
  cases last_mem_or (last first (log.take seen)) (log.drop seen) with
  | inl hmem => exact hquiet _ hmem
  | inr hnil =>
    rw [hnil]
    exact h.value

end LocalPlatform.Registers
