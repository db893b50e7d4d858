import Mathlib.Data.List.Basic

/-!
# Machines with labelled actions

A `Machine` says which actions a state allows and which state an action leads
to.  Whatever is not determined by the state (which party goes next, what a
service answers, how late a message arrives) is part of the action, so a run is
a list of actions, and the state after it is computed.

* `Accepts` says that every action of a list is allowed in the state it meets,
  and `after` is the state at the end.  A prefix of an accepted list is
  accepted, so a property of all ends is a property of all states on the way.
* `restrict` keeps the actions that meet a condition on the state before them.
* `Machine.invariant` is the induction over a run.
-/

namespace LocalPlatform.Machines

variable {σ α : Type}

/-- The actions that a state allows, and the state that an action leads to. -/
structure Machine (σ α : Type) where
  allowed : σ → α → Prop
  next : σ → α → σ

namespace Machine

variable (machine : Machine σ α)

/-- Every action is allowed in the state it meets. -/
def Accepts : σ → List α → Prop
  | _, [] => True
  | s, a :: actions => machine.allowed s a ∧ Accepts (machine.next s a) actions

def after (s : σ) (actions : List α) : σ := actions.foldl machine.next s

/-- The machine whose actions also meet a condition. -/
def restrict (condition : σ → α → Prop) : Machine σ α where
  allowed := fun s a => machine.allowed s a ∧ condition s a
  next := machine.next

/-- Whether a list is accepted is decided action by action. -/
instance decidableAccepts [∀ s a, Decidable (machine.allowed s a)] :
    ∀ (s : σ) (actions : List α), Decidable (machine.Accepts s actions)
  | _, [] => .isTrue trivial
  | s, a :: actions =>
    have := decidableAccepts (machine.next s a) actions
    inferInstanceAs (Decidable (machine.allowed s a ∧ machine.Accepts (machine.next s a) actions))

instance decidableRestrict (condition : σ → α → Prop) [∀ s a, Decidable (machine.allowed s a)]
    [∀ s a, Decidable (condition s a)] (s : σ) (a : α) :
    Decidable ((machine.restrict condition).allowed s a) :=
  inferInstanceAs (Decidable (machine.allowed s a ∧ condition s a))

variable {machine}

@[simp] theorem after_nil (s : σ) : machine.after s [] = s := rfl

@[simp] theorem after_cons (s : σ) (a : α) (actions : List α) :
    machine.after s (a :: actions) = machine.after (machine.next s a) actions := rfl

theorem after_append (s : σ) (as bs : List α) :
    machine.after s (as ++ bs) = machine.after (machine.after s as) bs := by
  simp [after]

theorem accepts_append (as : List α) : ∀ (s : σ) (bs : List α),
    machine.Accepts s (as ++ bs) ↔ machine.Accepts s as ∧ machine.Accepts (machine.after s as) bs := by
  induction as with
  | nil =>
    intro s bs
    exact ⟨fun h => ⟨trivial, h⟩, fun h => h.2⟩
  | cons a as ih =>
    intro s bs
    show (machine.allowed s a ∧ machine.Accepts (machine.next s a) (as ++ bs)) ↔ _
    rw [ih, ← and_assoc]
    rfl

theorem accepts_iff (actions : List α) : ∀ s : σ, machine.Accepts s actions ↔
    ∀ before a after, actions = before ++ a :: after → machine.allowed (machine.after s before) a := by
  induction actions with
  | nil =>
    intro s
    refine ⟨fun _ before a after h => ?_, fun _ => trivial⟩
    simp at h
  | cons first actions ih =>
    intro s
    show machine.allowed s first ∧ machine.Accepts (machine.next s first) actions ↔ _
    rw [ih]
    constructor
    · rintro ⟨hfirst, hrest⟩ before a after h
      cases before with
      | nil =>
        rw [← (List.cons.inj h).1]
        exact hfirst
      | cons b before =>
        obtain ⟨rfl, htail⟩ := List.cons.inj h
        exact hrest before a after htail
    · intro h
      refine ⟨h [] first actions rfl, fun before a after htail => ?_⟩
      exact h (first :: before) a after (by rw [htail]; rfl)

theorem invariant {Inv : σ → Prop}
    (hstep : ∀ s a, Inv s → machine.allowed s a → Inv (machine.next s a)) :
    ∀ (actions : List α) (s : σ), Inv s → machine.Accepts s actions →
      Inv (machine.after s actions) := by
  intro actions
  induction actions with
  | nil =>
    intro s hs _
    exact hs
  | cons a actions ih =>
    intro s hs haccepts
    exact ih _ (hstep s a hs haccepts.1) haccepts.2

end Machine

end LocalPlatform.Machines
