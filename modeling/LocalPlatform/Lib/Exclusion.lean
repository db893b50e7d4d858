import Mathlib.Logic.Function.Basic
import Mathlib.Logic.Relation

/-!
# Exclusion by announcing, then checking

A worker that wants a contender for itself raises the contender's flag, then
looks at the flags of all rivals, and enters when they are down.  Raising a
flag and looking at the others are separate steps, and a flag stays up until
its worker leaves.

Two workers may see each other and both leave, but they never both enter: the
one that looks second finds the flag of the first still up.  `Guarded` is the
invariant that says so, and `Guarded.step` keeps it.
-/

namespace LocalPlatform.Exclusion

variable {W C : Type}

/-- Where a worker stands. -/
inductive Phase (C : Type) where
  | idle
  | announced (c : C)
  | entered (c : C)
  deriving DecidableEq

def Phase.holding : Phase C → Option C
  | .idle => none
  | .announced c => some c
  | .entered c => some c

/-- The flags of the contenders and the phases of the workers. -/
structure State (W C : Type) where
  flag : C → Bool
  phase : W → Phase C

variable [DecidableEq W] [DecidableEq C]

/-- One step of one worker. -/
inductive Step (rival : C → C → Prop) : State W C → State W C → Prop where
  | announce {s : State W C} (w : W) (c : C) (idle : s.phase w = .idle)
      (down : s.flag c = false) :
      Step rival s
        { flag := Function.update s.flag c true
          phase := Function.update s.phase w (.announced c) }
  | enter {s : State W C} (w : W) (c : C) (announced : s.phase w = .announced c)
      (clear : ∀ d, rival c d → s.flag d = false) :
      Step rival s { s with phase := Function.update s.phase w (.entered c) }
  | leave {s : State W C} (w : W) (c : C) (holding : (s.phase w).holding = some c) :
      Step rival s
        { flag := Function.update s.flag c false
          phase := Function.update s.phase w .idle }

/-- A held contender has its flag up and one holder, and no two rivals are
entered. -/
structure Guarded (rival : C → C → Prop) (s : State W C) : Prop where
  flagged : ∀ w c, (s.phase w).holding = some c → s.flag c = true
  single : ∀ w w' c, (s.phase w).holding = some c → (s.phase w').holding = some c → w = w'
  exclusive : ∀ w w' c d, s.phase w = .entered c → s.phase w' = .entered d → ¬ rival c d

variable {rival : C → C → Prop} {s t : State W C}

omit [DecidableEq W] [DecidableEq C] in
theorem guarded_of_idle (h : ∀ w, s.phase w = .idle) : Guarded rival s := by
  refine ⟨?_, ?_, ?_⟩
  · intro w c hw
    rw [h w] at hw
    cases hw
  · intro w _ c hw
    rw [h w] at hw
    cases hw
  · intro w _ c _ hw
    rw [h w] at hw
    cases hw

omit [DecidableEq C] in
theorem phase_update_cases {phase : W → Phase C} {w w' : W} {p q : Phase C}
    (h : Function.update phase w p w' = q) : (w' = w ∧ p = q) ∨ (w' ≠ w ∧ phase w' = q) := by
  by_cases hw : w' = w
  · subst hw
    rw [Function.update_self] at h
    exact Or.inl ⟨rfl, h⟩
  · rw [Function.update_of_ne hw] at h
    exact Or.inr ⟨hw, h⟩

omit [DecidableEq C] in
theorem holding_update_cases {phase : W → Phase C} {w w' : W} {p : Phase C} {o : Option C}
    (h : (Function.update phase w p w').holding = o) :
    (w' = w ∧ p.holding = o) ∨ (w' ≠ w ∧ (phase w').holding = o) := by
  rcases phase_update_cases (rfl : Function.update phase w p w' = _) with ⟨hw, hp⟩ | ⟨hw, hp⟩
  · rw [← hp] at h
    exact Or.inl ⟨hw, h⟩
  · rw [← hp] at h
    exact Or.inr ⟨hw, h⟩

theorem Guarded.announce (h : Guarded rival s) {w : W} {c : C} (down : s.flag c = false) :
    Guarded rival
      { flag := Function.update s.flag c true
        phase := Function.update s.phase w (.announced c) } := by
  -- Nobody holds a contender whose flag is down.
  have hfree : ∀ w', (s.phase w').holding ≠ some c := by
    intro w' hw'
    rw [h.flagged w' c hw'] at down
    cases down
  refine ⟨?_, ?_, ?_⟩
  · intro w' d hd
    show Function.update s.flag c true d = true
    by_cases hcd : d = c
    · rw [hcd, Function.update_self]
    · rw [Function.update_of_ne hcd]
      rcases holding_update_cases hd with ⟨-, hself⟩ | ⟨-, hother⟩
      · exact absurd (Option.some.inj hself).symm hcd
      · exact h.flagged w' d hother
  · intro w₁ w₂ d h₁ h₂
    rcases holding_update_cases h₁ with ⟨rfl, hself₁⟩ | ⟨-, hother₁⟩
    · rcases holding_update_cases h₂ with ⟨rfl, -⟩ | ⟨-, hother₂⟩
      · rfl
      · rw [← Option.some.inj hself₁] at hother₂
        exact absurd hother₂ (hfree w₂)
    · rcases holding_update_cases h₂ with ⟨rfl, hself₂⟩ | ⟨-, hother₂⟩
      · rw [← Option.some.inj hself₂] at hother₁
        exact absurd hother₁ (hfree w₁)
      · exact h.single w₁ w₂ d hother₁ hother₂
  · intro w₁ w₂ a b h₁ h₂
    rcases phase_update_cases h₁ with ⟨-, hself⟩ | ⟨-, hother₁⟩
    · cases hself
    · rcases phase_update_cases h₂ with ⟨-, hself⟩ | ⟨-, hother₂⟩
      · cases hself
      · exact h.exclusive w₁ w₂ a b hother₁ hother₂

omit [DecidableEq C] in
theorem Guarded.enter (hrival : ∀ a b, rival a b → rival b a) (h : Guarded rival s) {w : W}
    {c : C} (announced : s.phase w = .announced c) (clear : ∀ d, rival c d → s.flag d = false) :
    Guarded rival { s with phase := Function.update s.phase w (.entered c) } := by
  have hholding : (s.phase w).holding = some c := by
    rw [announced]
    rfl
  have hsame : ∀ w', (Function.update s.phase w (.entered c) w').holding =
      (s.phase w').holding := by
    intro w'
    by_cases hw : w' = w
    · rw [hw, Function.update_self, hholding]
      rfl
    · rw [Function.update_of_ne hw]
  -- The flag of a rival that was entered before is up.
  have hblocked : ∀ w' d, s.phase w' = .entered d → ¬ rival c d := by
    intro w' d hd hcd
    have hup := h.flagged w' d (by rw [hd]; rfl)
    rw [clear d hcd] at hup
    cases hup
  refine ⟨?_, ?_, ?_⟩
  · intro w' d hd
    rw [hsame] at hd
    exact h.flagged w' d hd
  · intro w₁ w₂ d h₁ h₂
    rw [hsame] at h₁ h₂
    exact h.single w₁ w₂ d h₁ h₂
  · intro w₁ w₂ a b h₁ h₂ hab
    rcases phase_update_cases h₁ with ⟨-, hself₁⟩ | ⟨-, hother₁⟩
    · rw [← Phase.entered.inj hself₁] at hab
      rcases phase_update_cases h₂ with ⟨-, hself₂⟩ | ⟨-, hother₂⟩
      · rw [← Phase.entered.inj hself₂] at hab
        have hup := h.flagged w c hholding
        rw [clear c hab] at hup
        cases hup
      · exact hblocked w₂ b hother₂ hab
    · rcases phase_update_cases h₂ with ⟨-, hself₂⟩ | ⟨-, hother₂⟩
      · rw [← Phase.entered.inj hself₂] at hab
        exact hblocked w₁ a hother₁ (hrival a c hab)
      · exact h.exclusive w₁ w₂ a b hother₁ hother₂ hab

theorem Guarded.leave (h : Guarded rival s) {w : W} {c : C}
    (holding : (s.phase w).holding = some c) :
    Guarded rival
      { flag := Function.update s.flag c false
        phase := Function.update s.phase w .idle } := by
  have hother : ∀ w' d, (Function.update s.phase w .idle w').holding = some d →
      w' ≠ w ∧ (s.phase w').holding = some d := by
    intro w' d hd
    rcases holding_update_cases hd with ⟨-, hself⟩ | hother
    · cases hself
    · exact hother
  refine ⟨?_, ?_, ?_⟩
  · intro w' d hd
    obtain ⟨hw, hd⟩ := hother w' d hd
    have hdc : d ≠ c := by
      intro hdc
      rw [hdc] at hd
      exact hw (h.single w' w c hd holding)
    show Function.update s.flag c false d = true
    rw [Function.update_of_ne hdc]
    exact h.flagged w' d hd
  · intro w₁ w₂ d h₁ h₂
    exact h.single w₁ w₂ d (hother w₁ d h₁).2 (hother w₂ d h₂).2
  · intro w₁ w₂ a b h₁ h₂
    rcases phase_update_cases h₁ with ⟨-, hself⟩ | ⟨-, hother₁⟩
    · cases hself
    · rcases phase_update_cases h₂ with ⟨-, hself⟩ | ⟨-, hother₂⟩
      · cases hself
      · exact h.exclusive w₁ w₂ a b hother₁ hother₂

theorem Guarded.step (hrival : ∀ a b, rival a b → rival b a) (h : Guarded rival s)
    (hstep : Step rival s t) : Guarded rival t := by
  cases hstep with
  | announce w c _ down => exact h.announce down
  | enter w c announced clear => exact h.enter hrival announced clear
  | leave w c holding => exact h.leave holding

end LocalPlatform.Exclusion
