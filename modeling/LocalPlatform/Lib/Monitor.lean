import Mathlib.Data.List.Infix

/-!
# Monitors

A monitor reads a list of events, keeps a state, and reports what it finds on the way.

* `Monitor.run` is the loop with the findings in an accumulator, as programs write it.
* `Monitor.findings_eq_nil_iff` reads an empty report from the steps: no event was a finding in
  the state that the events before it lead to.
-/

namespace LocalPlatform

structure Monitor (σ ε φ : Type) where
  /-- The state after an event. -/
  step : σ → ε → σ
  /-- What an event is reported as. -/
  finding : σ → ε → Option φ

namespace Monitor

variable {σ ε φ : Type} (m : Monitor σ ε φ)

/-- The loop: the state and the findings so far. -/
def run (start : σ) (events : List ε) : σ × List φ :=
  events.foldl (fun current event =>
    (m.step current.1 event, current.2 ++ (m.finding current.1 event).toList)) (start, [])

def state (start : σ) (events : List ε) : σ := events.foldl m.step start

theorem state_snoc (start : σ) (events : List ε) (event : ε) :
    m.state start (events ++ [event]) = m.step (m.state start events) event := by
  simp [state, List.foldl_append]

theorem run_snoc (start : σ) (events : List ε) (event : ε) :
    m.run start (events ++ [event]) =
      (m.step (m.run start events).1 event,
        (m.run start events).2 ++ (m.finding (m.run start events).1 event).toList) := by
  simp [run, List.foldl_append]

theorem run_state (start : σ) (events : List ε) : (m.run start events).1 = m.state start events := by
  induction events using List.reverseRecOn with
  | nil => rfl
  | append_singleton events event ih => rw [run_snoc, state_snoc, ih]

theorem findings_eq_nil_iff (start : σ) (events : List ε) :
    (m.run start events).2 = [] ↔
      ∀ before event, before ++ [event] <+: events →
        m.finding (m.state start before) event = none := by
  induction events using List.reverseRecOn with
  | nil => simp [run]
  | append_singleton events last ih =>
    rw [run_snoc, run_state, List.append_eq_nil_iff, ih, Option.toList_eq_nil_iff]
    constructor
    · rintro ⟨hbefore, hlast⟩ before event hpre
      cases List.prefix_concat_iff.mp hpre with
      | inl heq =>
        obtain ⟨rfl, hsame⟩ := List.append_inj' heq rfl
        cases hsame
        exact hlast
      | inr hpre => exact hbefore before event hpre
    · intro h
      constructor
      · intro before event hpre
        exact h before event (hpre.trans (List.prefix_append events [last]))
      · exact h events last List.prefix_rfl

end Monitor

end LocalPlatform
