import Mathlib.Data.List.MinMax

/-!
# Numbered paths of a transition relation

An append-only log of state changes is a path when its rows are numbered from
one, every row starts where the row before it ended, and every row is a legal
move.  The first row has no source.  `Path` says this of a list of `Step`s, and
the lemmas below read it row by row.

`legal source target` is the transition relation.  Its source is `none` before
the first row.
-/

namespace LocalPlatform.Paths

variable {S α : Type}

/-- One numbered move from a source to a target. -/
structure Step (S : Type) where
  sequence : Nat
  source : Option S
  target : S

/-- The steps are a single numbered path of `legal` moves. -/
inductive Path (legal : Option S → S → Prop) : List (Step S) → Prop where
  | nil : Path legal []
  | snoc {steps : List (Step S)} {step : Step S} (path : Path legal steps)
      (hsequence : step.sequence = steps.length + 1)
      (hsource : step.source = steps.getLast?.map Step.target)
      (hlegal : legal step.source step.target) : Path legal (steps ++ [step])

variable {legal : Option S → S → Prop} {steps : List (Step S)}

theorem Path.sequence_getElem (h : Path legal steps) {n : Nat} (hn : n < steps.length) :
    steps[n].sequence = n + 1 := by
  induction h with
  | nil => simp at hn
  | @snoc steps step _ hsequence _ _ ih =>
    rcases Nat.lt_or_ge n steps.length with hlt | hge
    · rw [List.getElem_append_left hlt]
      exact ih hlt
    · have hlen : n = steps.length := by
        simp only [List.length_append, List.length_singleton] at hn
        omega
      subst hlen
      simpa using hsequence

theorem Path.source_zero (h : Path legal steps) (hn : 0 < steps.length) :
    steps[0].source = none := by
  induction h with
  | nil => simp at hn
  | @snoc steps step _ _ hsource _ ih =>
    cases steps with
    | nil => simpa using hsource
    | cons head tail => exact ih (by simp)

theorem Path.source_succ (h : Path legal steps) {n : Nat} (hn : n + 1 < steps.length) :
    steps[n + 1].source = some steps[n].target := by
  induction h with
  | nil => simp at hn
  | @snoc steps step _ _ hsource _ ih =>
    have hlength : n + 1 < steps.length + 1 := by simpa using hn
    rcases Nat.lt_or_ge (n + 1) steps.length with hlt | hge
    · rw [List.getElem_append_left hlt, List.getElem_append_left (by omega)]
      exact ih hlt
    · have hbelow : n < steps.length := by omega
      have hlast : steps.getLast? = some steps[n] := by
        have hindex : steps.length - 1 = n := by omega
        rw [List.getLast?_eq_getElem?, hindex, List.getElem?_eq_getElem hbelow]
      rw [List.getElem_append_left hbelow, List.getElem_append_right hge]
      simp [hsource, hlast]

theorem Path.legal_of_mem (h : Path legal steps) {step : Step S} (hmem : step ∈ steps) :
    legal step.source step.target := by
  induction h with
  | nil => simp at hmem
  | snoc _ _ _ hlegal ih =>
    rcases List.mem_append.mp hmem with hmem | hmem
    · exact ih hmem
    · rw [List.mem_singleton.mp hmem]
      exact hlegal

theorem Path.closed (h : Path legal steps) {P : S → Prop}
    (hclosed : ∀ a b, P a → legal (some a) b → P b) {i j : Nat} (hij : i ≤ j)
    (hi : i < steps.length) (hj : j < steps.length) (hP : P steps[i].target) :
    P steps[j].target := by
  induction j with
  | zero =>
    have hzero : i = 0 := by omega
    subst hzero
    exact hP
  | succ j ih =>
    rcases Nat.lt_or_ge j i with hlt | hge
    · have heq : i = j + 1 := by omega
      subst heq
      exact hP
    · have hbelow : j < steps.length := by omega
      have hprev : P steps[j].target := ih hge hbelow
      have hmove := h.legal_of_mem (List.getElem_mem hj)
      rw [h.source_succ hj] at hmove
      exact hclosed _ _ hprev hmove

theorem Path.eq_last_of_terminal (h : Path legal steps) {a : S}
    (hterminal : ∀ b, ¬ legal (some a) b) {i : Nat} (hi : i < steps.length)
    (ha : steps[i].target = a) : i + 1 = steps.length := by
  by_contra hne
  have hnext : i + 1 < steps.length := by omega
  have hmove := h.legal_of_mem (List.getElem_mem hnext)
  rw [h.source_succ hnext, ha] at hmove
  exact hterminal _ hmove

/-! ## The latest row -/

theorem Path.foldl_max_sequence (h : Path legal steps) :
    (steps.map Step.sequence).foldl max 0 = steps.length := by
  induction h with
  | nil => rfl
  | @snoc steps step _ hsequence _ _ ih =>
    simp only [List.map_append, List.map_cons, List.map_nil, List.foldl_append, List.foldl_cons,
      List.foldl_nil, List.length_append, List.length_singleton]
    omega

theorem argmax_eq_getLast? (f : α → Nat) (l : List α) (h : l.Pairwise (fun a b => f a < f b)) :
    l.argmax f = l.getLast? := by
  induction l using List.reverseRecOn with
  | nil => simp
  | append_singleton l a ih =>
    rw [List.pairwise_append] at h
    rw [List.argmax_concat, ih h.1]
    cases hlast : l.getLast? with
    | none => simp
    | some b =>
      have hb : b ∈ l := List.mem_of_getLast? hlast
      have hlt : f b < f a := h.2.2 b hb a (by simp)
      simp [hlt]

theorem Path.pairwise_sequence (h : Path legal steps) :
    steps.Pairwise (fun a b => a.sequence < b.sequence) := by
  rw [List.pairwise_iff_getElem]
  intro i j hi hj hij
  rw [h.sequence_getElem hi, h.sequence_getElem hj]
  omega

end LocalPlatform.Paths
