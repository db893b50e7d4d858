import Mathlib.Algebra.BigOperators.Ring.List
import Mathlib.Algebra.Order.BigOperators.Group.List
import Mathlib.Tactic.FieldSimp
import Mathlib.Tactic.Linarith
import Mathlib.Tactic.Positivity
import Mathlib.Tactic.Ring

/-!
# Weights with a cap

* `fill` shares a target out among names.  A name whose share is above the cap gets the cap, and the
  others share what is left.
* `fill_isSome`: a round that does not end caps a name, so as many rounds as names are enough.
* `Filled` is what a filling promises: its sum, its bounds and its order, up to a tolerance
  (`filled_of_fill`).
-/

namespace LocalPlatform.Research.Factors

variable {κ K : Type} [Field K] [LinearOrder K]

/-! ## Capped weights -/

abbrev Entry (κ K : Type) := κ × K

/-- A name with its raw weight, and the weight that it gets. -/
abbrev Assigned (κ K : Type) := Entry κ K × K

def tolerance : K := 1 / 10 ^ 12

def tiny : K := 1 / 10 ^ 15

def scaleBase (remaining : List (Entry κ K)) : K := (remaining.map (fun entry => max 0 entry.2)).sum

def proposal (remaining : List (Entry κ K)) (target : K) (entry : Entry κ K) : K :=
  if scaleBase remaining ≤ tiny then target / remaining.length
  else target * max 0 entry.2 / scaleBase remaining

def IsCapped (maximum : K) (remaining : List (Entry κ K)) (target : K) (entry : Entry κ K) : Prop :=
  maximum + tolerance < proposal remaining target entry

instance (maximum : K) (remaining : List (Entry κ K)) (target : K) (entry : Entry κ K) :
    Decidable (IsCapped maximum remaining target entry) :=
  inferInstanceAs (Decidable (_ < _))

/-- The loop of `_capped_weights`, of some rounds. -/
def fill (maximum : K) : ℕ → List (Entry κ K) → K → Option (List (Assigned κ K))
  | rounds, remaining, target =>
    if remaining.isEmpty ∨ target ≤ tolerance then some (remaining.map (fun entry => (entry, 0)))
    else
      match rounds with
      | 0 => none
      | rounds + 1 =>
        let capped := remaining.filter (fun entry => IsCapped maximum remaining target entry)
        if capped.isEmpty then
          some (remaining.map (fun entry => (entry, proposal remaining target entry)))
        else
          (fill maximum rounds
            (remaining.filter (fun entry => ¬ IsCapped maximum remaining target entry))
            (target - capped.length * maximum)).map
              (fun rest => capped.map (fun entry => (entry, maximum)) ++ rest)

theorem fill_isSome (maximum : K) : ∀ (rounds : ℕ) (remaining : List (Entry κ K)) (target : K),
    remaining.length ≤ rounds → (fill maximum rounds remaining target).isSome := by
  intro rounds
  induction rounds with
  | zero =>
    intro remaining target hlength
    have hnil : remaining = [] := List.eq_nil_of_length_eq_zero (by omega)
    rw [hnil]
    unfold fill
    simp
  | succ rounds ih =>
    intro remaining target hlength
    unfold fill
    dsimp only
    split_ifs with hend hcapped
    · rfl
    · rfl
    · rw [Option.isSome_map]
      apply ih
      have hsplit := List.length_eq_length_filter_add
        (fun entry => decide (IsCapped maximum remaining target entry)) (l := remaining)
      have hpositive : 0 < (remaining.filter
          (fun entry => IsCapped maximum remaining target entry)).length := by
        rw [List.length_pos_iff]
        simpa using hcapped
      simp only [decide_not]
      omega

section Order

variable [IsStrictOrderedRing K] {maximum target : K} {remaining : List (Entry κ K)}

theorem tolerance_pos : 0 < (tolerance : K) := by
  unfold tolerance
  positivity

theorem tiny_pos : 0 < (tiny : K) := by
  unfold tiny
  positivity

theorem proposal_nonneg (h : 0 ≤ target) (entry : Entry κ K) :
    0 ≤ proposal remaining target entry := by
  unfold proposal
  split_ifs with hbase
  · positivity
  · have hpositive : 0 < scaleBase remaining := tiny_pos.trans (not_le.mp hbase)
    have hraw : 0 ≤ max 0 entry.2 := le_max_left 0 entry.2
    positivity

theorem proposal_mono (h : 0 ≤ target) {worse better : Entry κ K} (hraw : worse.2 ≤ better.2) :
    proposal remaining target worse ≤ proposal remaining target better := by
  unfold proposal
  split_ifs with hbase
  · exact le_rfl
  · have hpositive : 0 < scaleBase remaining := tiny_pos.trans (not_le.mp hbase)
    have hmax : max 0 worse.2 ≤ max 0 better.2 := max_le_max le_rfl hraw
    gcongr

theorem sum_proposals (hne : remaining ≠ []) :
    (remaining.map (proposal remaining target)).sum = target := by
  unfold proposal
  split_ifs with hbase
  · have hlength : (remaining.length : K) ≠ 0 := by
      have hpositive := List.length_pos_iff.mpr hne
      positivity
    rw [List.map_const', List.sum_replicate, nsmul_eq_mul]
    field_simp
  · have hpositive : 0 < scaleBase remaining := tiny_pos.trans (not_le.mp hbase)
    have hshares : (remaining.map (fun entry => target * max 0 entry.2 / scaleBase remaining)).sum =
        target / scaleBase remaining * (remaining.map (fun entry => max 0 entry.2)).sum := by
      rw [← List.sum_map_mul_left]
      congr 1
      apply List.map_congr_left
      intro entry _
      ring
    rw [hshares]
    show target / scaleBase remaining * scaleBase remaining = target
    field_simp

/-- What a filling promises. -/
structure Filled (maximum : K) (remaining : List (Entry κ K)) (target : K)
    (assigned : List (Assigned κ K)) : Prop where
  names : (assigned.map Prod.fst).Perm remaining
  total : |(assigned.map Prod.snd).sum - target| ≤ tolerance
  bounds : ∀ x ∈ assigned, 0 ≤ x.2 ∧ x.2 ≤ maximum + tolerance
  ordered : ∀ x ∈ assigned, ∀ y ∈ assigned, y.1.2 ≤ x.1.2 → y.2 ≤ x.2 + tolerance

theorem filled_zero (hmax : 0 ≤ maximum) (htarget : 0 ≤ target) (hsmall : target ≤ tolerance) :
    Filled maximum remaining target (remaining.map (fun entry => (entry, 0))) := by
  have htolerance : 0 < (tolerance : K) := tolerance_pos
  refine ⟨by simp [Function.comp_def], ?_, ?_, ?_⟩
  · have hsum : ((remaining.map (fun entry => (entry, (0 : K)))).map Prod.snd).sum = 0 := by
      rw [List.map_map]
      apply List.sum_eq_zero
      intro x hx
      obtain ⟨entry, _, rfl⟩ := List.mem_map.mp hx
      rfl
    rw [hsum, zero_sub, abs_neg, abs_of_nonneg htarget]
    exact hsmall
  · intro x hx
    obtain ⟨entry, _, rfl⟩ := List.mem_map.mp hx
    constructor
    · exact le_rfl
    · dsimp only
      linarith
  · intro x hx y hy _
    obtain ⟨_, _, rfl⟩ := List.mem_map.mp hx
    obtain ⟨_, _, rfl⟩ := List.mem_map.mp hy
    dsimp only
    linarith

theorem filled_shares (htarget : 0 ≤ target) (hne : remaining ≠ [])
    (hcap : ∀ entry ∈ remaining, ¬ IsCapped maximum remaining target entry) :
    Filled maximum remaining target
      (remaining.map (fun entry => (entry, proposal remaining target entry))) := by
  have htolerance : 0 < (tolerance : K) := tolerance_pos
  refine ⟨by simp [Function.comp_def], ?_, ?_, ?_⟩
  · have hsum : ((remaining.map (fun entry => (entry, proposal remaining target entry))).map
        Prod.snd).sum = target := by
      rw [List.map_map]
      exact sum_proposals hne
    rw [hsum, sub_self, abs_zero]
    exact htolerance.le
  · intro x hx
    obtain ⟨entry, hentry, rfl⟩ := List.mem_map.mp hx
    exact ⟨proposal_nonneg htarget entry, not_lt.mp (hcap entry hentry)⟩
  · intro x hx y hy hraw
    obtain ⟨better, _, rfl⟩ := List.mem_map.mp hx
    obtain ⟨worse, _, rfl⟩ := List.mem_map.mp hy
    have hmono := @proposal_mono κ K _ _ _ target remaining htarget worse better hraw
    dsimp only
    linarith

theorem capped_le_target (htarget : 0 ≤ target) (hne : remaining ≠ []) :
    ((remaining.filter (fun entry => IsCapped maximum remaining target entry)).length : K) * maximum ≤
      target := by
  have htolerance : 0 < (tolerance : K) := tolerance_pos
  have hsplit : ((remaining.filter (fun entry => IsCapped maximum remaining target entry)).map
        (proposal remaining target)).sum +
      ((remaining.filter (fun entry => ¬ IsCapped maximum remaining target entry)).map
        (proposal remaining target)).sum = target := by
    rw [← List.sum_append, ← List.map_append]
    refine Eq.trans (((List.Perm.map _ ?_)).sum_eq) (sum_proposals hne)
    simp only [decide_not]
    exact List.filter_append_perm _ remaining
  have hrest : 0 ≤ ((remaining.filter (fun entry => ¬ IsCapped maximum remaining target entry)).map
      (proposal remaining target)).sum := by
    apply List.sum_nonneg
    intro x hx
    obtain ⟨entry, _, rfl⟩ := List.mem_map.mp hx
    exact proposal_nonneg htarget entry
  have hcapped : ((remaining.filter
        (fun entry => IsCapped maximum remaining target entry)).length : K) * maximum ≤
      ((remaining.filter (fun entry => IsCapped maximum remaining target entry)).map
        (proposal remaining target)).sum := by
    have hle := List.card_nsmul_le_sum ((remaining.filter
      (fun entry => IsCapped maximum remaining target entry)).map (proposal remaining target))
      maximum (by
        intro x hx
        obtain ⟨entry, hentry, rfl⟩ := List.mem_map.mp hx
        have hover := of_decide_eq_true (List.mem_filter.mp hentry).2
        unfold IsCapped at hover
        linarith)
    rwa [List.length_map, nsmul_eq_mul] at hle
  linarith

theorem filled_capped (hmax : 0 ≤ maximum) (htarget : 0 ≤ target) {rest : List (Assigned κ K)}
    (hrest : Filled maximum
      (remaining.filter (fun entry => ¬ IsCapped maximum remaining target entry))
      (target - (remaining.filter
        (fun entry => IsCapped maximum remaining target entry)).length * maximum) rest) :
    Filled maximum remaining target
      ((remaining.filter (fun entry => IsCapped maximum remaining target entry)).map
        (fun entry => (entry, maximum)) ++ rest) := by
  have htolerance : 0 < (tolerance : K) := tolerance_pos
  have hcappedMem : ∀ x ∈ (remaining.filter
      (fun entry => IsCapped maximum remaining target entry)).map
        (fun entry => (entry, maximum)), IsCapped maximum remaining target x.1 ∧ x.2 = maximum := by
    intro x hx
    obtain ⟨entry, hentry, rfl⟩ := List.mem_map.mp hx
    exact ⟨of_decide_eq_true (List.mem_filter.mp hentry).2, rfl⟩
  have hrestMem : ∀ x ∈ rest, ¬ IsCapped maximum remaining target x.1 := by
    intro x hx
    have hin := hrest.names.mem_iff.mp (List.mem_map_of_mem hx)
    exact of_decide_eq_true (List.mem_filter.mp hin).2
  refine ⟨?_, ?_, ?_, ?_⟩
  · rw [List.map_append, List.map_map]
    have hself : (remaining.filter (fun entry => IsCapped maximum remaining target entry)).map
        (Prod.fst ∘ fun entry => (entry, maximum)) =
        remaining.filter (fun entry => IsCapped maximum remaining target entry) := by
      simp [Function.comp_def]
    rw [hself]
    refine (hrest.names.append_left _).trans ?_
    simp only [decide_not]
    exact List.filter_append_perm _ remaining
  · have hsum : ((remaining.filter (fun entry => IsCapped maximum remaining target entry)).map
        (Prod.snd ∘ fun entry => (entry, maximum))).sum =
        (remaining.filter (fun entry => IsCapped maximum remaining target entry)).length *
          maximum := by
      simp [Function.comp_def]
    rw [List.map_append, List.sum_append, List.map_map, hsum]
    have htotal := hrest.total
    rwa [show ∀ a b c : K, a + b - c = b - (c - a) from fun a b c => by ring]
  · intro x hx
    rcases List.mem_append.mp hx with hcapped | hother
    · rw [(hcappedMem x hcapped).2]
      exact ⟨hmax, by linarith⟩
    · exact hrest.bounds x hother
  · intro x hx y hy hraw
    rcases List.mem_append.mp hx with hxCapped | hxRest
    · have hy' : y.2 ≤ maximum + tolerance := by
        rcases List.mem_append.mp hy with hyCapped | hyRest
        · rw [(hcappedMem y hyCapped).2]
          linarith
        · exact (hrest.bounds y hyRest).2
      rw [(hcappedMem x hxCapped).2]
      exact hy'
    · rcases List.mem_append.mp hy with hyCapped | hyRest
      · -- the better name would be capped as well
        have hover := (hcappedMem y hyCapped).1
        have hmono := @proposal_mono κ K _ _ _ target remaining htarget y.1 x.1 hraw
        exact absurd (lt_of_lt_of_le hover hmono) (hrestMem x hxRest)
      · exact hrest.ordered x hxRest y hyRest hraw

theorem filled_of_fill (hmax : 0 ≤ maximum) : ∀ (rounds : ℕ) {remaining : List (Entry κ K)}
    {target : K} {assigned : List (Assigned κ K)}, 0 ≤ target →
    target ≤ remaining.length * maximum + tolerance →
    fill maximum rounds remaining target = some assigned →
      Filled maximum remaining target assigned := by
  intro rounds
  induction rounds with
  | zero =>
    intro remaining target assigned htarget hroom h
    unfold fill at h
    split_ifs at h with hend
    rw [← Option.some.inj h]
    apply filled_zero hmax htarget
    rcases hend with hnil | hsmall
    · rw [List.isEmpty_iff.mp hnil] at hroom
      simpa using hroom
    · exact hsmall
  | succ rounds ih =>
    intro remaining target assigned htarget hroom h
    unfold fill at h
    dsimp only at h
    split_ifs at h with hend hcapped
    · rw [← Option.some.inj h]
      apply filled_zero hmax htarget
      rcases hend with hnil | hsmall
      · rw [List.isEmpty_iff.mp hnil] at hroom
        simpa using hroom
      · exact hsmall
    · have hne : remaining ≠ [] := fun hnil => hend (.inl (List.isEmpty_iff.mpr hnil))
      rw [← Option.some.inj h]
      apply filled_shares htarget hne
      intro entry hentry hover
      have hnone := List.isEmpty_iff.mp hcapped
      rw [List.filter_eq_nil_iff] at hnone
      exact hnone entry hentry (decide_eq_true hover)
    · have hne : remaining ≠ [] := fun hnil => hend (.inl (List.isEmpty_iff.mpr hnil))
      obtain ⟨rest, hrest, rfl⟩ := Option.map_eq_some_iff.mp h
      have hcaps := @capped_le_target κ K _ _ _ maximum target remaining htarget hne
      have hsplit := List.length_eq_length_filter_add
        (fun entry => decide (IsCapped maximum remaining target entry)) (l := remaining)
      have hcount : (remaining.length : K) =
          (remaining.filter (fun entry => IsCapped maximum remaining target entry)).length +
          (remaining.filter (fun entry => ¬ IsCapped maximum remaining target entry)).length := by
        simp only [decide_not]
        exact_mod_cast hsplit
      apply filled_capped hmax htarget
      apply ih (by linarith) _ hrest
      rw [hcount] at hroom
      linarith

end Order

end LocalPlatform.Research.Factors
