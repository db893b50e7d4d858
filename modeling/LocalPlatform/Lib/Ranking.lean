import Mathlib.Data.List.Chain
import Mathlib.Data.List.MinMax
import Mathlib.Data.List.Sort
import Mathlib.Data.Prod.Lex

/-!
# Rankings

`rank key l` sorts a list by a key in a linear order and keeps the order of
elements whose keys are equal, as the stable sorts of programming languages do.

* A sort by any comparison that agrees with the key on the list is `rank`
  (`mergeSort_eq_rank`).
* If the keys of a list are distinct, its ranking does not depend on its order
  (`rank_eq_of_perm`).
* The first element of a ranking with a property is the first one in the list
  whose key is least among the elements that have it (`head?_filter_rank`).
* `firstMax` is the maximum of a list that is not replaced by an equal one.
* A comparison need not decide all elements.  Then a sort depends on the order of the list
  (`exists_sorts_differ`), and still sorts by a key that it decides (`mergeSort_pairwise`).
* `lex_lt_left` and `lex_lt_right` compare the pairs that a key is made of.
-/

namespace LocalPlatform.Rankings

variable {α κ : Type} [LinearOrder κ]

theorem lex_lt_left {μ : Type} [LinearOrder μ] {a a' : κ} {b b' : μ} (h : a < a') :
    toLex (a, b) < toLex (a', b') := Prod.Lex.toLex_lt_toLex.mpr (Or.inl h)

theorem lex_lt_right {μ : Type} [LinearOrder μ] {a a' : κ} {b b' : μ} (h : a = a')
    (hb : b < b') : toLex (a, b) < toLex (a', b') :=
  Prod.Lex.toLex_lt_toLex.mpr (Or.inr ⟨h, hb⟩)

def rank (key : α → κ) (l : List α) : List α := l.mergeSort (fun a b => decide (key a ≤ key b))

variable {key : α → κ} {l : List α}

theorem mergeSort_eq_rank {le : α → α → Bool}
    (h : ∀ a ∈ l, ∀ b ∈ l, le a b = decide (key a ≤ key b)) : l.mergeSort le = rank key l := by
  have hmap := List.map_mergeSort (f := id) (s := fun a b => decide (key a ≤ key b)) h
  rw [List.map_id, List.map_id] at hmap
  exact hmap

theorem mergeSort_pair (le : α → α → Bool) (a b : α) :
    [a, b].mergeSort le = if le a b then [a, b] else [b, a] := by
  rw [List.mergeSort]
  simp [List.merge]

theorem rank_perm (key : α → κ) (l : List α) : (rank key l).Perm l := List.mergeSort_perm l _

theorem le_trans_key (key : α → κ) (a b c : α) (hab : decide (key a ≤ key b) = true)
    (hbc : decide (key b ≤ key c) = true) : decide (key a ≤ key c) = true := by
  simp only [decide_eq_true_eq] at hab hbc ⊢
  exact hab.trans hbc

theorem le_total_key (key : α → κ) (a b : α) :
    (decide (key a ≤ key b) || decide (key b ≤ key a)) = true := by
  simp only [Bool.or_eq_true, decide_eq_true_eq]
  exact le_total _ _

theorem rank_pairwise (key : α → κ) (l : List α) :
    (rank key l).Pairwise (fun a b => key a ≤ key b) := by
  have h := List.pairwise_mergeSort (le_trans_key key) (le_total_key key) l
  exact h.imp (fun hab => of_decide_eq_true hab)

theorem rank_eq_of_perm {l' : List α} (hperm : l.Perm l')
    (hkeys : ∀ a ∈ l, ∀ b ∈ l, key a = key b → a = b) : rank key l = rank key l' := by
  have hranks : (rank key l).Perm (rank key l') :=
    (rank_perm key l).trans (hperm.trans (rank_perm key l').symm)
  refine hranks.eq_of_pairwise ?_ (rank_pairwise key l) (rank_pairwise key l')
  intro a b ha hb hab hba
  have hmem : b ∈ l := hperm.symm.subset ((rank_perm key l').subset hb)
  exact hkeys a ((rank_perm key l).subset ha) b hmem (le_antisymm hab hba)

/-! ## The first element with a property -/

/-- The first element of `l` whose key is least among the elements with `p`. -/
def FirstLeast (key : α → κ) (p : α → Bool) (l : List α) (a : α) : Prop :=
  ∃ before after, l = before ++ a :: after ∧ p a = true ∧
    (∀ b ∈ before, p b = true → key a < key b) ∧ ∀ b ∈ after, p b = true → key a ≤ key b

variable {p : α → Bool} {a b : α}

theorem FirstLeast.unique (ha : FirstLeast key p l a) (hb : FirstLeast key p l b) : a = b := by
  obtain ⟨before, after, hl, hpa, hbefore, hafter⟩ := ha
  obtain ⟨before', after', hl', hpb, hbefore', hafter'⟩ := hb
  rw [hl] at hl'
  rcases List.append_eq_append_iff.mp hl' with ⟨middle, hmiddle, hrest⟩ | ⟨middle, hmiddle, hrest⟩
  · cases middle with
    | nil => exact (List.cons.inj hrest).1
    | cons c middle =>
      obtain ⟨rfl, hafterEq⟩ := List.cons.inj hrest
      have hlt : key b < key a := hbefore' a (by simp [hmiddle]) hpa
      have hle : key a ≤ key b := hafter b (by simp [hafterEq]) hpb
      exact absurd hlt (not_lt.mpr hle)
  · cases middle with
    | nil => exact (List.cons.inj hrest).1.symm
    | cons c middle =>
      obtain ⟨rfl, hafterEq⟩ := List.cons.inj hrest
      have hlt : key a < key b := hbefore b (by simp [hmiddle]) hpb
      have hle : key b ≤ key a := hafter' a (by simp [hafterEq]) hpa
      exact absurd hlt (not_lt.mpr hle)

theorem firstLeast_of_head? (hnodup : l.Nodup)
    (h : ((rank key l).filter p).head? = some a) : FirstLeast key p l a := by
  obtain ⟨rest, hrest⟩ := List.head?_eq_some_iff.mp h
  have hmem : a ∈ rank key l ∧ p a = true := by
    apply List.mem_filter.mp
    rw [hrest]
    exact List.mem_cons_self
  have hleast : ∀ b ∈ l, p b = true → key a ≤ key b := by
    intro b hb hpb
    have hfiltered : b ∈ a :: rest := by
      rw [← hrest]
      exact List.mem_filter.mpr ⟨(rank_perm key l).symm.subset hb, hpb⟩
    have hpairwise := (rank_pairwise key l).filter p
    rw [hrest] at hpairwise
    rcases List.mem_cons.mp hfiltered with rfl | hlater
    · exact le_refl _
    · exact List.rel_of_pairwise_cons hpairwise hlater
  obtain ⟨before, after, hl⟩ := List.append_of_mem ((rank_perm key l).subset hmem.1)
  refine ⟨before, after, hl, hmem.2, ?_, ?_⟩
  · intro b hb hpb
    refine lt_of_le_of_ne (hleast b (by simp [hl, hb]) hpb) (fun hsame => ?_)
    have hdistinct : b ≠ a := by
      rintro rfl
      rw [hl] at hnodup
      exact (List.nodup_append.mp hnodup).2.2 b hb b List.mem_cons_self rfl
    -- `b` stands before `a` in the list, so it does in the ranking
    have hpair : [b, a].Sublist (rank key l) := by
      refine List.pair_sublist_mergeSort (le_trans_key key) (le_total_key key)
        (decide_eq_true hsame.ge) ?_
      rw [hl]
      exact (List.singleton_sublist.mpr hb).append
        (List.singleton_sublist.mpr List.mem_cons_self)
    have hfiltered := hpair.filter p
    have hall : [b, a].filter p = [b, a] := by simp [hpb, hmem.2]
    rw [hall, hrest] at hfiltered
    have hnodup' : (a :: rest).Nodup := by
      rw [← hrest]
      exact ((rank_perm key l).nodup_iff.mpr hnodup).filter p
    cases hfiltered with
    | cons _ hlater =>
      exact (List.nodup_cons.mp hnodup').1 (hlater.subset (by simp))
    | cons_cons => exact hdistinct rfl
  · exact fun b hb hpb => hleast b (by simp [hl, hb]) hpb

theorem head?_filter_rank (hnodup : l.Nodup) :
    ((rank key l).filter p).head? = some a ↔ FirstLeast key p l a := by
  refine ⟨firstLeast_of_head? hnodup, fun h => ?_⟩
  have hmem : a ∈ (rank key l).filter p := by
    obtain ⟨before, after, hl, hpa, -⟩ := h
    refine List.mem_filter.mpr ⟨(rank_perm key l).symm.subset ?_, hpa⟩
    simp [hl]
  cases hhead : ((rank key l).filter p).head? with
  | none =>
    rw [List.head?_eq_none_iff.mp hhead] at hmem
    exact absurd hmem List.not_mem_nil
  | some first => rw [(firstLeast_of_head? hnodup hhead).unique h]

/-! ## The first maximum of a list -/

/-- `max` with a key: a later element must be above the best one so far. -/
def firstMax (below : α → α → Bool) : List α → Option α
  | [] => none
  | a :: l => some (l.foldl (fun best b => if below best b then b else best) a)

theorem firstMax_cons {below : α → α → Bool} (h : ∀ b ∈ l, below a b = false) :
    firstMax below (a :: l) = some a := by
  have hbest : l.foldl (fun best b => if below best b then b else best) a = a := by
    induction l with
    | nil => rfl
    | cons b l ih =>
      obtain ⟨hb, hl⟩ := List.forall_mem_cons.mp h
      rw [List.foldl_cons, hb]
      exact ih hl
  exact congrArg some hbest

/-- An element above all others is the maximum, wherever it stands. -/
theorem firstMax_greatest {below : α → α → Bool} {m : α} (hm : m ∈ l) (hself : below m m = false)
    (h : ∀ b ∈ l, b ≠ m → below b m = true ∧ below m b = false) : firstMax below l = some m := by
  have hfold : ∀ (rest : List α) (best : α), (∀ b ∈ best :: rest, b ∈ l) → m ∈ best :: rest →
      rest.foldl (fun best b => if below best b then b else best) best = m := by
    intro rest
    induction rest with
    | nil => exact fun best _ hmem => (List.mem_singleton.mp hmem).symm
    | cons b rest ih =>
      intro best hsub hmem
      rw [List.foldl_cons]
      refine ih _ (fun c hc => ?_) ?_
      · split_ifs at hc
        · exact hsub c (List.mem_cons_of_mem _ hc)
        · rcases List.mem_cons.mp hc with rfl | hc
          · exact hsub c List.mem_cons_self
          · exact hsub c (List.mem_cons_of_mem _ (List.mem_cons_of_mem _ hc))
      · rcases List.mem_cons.mp hmem with rfl | hmem
        · have hstays : below m b = false := by
            by_cases hb : b = m
            · rw [hb, hself]
            · exact (h b (hsub b (by simp)) hb).2
          simp [hstays]
        · rcases List.mem_cons.mp hmem with rfl | hmem
          · by_cases hbest : best = m
            · simp [hbest]
            · simp [(h best (hsub best List.mem_cons_self) hbest).1]
          · exact List.mem_cons_of_mem _ hmem
  cases l with
  | nil => cases hm
  | cons a rest => exact congrArg some (hfold rest a (fun _ h => h) hm)

/-! ## Comparisons that leave elements undecided -/

section Undecided

/-- Two elements that a comparison leaves undecided can stand in either order, and a sort does not
change that. -/
theorem exists_sorts_differ (key : α → κ) (lt : α → α → Bool)
    (htrans : ∀ a b c, lt a b = true → lt b c = true → lt a c = true)
    (hkey : ∀ a b, lt a b = true → key a < key b) (ha : a ∈ l) (hb : b ∈ l) (hne : a ≠ b)
    (hab : ¬ (lt a b = true ∨ lt b a = true)) :
    ∃ l₁ l₂ : List α, l₁.Perm l ∧ l₂.Perm l ∧
      l₁.mergeSort (fun a b => !lt b a) ≠ l₂.mergeSort (fun a b => !lt b a) := by
  have hsorted : (rank key l).Pairwise (fun a b => (!lt b a) = true) := by
    refine (rank_pairwise key l).imp (fun hle => ?_)
    rw [Bool.not_eq_true', ← Bool.not_eq_true]
    exact fun hlt => absurd (hkey _ _ hlt) (not_lt.mpr hle)
  -- some element is neither the next one nor below it
  have hchain : ¬ (rank key l).IsChain (fun a b => a = b ∨ lt a b = true) := by
    intro hchain
    have htransR : IsTrans α (fun a b => a = b ∨ lt a b = true) := ⟨by
        rintro a b c (rfl | h) (rfl | h')
        · exact .inl rfl
        · exact .inr h'
        · exact .inr h
        · exact .inr (htrans a b c h h')⟩
    have hsymm : Std.Symm (fun a b => a = b ∨ lt a b = true ∨ lt b a = true) :=
      ⟨fun a b h => h.imp Eq.symm Or.symm⟩
    have hall := (List.isChain_iff_pairwise.mp hchain).imp
      (S := fun a b => a = b ∨ lt a b = true ∨ lt b a = true) (fun h => h.imp_right .inl)
    have hpair := List.Pairwise.forall hall ((rank_perm key l).symm.subset ha)
      ((rank_perm key l).symm.subset hb) hne
    exact hab (hpair.resolve_left hne)
  rw [List.isChain_iff_forall_rel_of_append_cons_cons] at hchain
  push Not at hchain
  obtain ⟨x, y, before, after, hl, hxy, hnot⟩ := hchain
  have hswapped : (before ++ y :: x :: after).Perm (rank key l) := by
    rw [hl]
    exact List.Perm.append_left _ (List.Perm.swap x y after)
  have hstays : (before ++ y :: x :: after).Pairwise (fun a b => (!lt b a) = true) := by
    rw [hl] at hsorted
    simp only [List.pairwise_append, List.pairwise_cons, List.mem_cons] at hsorted ⊢
    obtain ⟨hbefore, ⟨hx, hy, hafter⟩, hacross⟩ := hsorted
    refine ⟨hbefore, ⟨?_, fun c hc => hx c (.inr hc), hafter⟩, fun c hc d hd => ?_⟩
    · rintro c (rfl | hc)
      · simpa using hnot
      · exact hy c hc
    · exact hacross c hc d (by tauto)
  refine ⟨rank key l, before ++ y :: x :: after, rank_perm key l,
    hswapped.trans (rank_perm key l), ?_⟩
  rw [List.mergeSort_of_pairwise hsorted, List.mergeSort_of_pairwise hstays, hl]
  intro hsame
  exact hxy (List.cons.inj (List.append_cancel_left hsame)).1

theorem merge_pairwise {le : α → α → Bool} : ∀ {l₁ l₂ : List α},
    (∀ a ∈ l₁ ++ l₂, ∀ b ∈ l₁ ++ l₂, key a < key b → le a b = true ∧ le b a = false) →
    l₁.Pairwise (fun a b => key a ≤ key b) → l₂.Pairwise (fun a b => key a ≤ key b) →
    (l₁.merge l₂ le).Pairwise (fun a b => key a ≤ key b)
  | [], l₂, _, _, h₂ => by simpa using h₂
  | x :: xs, [], _, h₁, _ => by simpa using h₁
  | x :: xs, y :: ys, h, h₁, h₂ => by
    have hx : ∀ b ∈ xs, key x ≤ key b := fun _ hb => List.rel_of_pairwise_cons h₁ hb
    have hy : ∀ b ∈ ys, key y ≤ key b := fun _ hb => List.rel_of_pairwise_cons h₂ hb
    rw [List.cons_merge_cons]
    split_ifs with hle
    · have hxy : key x ≤ key y := by
        by_contra hlt
        have hdecided := (h y (by simp) x (by simp) (not_le.mp hlt)).2
        rw [hle] at hdecided
        cases hdecided
      refine List.pairwise_cons.mpr ⟨fun b hb => ?_, merge_pairwise
        (fun a ha b hb => h a (List.mem_cons_of_mem _ ha) b (List.mem_cons_of_mem _ hb))
        (List.pairwise_cons.mp h₁).2 h₂⟩
      have hmem := (List.merge_perm_append le).subset hb
      simp only [List.mem_append, List.mem_cons] at hmem
      rcases hmem with hb | hb | hb
      · exact hx b hb
      · exact hb ▸ hxy
      · exact hxy.trans (hy b hb)
    · have hyx : key y ≤ key x := by
        by_contra hlt
        exact hle (h x (by simp) y (by simp) (not_le.mp hlt)).1
      have hsub : ∀ a ∈ x :: xs ++ ys, a ∈ x :: xs ++ y :: ys :=
        fun a ha => by simp only [List.mem_append, List.mem_cons] at ha ⊢; tauto
      refine List.pairwise_cons.mpr ⟨fun b hb => ?_, merge_pairwise
        (fun a ha b hb => h a (hsub a ha) b (hsub b hb)) h₁ (List.pairwise_cons.mp h₂).2⟩
      have hmem := (List.merge_perm_append le).subset hb
      simp only [List.mem_append, List.mem_cons] at hmem
      rcases hmem with (hb | hb) | hb
      · exact hb ▸ hyx
      · exact hyx.trans (hx b hb)
      · exact hy b hb

/-- A sort by a comparison that decides the elements of different keys sorts by the key. -/
theorem mergeSort_pairwise {le : α → α → Bool} (l : List α)
    (h : ∀ a ∈ l, ∀ b ∈ l, key a < key b → le a b = true ∧ le b a = false) :
    (l.mergeSort le).Pairwise (fun a b => key a ≤ key b) := by
  match l with
  | [] => simp
  | [a] => simp
  | a :: b :: rest =>
    rw [List.mergeSort]
    simp only [List.MergeSort.Internal.splitInTwo_fst, List.MergeSort.Internal.splitInTwo_snd]
    have hparts : ∀ n, ∀ c ∈ ((a :: b :: rest).take n).mergeSort le ++
        ((a :: b :: rest).drop n).mergeSort le, c ∈ a :: b :: rest := by
      intro n c hc
      rcases List.mem_append.mp hc with hc | hc
      · exact List.mem_of_mem_take (List.mem_mergeSort.mp hc)
      · exact List.mem_of_mem_drop (List.mem_mergeSort.mp hc)
    exact merge_pairwise (fun c hc d hd => h c (hparts _ c hc) d (hparts _ d hd))
      (mergeSort_pairwise _ (fun c hc d hd =>
        h c (List.mem_of_mem_take hc) d (List.mem_of_mem_take hd)))
      (mergeSort_pairwise _ (fun c hc d hd =>
        h c (List.mem_of_mem_drop hc) d (List.mem_of_mem_drop hd)))
termination_by l.length

end Undecided

end LocalPlatform.Rankings
