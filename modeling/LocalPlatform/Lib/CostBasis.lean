import Mathlib.Algebra.BigOperators.Group.List.Basic
import Mathlib.Algebra.Order.Field.Basic
import Mathlib.Tactic.Linarith
import Mathlib.Tactic.Ring

/-!
# Holdings at weighted average cost

A holding is a quantity, its average cost and the day of its latest buy.  A
move of a positive quantity buys: it blends its cost into the average.  A move
of a negative quantity sells: it leaves the average alone.  A sell that leaves
no more than `dust` closes the holding, and one that takes more than there is
fails.

* `run` folds a list of moves.
* `Clean` moves never leave dust, and on them a run adds up the quantities.
* `released` is the cost that the sells of a run took out, and `run_cost` the
  conservation law: what was bought is what is left plus what was released.
* `runKeyed` folds a stream in which every move names its holding.  A holding
  of the result is the run of its own moves.
-/

namespace LocalPlatform.CostBasis

variable {K D S E ε V : Type}

/-- One change of a holding.  Only a buy carries a cost. -/
structure Move (K D : Type) where
  quantity : K
  cost : K
  day : Option D

/-- What is held, at which average cost, and the day of the latest buy. -/
structure Holding (K D : Type) where
  quantity : K
  average : K
  lastBuy : Option D
  deriving DecidableEq

variable [Field K] [LinearOrder K]

def Holding.empty : Holding K D := { quantity := 0, average := 0, lastBuy := none }

def Holding.buy (h : Holding K D) (m : Move K D) : Holding K D where
  quantity := h.quantity + m.quantity
  average := (h.quantity * h.average + m.cost) / (h.quantity + m.quantity)
  lastBuy := m.day.or h.lastBuy

/-- What is left after a sell, when it does not take too much. -/
def Holding.sell (dust : K) (h : Holding K D) (m : Move K D) : Holding K D :=
  if |h.quantity + m.quantity| ≤ dust then .empty
  else { h with quantity := h.quantity + m.quantity }

/-- One move, or `none` when it takes more than there is. -/
def step (dust : K) (h : Holding K D) (m : Move K D) : Option (Holding K D) :=
  if 0 < m.quantity then some (h.buy m)
  else if m.quantity < 0 then
    if h.quantity + m.quantity < -dust then none else some (h.sell dust m)
  else some h

def run (dust : K) (h : Holding K D) (ms : List (Move K D)) : Option (Holding K D) :=
  ms.foldlM (step dust) h

/-- The sum of the quantities of a list of moves. -/
def net (ms : List (Move K D)) : K := (ms.map Move.quantity).sum

def bought (ms : List (Move K D)) : K :=
  ((ms.filter (fun m => 0 < m.quantity)).map Move.cost).sum

variable {dust : K} {h h' : Holding K D} {m : Move K D} {ms : List (Move K D)}

omit [LinearOrder K] in
@[simp] theorem net_nil : net ([] : List (Move K D)) = 0 := rfl

omit [LinearOrder K] in
@[simp] theorem net_cons : net (m :: ms) = m.quantity + net ms := by
  simp [net]

@[simp] theorem run_nil : run dust h [] = some h := rfl

theorem run_cons : run dust h (m :: ms) = (step dust h m).bind (fun h' => run dust h' ms) := by
  simp [run]

theorem run_append (ms' : List (Move K D)) :
    run dust h (ms ++ ms') = (run dust h ms).bind (fun h' => run dust h' ms') := by
  simp [run]

/-! ## One move -/

theorem step_buy (hm : 0 < m.quantity) : step dust h m = some (h.buy m) := by
  rw [step, if_pos hm]

theorem step_sell (hm : m.quantity < 0) (hleft : -dust ≤ h.quantity + m.quantity) :
    step dust h m = some (h.sell dust m) := by
  rw [step, if_neg (not_lt.mpr hm.le), if_pos hm, if_neg (not_lt.mpr hleft)]

theorem step_cases (hstep : step dust h m = some h') :
    (0 < m.quantity ∧ h' = h.buy m) ∨
      (m.quantity < 0 ∧ -dust ≤ h.quantity + m.quantity ∧ h' = h.sell dust m) ∨
      (m.quantity = 0 ∧ h' = h) := by
  unfold step at hstep
  split_ifs at hstep with hbuy hsell hover
  · exact Or.inl ⟨hbuy, (Option.some.inj hstep).symm⟩
  · exact Or.inr (Or.inl ⟨hsell, not_lt.mp hover, (Option.some.inj hstep).symm⟩)
  · exact Or.inr (Or.inr ⟨le_antisymm (not_lt.mp hbuy) (not_lt.mp hsell),
      (Option.some.inj hstep).symm⟩)

variable [IsStrictOrderedRing K]

theorem sell_quantity_nonneg (hleft : -dust ≤ h.quantity + m.quantity) :
    0 ≤ (h.sell dust m).quantity := by
  unfold Holding.sell
  split_ifs with hdust
  · exact le_rfl
  · show 0 ≤ h.quantity + m.quantity
    rw [abs_le, not_and_or] at hdust
    rcases hdust with hlow | hhigh
    · exact absurd hleft hlow
    · by_contra hneg
      apply hhigh
      linarith [not_le.mp hneg]

theorem step_nonneg (hh : 0 ≤ h.quantity) (hstep : step dust h m = some h') : 0 ≤ h'.quantity := by
  rcases step_cases hstep with ⟨hbuy, rfl⟩ | ⟨_, hleft, rfl⟩ | ⟨_, rfl⟩
  · show 0 ≤ h.quantity + m.quantity
    linarith
  · exact sell_quantity_nonneg hleft
  · exact hh

theorem run_nonneg (ms : List (Move K D)) : ∀ {h h' : Holding K D}, 0 ≤ h.quantity →
    run dust h ms = some h' → 0 ≤ h'.quantity := by
  induction ms with
  | nil =>
    intro h h' hh hrun
    rw [← Option.some.inj hrun]
    exact hh
  | cons m ms ih =>
    intro h h' hh hrun
    rw [run_cons] at hrun
    obtain ⟨h₁, hstep, hrest⟩ := Option.bind_eq_some_iff.mp hrun
    exact ih (step_nonneg hh hstep) hrest

/-! ## Clean moves -/

/-- From the quantity `q`, no sell takes more than there is, and none leaves
dust: what a sell leaves is nothing or more than `dust`. -/
def Clean (dust q : K) : List K → Prop
  | [] => True
  | x :: xs => (x < 0 → q + x = 0 ∨ dust < q + x) ∧ Clean dust (q + x) xs

theorem run_clean (hdust : 0 ≤ dust) (ms : List (Move K D)) :
    ∀ h : Holding K D, Clean dust h.quantity (ms.map Move.quantity) →
      ∃ h', run dust h ms = some h' ∧ h'.quantity = h.quantity + net ms := by
  induction ms with
  | nil =>
    intro h _
    exact ⟨h, rfl, by simp⟩
  | cons m ms ih =>
    intro h hclean
    obtain ⟨hm, hrest⟩ := hclean
    have hstep : ∃ h₁, step dust h m = some h₁ ∧ h₁.quantity = h.quantity + m.quantity := by
      rcases lt_trichotomy m.quantity 0 with hneg | hzero | hpos
      · rcases hm hneg with hexit | hleft
        · refine ⟨_, step_sell hneg (by rw [hexit]; linarith), ?_⟩
          rw [Holding.sell, hexit, abs_zero, if_pos hdust]
          rfl
        · refine ⟨_, step_sell hneg (by linarith), ?_⟩
          rw [Holding.sell, abs_of_pos (by linarith), if_neg (not_le.mpr hleft)]
      · exact ⟨h, by simp [step, hzero], by simp [hzero]⟩
      · exact ⟨_, step_buy hpos, rfl⟩
    obtain ⟨h₁, hstep, hquantity⟩ := hstep
    rw [← hquantity] at hrest
    obtain ⟨h', hrun, hsum⟩ := ih h₁ hrest
    refine ⟨h', ?_, ?_⟩
    · rw [run_cons, hstep]
      exact hrun
    · rw [hsum, hquantity, net_cons]
      ring

omit [IsStrictOrderedRing K] in
theorem clean_of_take (xs : List K) : ∀ q : K,
    (∀ n (hn : n < xs.length), xs[n] < 0 →
      q + (xs.take (n + 1)).sum = 0 ∨ dust < q + (xs.take (n + 1)).sum) → Clean dust q xs := by
  induction xs with
  | nil =>
    intro q _
    trivial
  | cons x xs ih =>
    intro q h
    refine ⟨?_, ih (q + x) ?_⟩
    · intro hneg
      simpa using h 0 (by simp) hneg
    · intro n hn hneg
      have hnext := h (n + 1) (by simpa using hn) (by simpa using hneg)
      rw [List.take_succ_cons, List.sum_cons, ← add_assoc] at hnext
      exact hnext

omit [IsStrictOrderedRing K] in
theorem clean_append {xs ys : List K} : ∀ q : K, Clean dust q xs →
    Clean dust (q + xs.sum) ys → Clean dust q (xs ++ ys) := by
  induction xs with
  | nil =>
    intro q _ hys
    simpa using hys
  | cons x xs ih =>
    intro q hxs hys
    refine ⟨hxs.1, ih (q + x) hxs.2 ?_⟩
    rw [List.sum_cons, ← add_assoc] at hys
    exact hys

omit [IsStrictOrderedRing K] in
theorem clean_of_no_sell (xs : List K) : ∀ q : K, (∀ x ∈ xs, 0 ≤ x) → Clean dust q xs := by
  induction xs with
  | nil =>
    intro q _
    trivial
  | cons x xs ih =>
    intro q hxs
    obtain ⟨hx, hrest⟩ := List.forall_mem_cons.mp hxs
    exact ⟨fun hneg => absurd hx (not_le.mpr hneg), ih _ hrest⟩

/-! ## Cost -/

/-- The cost that the sells of a run take out, at the average of their time. -/
def released (dust : K) (h : Holding K D) : List (Move K D) → K
  | [] => 0
  | m :: ms =>
    match step dust h m with
    | none => 0
    | some h' =>
      (if m.quantity < 0 then h.average * (h.quantity - h'.quantity) else 0) + released dust h' ms

/-- Nothing is owed, and what is held has a positive average. -/
structure Priced (h : Holding K D) : Prop where
  nonneg : 0 ≤ h.quantity
  average : 0 < h.quantity → 0 < h.average
  averageNonneg : 0 ≤ h.average

omit [IsStrictOrderedRing K] in
theorem priced_empty : Priced (Holding.empty : Holding K D) :=
  ⟨le_rfl, fun h => absurd h (lt_irrefl 0), le_rfl⟩

theorem buy_cost (hh : 0 ≤ h.quantity) (hm : 0 < m.quantity) :
    (h.buy m).average * (h.buy m).quantity = h.average * h.quantity + m.cost := by
  have hq : h.quantity + m.quantity ≠ 0 := by linarith
  show (h.quantity * h.average + m.cost) / (h.quantity + m.quantity) *
    (h.quantity + m.quantity) = _
  rw [div_mul_cancel₀ _ hq, mul_comm h.quantity]

omit [IsStrictOrderedRing K] in
theorem sell_cost (dust : K) (h : Holding K D) (m : Move K D) :
    (h.sell dust m).average * (h.sell dust m).quantity +
      h.average * (h.quantity - (h.sell dust m).quantity) = h.average * h.quantity := by
  unfold Holding.sell
  split_ifs
  · simp [Holding.empty]
  · ring

theorem Priced.step (hh : Priced h) (hcost : 0 < m.quantity → 0 < m.cost)
    (hstep : step dust h m = some h') : Priced h' := by
  have hnonneg := step_nonneg hh.nonneg hstep
  rcases step_cases hstep with ⟨hbuy, rfl⟩ | ⟨hsell, _, rfl⟩ | ⟨_, rfl⟩
  · have hvalue : 0 ≤ h.quantity * h.average := mul_nonneg hh.nonneg hh.averageNonneg
    have haverage : 0 < (h.buy m).average :=
      div_pos (by linarith [hcost hbuy]) (by linarith [hh.nonneg])
    exact ⟨hnonneg, fun _ => haverage, haverage.le⟩
  · refine ⟨hnonneg, ?_, ?_⟩ <;> unfold Holding.sell <;> split_ifs with hdust
    · exact fun hpos => absurd hpos (lt_irrefl 0)
    · intro hpos
      have hleft : 0 < h.quantity + m.quantity := hpos
      exact hh.average (by linarith)
    · exact le_rfl
    · exact hh.averageNonneg
  · exact hh

theorem sell_taken (dust : K) (hh : 0 ≤ h.quantity) (hm : m.quantity < 0) :
    0 ≤ h.quantity - (h.sell dust m).quantity ∧
      (0 < h.quantity → 0 < h.quantity - (h.sell dust m).quantity) := by
  unfold Holding.sell
  split_ifs with hdust
  · simpa [Holding.empty] using hh
  · show 0 ≤ h.quantity - (h.quantity + m.quantity) ∧
      (0 < h.quantity → 0 < h.quantity - (h.quantity + m.quantity))
    constructor
    · linarith
    · intro
      linarith

omit [IsStrictOrderedRing K] in
theorem bought_cons : bought (m :: ms) = (if 0 < m.quantity then m.cost else 0) + bought ms := by
  unfold bought
  split_ifs with hm
  · rw [List.filter_cons_of_pos (by simpa using hm), List.map_cons, List.sum_cons]
  · rw [List.filter_cons_of_neg (by simpa using hm), zero_add]

omit [IsStrictOrderedRing K] in
theorem bought_eq_sum (ms : List (Move K D)) :
    bought ms = (ms.map (fun m => if 0 < m.quantity then m.cost else 0)).sum := by
  induction ms with
  | nil => rfl
  | cons m ms ih => rw [bought_cons, ih, List.map_cons, List.sum_cons]

theorem run_cost (ms : List (Move K D)) : ∀ {h h' : Holding K D}, 0 ≤ h.quantity →
    run dust h ms = some h' →
      h.average * h.quantity + bought ms = h'.average * h'.quantity + released dust h ms := by
  induction ms with
  | nil =>
    intro h h' _ hrun
    rw [← Option.some.inj hrun]
    simp [bought, released]
  | cons m ms ih =>
    intro h h' hh hrun
    rw [run_cons] at hrun
    obtain ⟨h₁, hstep, hrest⟩ := Option.bind_eq_some_iff.mp hrun
    have hrec := ih (step_nonneg hh hstep) hrest
    simp only [released, hstep, bought_cons]
    rcases step_cases hstep with ⟨hbuy, rfl⟩ | ⟨hsell, _, rfl⟩ | ⟨hzero, rfl⟩
    · rw [if_pos hbuy, if_neg (not_lt.mpr hbuy.le)]
      linarith [buy_cost hh hbuy]
    · rw [if_neg (not_lt.mpr hsell.le), if_pos hsell]
      linarith [sell_cost dust h m]
    · rw [if_neg (by rw [hzero]; exact lt_irrefl 0), if_neg (by rw [hzero]; exact lt_irrefl 0)]
      linarith

theorem step_released (hh : Priced h) (hstep : step dust h m = some h') (hm : m.quantity < 0) :
    0 ≤ h.average * (h.quantity - h'.quantity) ∧
      (0 < h.quantity → 0 < h.average * (h.quantity - h'.quantity)) := by
  rcases step_cases hstep with ⟨hbuy, -⟩ | ⟨-, -, rfl⟩ | ⟨hzero, -⟩
  · exact absurd hbuy (not_lt.mpr hm.le)
  · obtain ⟨htaken, hpos⟩ := sell_taken dust hh.nonneg hm
    exact ⟨mul_nonneg hh.averageNonneg htaken, fun hq => mul_pos (hh.average hq) (hpos hq)⟩
  · exact absurd hzero hm.ne

theorem released_nonneg (ms : List (Move K D)) : ∀ {h h' : Holding K D}, Priced h →
    (∀ m ∈ ms, 0 < m.quantity → 0 < m.cost) → run dust h ms = some h' →
      0 ≤ released dust h ms := by
  induction ms with
  | nil =>
    intro h h' _ _ _
    exact le_rfl
  | cons m ms ih =>
    intro h h' hh hms hrun
    obtain ⟨hm, hrest⟩ := List.forall_mem_cons.mp hms
    rw [run_cons] at hrun
    obtain ⟨h₁, hstep, hrun⟩ := Option.bind_eq_some_iff.mp hrun
    have hrec := ih (hh.step hm hstep) hrest hrun
    simp only [released, hstep]
    split_ifs with hsell
    · linarith [(step_released hh hstep hsell).1]
    · linarith

theorem released_pos (ms : List (Move K D)) :
    ∀ {h h' : Holding K D}, Priced h → (∀ m ∈ ms, 0 < m.quantity → 0 < m.cost) →
      (∀ n, 0 ≤ h.quantity + net (ms.take n)) → (∃ m ∈ ms, m.quantity < 0) →
      run dust h ms = some h' → 0 < released dust h ms := by
  induction ms with
  | nil =>
    intro h h' _ _ _ hsell _
    obtain ⟨m, hm, -⟩ := hsell
    cases hm
  | cons m ms ih =>
    intro h h' hh hms hheld hsell hrun
    obtain ⟨hm, hrest⟩ := List.forall_mem_cons.mp hms
    rw [run_cons] at hrun
    obtain ⟨h₁, hstep, hrun⟩ := Option.bind_eq_some_iff.mp hrun
    have hpriced := hh.step hm hstep
    simp only [released, hstep]
    split_ifs with hneg
    · -- The first sell finds everything that was bought before it.
      have hheld1 := hheld 1
      rw [List.take_succ_cons, List.take_zero, net_cons, net_nil] at hheld1
      linarith [(step_released hh hstep hneg).2 (by linarith),
        released_nonneg ms hpriced hrest hrun]
    · have hquantity : h₁.quantity = h.quantity + m.quantity := by
        rcases step_cases hstep with ⟨-, rfl⟩ | ⟨hneg', -, -⟩ | ⟨hzero, rfl⟩
        · rfl
        · exact absurd hneg' hneg
        · rw [hzero, add_zero]
      rw [zero_add]
      refine ih hpriced hrest ?_ ?_ hrun
      · intro n
        have hheldn := hheld (n + 1)
        rw [List.take_succ_cons, net_cons] at hheldn
        rw [hquantity]
        linarith
      · obtain ⟨m', hm', hneg'⟩ := hsell
        rcases List.mem_cons.mp hm' with rfl | hm'
        · exact absurd hneg' hneg
        · exact ⟨m', hm', hneg'⟩

omit [IsStrictOrderedRing K] in
theorem released_of_no_sell (ms : List (Move K D)) : ∀ {h : Holding K D},
    (∀ m ∈ ms, 0 ≤ m.quantity) → released dust h ms = 0 := by
  induction ms with
  | nil =>
    intro h _
    rfl
  | cons m ms ih =>
    intro h hms
    obtain ⟨hm, hrest⟩ := List.forall_mem_cons.mp hms
    unfold released
    cases step dust h m with
    | none => rfl
    | some h₁ => simp [not_lt.mpr hm, ih hrest]

/-! ## Streams of moves of many holdings -/

section Keyed

variable [DecidableEq S]

def stepKeyed (f : V → E → Except ε V) (key : E → S) (items : S → V) (e : E) : Except ε (S → V) :=
  (f (items (key e)) e).map (fun v => Function.update items (key e) v)

def runKeyed (f : V → E → Except ε V) (key : E → S) (items : S → V) (es : List E) :
    Except ε (S → V) :=
  es.foldlM (stepKeyed f key) items

variable {f : V → E → Except ε V} {key : E → S}

theorem runKeyed_ok (es : List E) : ∀ {items items' : S → V},
    runKeyed f key items es = .ok items' → ∀ k : S,
      (es.filter (fun e => key e = k)).foldlM f (items k) = .ok (items' k) := by
  induction es with
  | nil =>
    intro items items' h k
    have hsame : items = items' := Except.ok.inj h
    rw [hsame]
    rfl
  | cons e es ih =>
    intro items items' h k
    cases hstep : f (items (key e)) e with
    | error err =>
      rw [runKeyed, List.foldlM_cons, stepKeyed, hstep] at h
      cases h
    | ok v =>
      rw [runKeyed, List.foldlM_cons, stepKeyed, hstep] at h
      have hrest := ih h k
      simp only at hrest
      by_cases hk : key e = k
      · subst hk
        rw [List.filter_cons_of_pos (by simp), List.foldlM_cons, hstep]
        rw [Function.update_self] at hrest
        exact hrest
      · rw [List.filter_cons_of_neg (by simpa using hk)]
        rw [Function.update_of_ne (Ne.symm hk)] at hrest
        exact hrest

theorem runKeyed_total (es : List E) : ∀ {items : S → V},
    (∀ k : S, ∃ v, (es.filter (fun e => key e = k)).foldlM f (items k) = .ok v) →
      ∃ items', runKeyed f key items es = .ok items' := by
  induction es with
  | nil =>
    intro items _
    exact ⟨items, rfl⟩
  | cons e es ih =>
    intro items h
    obtain ⟨v, hv⟩ := h (key e)
    rw [List.filter_cons_of_pos (by simp), List.foldlM_cons] at hv
    cases hstep : f (items (key e)) e with
    | error err =>
      rw [hstep] at hv
      cases hv
    | ok w =>
      rw [hstep] at hv
      have hrest : ∀ k : S, ∃ v, (es.filter (fun e => key e = k)).foldlM f
          (Function.update items (key e) w k) = .ok v := by
        intro k
        by_cases hk : key e = k
        · subst hk
          rw [Function.update_self]
          exact ⟨v, hv⟩
        · obtain ⟨u, hu⟩ := h k
          rw [List.filter_cons_of_neg (by simpa using hk)] at hu
          rw [Function.update_of_ne (Ne.symm hk)]
          exact ⟨u, hu⟩
      obtain ⟨items', hitems⟩ := ih hrest
      refine ⟨items', ?_⟩
      rw [runKeyed, List.foldlM_cons, stepKeyed, hstep]
      exact hitems

omit [LinearOrder K] [IsStrictOrderedRing K] in
theorem foldl_addAt (key : E → S) (amount : E → K) (es : List E) :
    ∀ (sums : S → K) (k : S),
      es.foldl (fun sums e => Function.update sums (key e) (sums (key e) + amount e)) sums k =
        sums k + ((es.filter (fun e => key e = k)).map amount).sum := by
  induction es with
  | nil =>
    intro sums k
    simp
  | cons e es ih =>
    intro sums k
    rw [List.foldl_cons, ih]
    by_cases hk : key e = k
    · subst hk
      rw [Function.update_self, List.filter_cons_of_pos (by simp), List.map_cons, List.sum_cons,
        add_assoc]
    · rw [Function.update_of_ne (Ne.symm hk), List.filter_cons_of_neg (by simpa using hk)]

end Keyed

end LocalPlatform.CostBasis
