import Mathlib.Data.List.Nodup
import Mathlib.Data.List.Perm.Subperm

/-!
# Acyclic graphs

* `Acyclic` says that no node is reached from itself.  `acyclic_of_rank` shows it with a rank,
  `Acyclic.mono` takes edges away, and `Acyclic.extend` adds nodes that are acyclic among
  themselves.
* `visit` is the depth-first search that raises when it meets a node of its own path, and
  `checkAcyclic` runs it from every node.
* `acyclic_of_check`: a graph that the search accepts is acyclic among its own nodes.
-/

namespace LocalPlatform.Dags

variable {α : Type}

/-! ## Acyclic relations -/

def Acyclic (edge : α → α → Prop) : Prop := ∀ node, ¬ Relation.TransGen edge node node

theorem acyclic_of_rank {edge : α → α → Prop} (rank : α → ℕ)
    (h : ∀ a b, edge a b → rank a < rank b) : Acyclic edge := by
  have hpath : ∀ a b, Relation.TransGen edge a b → rank a < rank b := by
    intro a b path
    induction path with
    | single hedge => exact h _ _ hedge
    | tail _ hedge ih => exact Nat.lt_trans ih (h _ _ hedge)
  intro node hcycle
  exact absurd (hpath node node hcycle) (Nat.lt_irrefl _)

theorem Acyclic.mono {edge next : α → α → Prop} (h : Acyclic edge)
    (hsub : ∀ a b, next a b → edge a b) : Acyclic next :=
  fun node hcycle => h node (Relation.TransGen.mono (fun a b hab => hsub a b hab) node node hcycle)

theorem Acyclic.extend {edge next : α → α → Prop} (old : α → Prop) (h : Acyclic edge)
    (hold : ∀ a b, next a b → old b → edge a b ∧ old a)
    (hnew : Acyclic (fun a b => next a b ∧ ¬ old a ∧ ¬ old b)) : Acyclic next := by
  -- a path to an old node is an old path, so a path from a new node stays with the new ones
  have hpath : ∀ a b, Relation.TransGen next a b →
      (old b → Relation.TransGen edge a b ∧ old a) ∧
        (¬ old a → Relation.TransGen (fun a b => next a b ∧ ¬ old a ∧ ¬ old b) a b) := by
    intro a b path
    induction path with
    | @single b hedge =>
      refine ⟨fun hb => ?_, fun ha => ?_⟩
      · obtain ⟨hedge', ha⟩ := hold _ _ hedge hb
        exact ⟨.single hedge', ha⟩
      · have hb : ¬ old b := fun hb => ha (hold _ _ hedge hb).2
        exact .single ⟨hedge, ha, hb⟩
    | @tail b c path hedge ih =>
      refine ⟨fun hc => ?_, fun ha => ?_⟩
      · obtain ⟨hedge', hb⟩ := hold _ _ hedge hc
        obtain ⟨hpath', ha⟩ := ih.1 hb
        exact ⟨hpath'.tail hedge', ha⟩
      · have hb : ¬ old b := fun hb => ha (ih.1 hb).2
        have hc : ¬ old c := fun hc => hb (hold _ _ hedge hc).2
        exact (ih.2 ha).tail ⟨hedge, hb, hc⟩
  intro node hcycle
  by_cases hnode : old node
  · exact h node ((hpath node node hcycle).1 hnode).1
  · exact hnew node ((hpath node node hcycle).2 hnode)

/-! ## The search -/

variable [DecidableEq α]

/-- A cycle, or more calls within each other than there are nodes. -/
inductive SearchError (α : Type) where
  | cycle (node : α)
  | depth
  deriving DecidableEq

abbrev Graph (α : Type) := List (α × List α)

def nodes (graph : Graph α) : List α := graph.map Prod.fst

/-- The parents of a node that are nodes themselves. -/
def parentsIn (graph : Graph α) (node : α) : List α :=
  ((graph.lookup node).getD []).filter (· ∈ nodes graph)

/-- The search from a node: `visiting` is the path to it, the result what has been visited. -/
def visit (graph : Graph α) : ℕ → List α → List α → α → Except (SearchError α) (List α)
  | 0, _, _, _ => .error .depth
  | fuel + 1, visiting, visited, node =>
    if node ∈ visited then .ok visited
    else if node ∈ visiting then .error (.cycle node)
    else
      match (parentsIn graph node).foldlM (visit graph fuel (node :: visiting)) visited with
      | .ok visited => .ok (node :: visited)
      | .error e => .error e

def checkAcyclic (graph : Graph α) : Except (SearchError α) (List α) :=
  (nodes graph).foldlM (visit graph (graph.length + 1) []) []

/-! ## What has been visited -/

/-- The parents of a visited node were visited before it. -/
def Ordered (graph : Graph α) : List α → Prop
  | [] => True
  | node :: visited => (∀ parent ∈ parentsIn graph node, parent ∈ visited) ∧ Ordered graph visited

/-- More has been visited, in order. -/
structure Extends (graph : Graph α) (visited next : List α) : Prop where
  kept : visited ⊆ next
  ordered : Ordered graph visited → Ordered graph next

theorem Extends.refl (graph : Graph α) (visited : List α) : Extends graph visited visited :=
  ⟨List.Subset.refl _, fun h => h⟩

variable {graph : Graph α}

theorem Extends.trans {a b c : List α} (h : Extends graph a b) (h' : Extends graph b c) :
    Extends graph a c :=
  ⟨List.Subset.trans h.kept h'.kept, fun hordered => h'.ordered (h.ordered hordered)⟩

theorem foldlM_extends {f : List α → α → Except (SearchError α) (List α)}
    (hf : ∀ visited node next, f visited node = .ok next →
      Extends graph visited next ∧ node ∈ next) :
    ∀ (items visited next : List α), items.foldlM f visited = .ok next →
      Extends graph visited next ∧ ∀ node ∈ items, node ∈ next := by
  intro items
  induction items with
  | nil =>
    intro visited next h
    obtain rfl := Except.ok.inj h
    exact ⟨Extends.refl graph _, by simp⟩
  | cons item items ih =>
    intro visited next h
    rw [List.foldlM_cons] at h
    cases hitem : f visited item with
    | error e =>
      rw [hitem] at h
      cases h
    | ok middle =>
      rw [hitem] at h
      have hfirst := hf visited item middle hitem
      have hrest := ih middle next h
      refine ⟨hfirst.1.trans hrest.1, fun node hnode => ?_⟩
      cases List.mem_cons.mp hnode with
      | inl heq => exact heq ▸ hrest.1.kept hfirst.2
      | inr hmem => exact hrest.2 node hmem

theorem visit_extends (fuel : ℕ) : ∀ visiting visited node next,
    visit graph fuel visiting visited node = .ok next →
      Extends graph visited next ∧ node ∈ next := by
  induction fuel with
  | zero =>
    intro visiting visited node next h
    cases h
  | succ fuel ih =>
    intro visiting visited node next h
    unfold visit at h
    split_ifs at h with hvisited hvisiting
    · obtain rfl := Except.ok.inj h
      exact ⟨Extends.refl graph _, hvisited⟩
    · cases hparents :
        (parentsIn graph node).foldlM (visit graph fuel (node :: visiting)) visited with
      | error e =>
        rw [hparents] at h
        cases h
      | ok middle =>
        rw [hparents] at h
        obtain rfl := Except.ok.inj h
        have hmiddle := foldlM_extends (ih (node :: visiting)) _ _ _ hparents
        refine ⟨⟨fun other hother => List.mem_cons_of_mem _ (hmiddle.1.kept hother), ?_⟩,
          List.mem_cons_self⟩
        intro hordered
        exact ⟨hmiddle.2, hmiddle.1.ordered hordered⟩

/-- The place of a node in a list, counted from the end. -/
def rankIn : List α → α → ℕ
  | [], _ => 0
  | first :: visited, node =>
    if node ∈ visited then rankIn visited node else if node = first then visited.length + 1 else 0

theorem rankIn_le (visited : List α) (node : α) : rankIn visited node ≤ visited.length := by
  induction visited with
  | nil => exact Nat.le_refl _
  | cons first visited ih =>
    unfold rankIn
    rw [List.length_cons]
    split_ifs <;> omega

theorem Ordered.rank_lt {visited : List α} (h : Ordered graph visited) {node parent : α}
    (hnode : node ∈ visited) (hparent : parent ∈ parentsIn graph node) :
    rankIn visited parent < rankIn visited node ∧ parent ∈ visited := by
  induction visited with
  | nil => cases hnode
  | cons first visited ih =>
    by_cases hlater : node ∈ visited
    · have hrest := ih h.2 hlater
      unfold rankIn
      rw [if_pos hlater, if_pos hrest.2]
      exact ⟨hrest.1, List.mem_cons_of_mem _ hrest.2⟩
    · have hfirst : node = first := (List.mem_cons.mp hnode).resolve_right hlater
      have hbefore : parent ∈ visited := h.1 parent (hfirst ▸ hparent)
      have hrank := rankIn_le visited parent
      unfold rankIn
      rw [if_neg hlater, if_pos hfirst, if_pos hbefore]
      exact ⟨by omega, List.mem_cons_of_mem _ hbefore⟩

theorem acyclic_of_check {visited : List α} (h : checkAcyclic graph = .ok visited) :
    Acyclic (fun parent node => node ∈ nodes graph ∧ parent ∈ parentsIn graph node) := by
  have hvisited := foldlM_extends (@visit_extends _ _ graph (graph.length + 1) []) _ _ _ h
  have hordered := hvisited.1.ordered trivial
  refine acyclic_of_rank (rankIn visited) (fun parent node hedge => ?_)
  exact (hordered.rank_lt (hvisited.2 node hedge.1) hedge.2).1

end LocalPlatform.Dags
