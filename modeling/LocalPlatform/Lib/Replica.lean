import LocalPlatform.Lib.Table
import Mathlib.Data.List.Perm.Subperm

/-!
# A table and its replica

A replica is a table whose rows are found under the keys of another table, the source.

* `Within` says that every key of the replica is one of the source.
* Under it the two have the same keys as soon as the replica has as many rows as the source
  (`covered_of_length`), and then any way to count rows by their keys counts both alike
  (`countP_eq_of_covered`).
* `putAll` writes a list of rows, and `mem_keys_putAll` says which keys there are then.
-/

namespace LocalPlatform.Replicas

open Tables

variable {ρ σ κ : Type} {key : ρ → κ} {key' : σ → κ} {source : List ρ} {replica : List σ}

/-- Every key of the replica is a key of the source. -/
def Within (key : ρ → κ) (key' : σ → κ) (source : List ρ) (replica : List σ) : Prop :=
  ∀ row ∈ replica, key' row ∈ source.map key

/-- Every key of the source is a key of the replica. -/
def Covered (key : ρ → κ) (key' : σ → κ) (source : List ρ) (replica : List σ) : Prop :=
  ∀ row ∈ source, key row ∈ replica.map key'

theorem keys_subset_of_within (h : Within key key' source replica) :
    replica.map key' ⊆ source.map key := by
  intro k hk
  obtain ⟨row, hrow, rfl⟩ := List.mem_map.mp hk
  exact h row hrow

theorem covered_of_length (hreplica : Unique key' replica)
    (hwithin : Within key key' source replica)
    (hlength : replica.length = source.length) : Covered key key' source replica := by
  have hsubperm : (replica.map key').Subperm (source.map key) :=
    hreplica.subperm (keys_subset_of_within hwithin)
  have hperm : (replica.map key').Perm (source.map key) := by
    apply hsubperm.perm_of_length_le
    simp [hlength]
  intro row hrow
  exact hperm.mem_iff.mpr (List.mem_map_of_mem hrow)

theorem keys_perm_of_covered (hsource : Unique key source) (hreplica : Unique key' replica)
    (hwithin : Within key key' source replica) (hcovered : Covered key key' source replica) :
    (replica.map key').Perm (source.map key) := by
  apply (List.perm_ext_iff_of_nodup hreplica hsource).mpr
  intro k
  constructor
  · exact fun hk => keys_subset_of_within hwithin hk
  · intro hk
    obtain ⟨row, hrow, rfl⟩ := List.mem_map.mp hk
    exact hcovered row hrow

theorem countP_eq_of_covered (hsource : Unique key source) (hreplica : Unique key' replica)
    (hwithin : Within key key' source replica) (hcovered : Covered key key' source replica)
    (p : κ → Bool) :
    replica.countP (fun row => p (key' row)) = source.countP (fun row => p (key row)) := by
  have hperm := keys_perm_of_covered hsource hreplica hwithin hcovered
  have hcount := hperm.countP_eq p
  rw [List.countP_map, List.countP_map] at hcount
  exact hcount

section Writes

variable [DecidableEq κ]

/-- The rows are written one after another, each in the place of the one with its key. -/
def putAll (key' : σ → κ) (replica rows : List σ) : List σ :=
  rows.foldl (upsert key' (fun _ excluded => excluded)) replica

theorem mem_keys_iff {k : κ} : k ∈ replica.map key' ↔ (find key' replica k).isSome := by
  constructor
  · intro hk
    obtain ⟨row, hrow, rfl⟩ := List.mem_map.mp hk
    unfold find
    rw [List.find?_isSome]
    exact ⟨row, hrow, by simp⟩
  · intro hsome
    obtain ⟨row, hrow⟩ := Option.isSome_iff_exists.mp hsome
    rw [← find_key hrow]
    exact List.mem_map_of_mem (mem_of_find hrow)

theorem mem_keys_put {row : σ} {k : κ} :
    k ∈ (upsert key' (fun _ excluded => excluded) replica row).map key' ↔
      k = key' row ∨ k ∈ replica.map key' := by
  rw [mem_keys_iff, mem_keys_iff, find_upsert_replace]
  by_cases hk : k = key' row
  · simp [hk]
  · simp [hk]

theorem mem_keys_putAll (rows : List σ) : ∀ (replica : List σ) (k : κ),
    k ∈ (putAll key' replica rows).map key' ↔ k ∈ rows.map key' ∨ k ∈ replica.map key' := by
  unfold putAll
  induction rows with
  | nil =>
    intro replica k
    simp
  | cons row rows ih =>
    intro replica k
    rw [List.foldl_cons, ih, mem_keys_put, List.map_cons, List.mem_cons]
    tauto

theorem unique_putAll (rows : List σ) : ∀ {replica : List σ}, Unique key' replica →
    Unique key' (putAll key' replica rows) := by
  unfold putAll
  induction rows with
  | nil => exact fun h => h
  | cons row rows ih =>
    intro replica h
    exact ih (h.upsert _ row)

theorem mem_putAll {row : σ} : ∀ {rows replica : List σ},
    row ∈ putAll key' replica rows → row ∈ rows ∨ row ∈ replica := by
  intro rows
  unfold putAll
  induction rows with
  | nil => exact fun h => Or.inr h
  | cons first rows ih =>
    intro replica h
    rcases ih h with hrest | hput
    · exact Or.inl (List.mem_cons_of_mem first hrest)
    · rcases mem_upsert hput with hold | rfl | ⟨_, _, rfl⟩
      · exact Or.inr hold
      · exact Or.inl List.mem_cons_self
      · exact Or.inl List.mem_cons_self

end Writes

end LocalPlatform.Replicas
