import Mathlib.Data.List.Nodup

/-!
# Tables with a key

A table is a list of rows, and `key` names the column that identifies a row.

* `find` reads the row with a key.
* `put` writes a row in the place of the one with its key.
* `upsert` merges a row into the one with its key, or appends it, and `find_foldl_upsert` reads a
  list of upserts key by key.
* An update that keeps the keys is a `List.map`, and `find_map` reads it row by
  row.
* `Unique` says that no two rows share a key.  A table can have several keys,
  and `find_put_other` reads a write through another key than the one it used.
-/

namespace LocalPlatform.Tables

variable {ρ κ : Type} [DecidableEq κ]

def find (key : ρ → κ) (rows : List ρ) (k : κ) : Option ρ :=
  rows.find? (fun row => key row == k)

/-- Write a row in the place of the one with its key. -/
def put (key : ρ → κ) (rows : List ρ) (row : ρ) : List ρ :=
  rows.map (fun old => if key old = key row then row else old)

variable {key : ρ → κ} {rows : List ρ} {row : ρ}

theorem find_key {k : κ} (h : find key rows k = some row) : key row = k := by
  simpa using List.find?_some h

theorem mem_of_find {k : κ} (h : find key rows k = some row) : row ∈ rows :=
  List.mem_of_find?_eq_some h

theorem find_map {f : ρ → ρ} (rows : List ρ) (hf : ∀ row ∈ rows, key (f row) = key row) (k : κ) :
    find key (rows.map f) k = (find key rows k).map f := by
  unfold find
  rw [List.find?_map]
  have hkeys : rows.find? ((fun row => key row == k) ∘ f) =
      rows.find? (fun row => key row == k) := by
    induction rows with
    | nil => rfl
    | cons row rows ih =>
      have hrest := ih (fun row hrow => hf row (List.mem_cons_of_mem _ hrow))
      rw [List.find?_cons, List.find?_cons, hrest]
      show (match key (f row) == k with | true => _ | false => _) = _
      rw [hf row List.mem_cons_self]
      rfl
  rw [hkeys]

theorem find_put (h : (find key rows (key row)).isSome) (k : κ) :
    find key (put key rows row) k = if k = key row then some row else find key rows k := by
  have hkeys : ∀ old ∈ rows, key (if key old = key row then row else old) = key old := by
    intro old _
    split_ifs with hold
    · exact hold.symm
    · rfl
  unfold put
  rw [find_map rows hkeys]
  by_cases hk : k = key row
  · subst hk
    cases hfind : find key rows (key row) with
    | none =>
      rw [hfind] at h
      cases h
    | some old => rw [Option.map_some, if_pos (find_key hfind), if_pos rfl]
  · rw [if_neg hk]
    cases hfind : find key rows k with
    | none => rfl
    | some old =>
      rw [Option.map_some, if_neg]
      rw [find_key hfind]
      exact hk

theorem find_append_singleton (h : find key rows (key row) = none) (k : κ) :
    find key (rows ++ [row]) k = if k = key row then some row else find key rows k := by
  unfold find at h ⊢
  rw [List.find?_append]
  by_cases hk : k = key row
  · subst hk
    rw [h]
    simp
  · simp [hk, Ne.symm hk]

/-- Merge a row into the one with its key, or append it when there is none. -/
def upsert (key : ρ → κ) (merge : ρ → ρ → ρ) (rows : List ρ) (row : ρ) : List ρ :=
  match find key rows (key row) with
  | some old => put key rows (merge old row)
  | none => rows ++ [row]

variable {merge : ρ → ρ → ρ}

theorem mem_upsert_key {other : ρ} (h : other ∈ upsert key merge rows row) :
    other ∈ rows ∨ (other = row ∧ find key rows (key row) = none) ∨
      ∃ old ∈ rows, key old = key row ∧ other = merge old row := by
  unfold upsert at h
  cases hfind : find key rows (key row) with
  | none =>
    rw [hfind] at h
    cases List.mem_append.mp h with
    | inl h => exact .inl h
    | inr h => exact .inr (.inl ⟨List.mem_singleton.mp h, rfl⟩)
  | some old =>
    rw [hfind] at h
    obtain ⟨before, hbefore, heq⟩ := List.mem_map.mp h
    by_cases hkey : key before = key (merge old row)
    · rw [if_pos hkey] at heq
      exact .inr (.inr ⟨old, mem_of_find hfind, find_key hfind, heq.symm⟩)
    · rw [if_neg hkey] at heq
      exact .inl (heq ▸ hbefore)

theorem mem_upsert {other : ρ} (h : other ∈ upsert key merge rows row) :
    other ∈ rows ∨ other = row ∨ ∃ old ∈ rows, other = merge old row := by
  rcases mem_upsert_key h with hold | hnew | ⟨old, hold, -, heq⟩
  · exact .inl hold
  · exact .inr (.inl hnew.1)
  · exact .inr (.inr ⟨old, hold, heq⟩)

theorem mem_upsert_of_ne (hmerge : ∀ old row, key (merge old row) = key old) {other : ρ}
    (h : other ∈ rows) (hne : key other ≠ key row) : other ∈ upsert key merge rows row := by
  unfold upsert
  cases hfind : find key rows (key row) with
  | none => exact List.mem_append_left _ h
  | some old =>
    have hkey : key other ≠ key (merge old row) := by
      rw [hmerge, find_key hfind]
      exact hne
    exact List.mem_map.mpr ⟨other, h, if_neg hkey⟩

/-- What an upsert writes: the row merged into the stored one, or the row. -/
def merged (key : ρ → κ) (merge : ρ → ρ → ρ) (rows : List ρ) (row : ρ) : ρ :=
  match find key rows (key row) with
  | some old => merge old row
  | none => row

theorem find_upsert (hmerge : ∀ old row, key (merge old row) = key old) (row : ρ) (k : κ) :
    find key (upsert key merge rows row) k =
      if k = key row then some (merged key merge rows row) else find key rows k := by
  unfold upsert merged
  cases hfind : find key rows (key row) with
  | none => exact find_append_singleton hfind k
  | some old =>
    have hkey : key (merge old row) = key row := (hmerge old row).trans (find_key hfind)
    have hsome : (find key rows (key (merge old row))).isSome := by
      rw [hkey, hfind]
      rfl
    show find key (put key rows (merge old row)) k = _
    rw [find_put hsome, hkey]

theorem find_upsert_replace (key : ρ → κ) (rows : List ρ) (row : ρ) (k : κ) :
    find key (upsert key (fun _ excluded => excluded) rows row) k =
      if k = key row then some row else find key rows k := by
  unfold upsert
  cases hfind : find key rows (key row) with
  | none => exact find_append_singleton hfind k
  | some old =>
    apply find_put
    rw [hfind]
    rfl

theorem find_upserts (hmerge : ∀ old row, key (merge old row) = key old) :
    ∀ {batch : List ρ} (rows : List ρ), (batch.map key).Nodup → ∀ k,
      find key (batch.foldl (upsert key merge) rows) k =
        match find key batch k with
        | some row => some (merged key merge rows row)
        | none => find key rows k := by
  intro batch
  induction batch with
  | nil =>
    intro rows _ k
    rfl
  | cons row batch ih =>
    intro rows hnodup k
    have hparts := List.nodup_cons.mp hnodup
    rw [List.foldl_cons, ih _ hparts.2, find_upsert hmerge]
    by_cases hk : k = key row
    · have hnone : find key batch k = none := by
        rw [hk]
        unfold find
        rw [List.find?_eq_none]
        intro other hother heq
        exact hparts.1 (beq_iff_eq.mp heq ▸ List.mem_map_of_mem hother)
      have hhead : find key (row :: batch) k = some row := by
        simp [find, hk]
      rw [hnone, hhead, if_pos hk]
    · have htail : find key (row :: batch) k = find key batch k := by
        simp [find, Ne.symm hk]
      rw [htail, if_neg hk]
      cases hfind : find key batch k with
      | none => rfl
      | some other =>
        have hother : key other ≠ key row := by
          rw [find_key hfind]
          exact hk
        show some (merged key merge (upsert key merge rows row) other) =
          some (merged key merge rows other)
        unfold merged
        rw [find_upsert hmerge, if_neg hother]

/-- What an upsert writes over the stored row, or without one. -/
def absorb (merge : ρ → ρ → ρ) (old : Option ρ) (row : ρ) : ρ :=
  match old with
  | some old => merge old row
  | none => row

theorem find_upsert_absorb (key : ρ → κ) (merge : ρ → ρ → ρ)
    (hmerge : ∀ old row, key (merge old row) = key old) (rows : List ρ) (row : ρ) (k : κ) :
    find key (upsert key merge rows row) k =
      if k = key row then some (absorb merge (find key rows k) row) else find key rows k := by
  rw [find_upsert hmerge]
  by_cases hk : k = key row
  · rw [if_pos hk, if_pos hk, hk]
    rfl
  · rw [if_neg hk, if_neg hk]

/-- What the writes of one key make of the stored row. -/
def absorbAll (merge : ρ → ρ → ρ) (old : Option ρ) (writes : List ρ) : Option ρ :=
  writes.foldl (fun old row => some (absorb merge old row)) old

omit [DecidableEq κ] in
theorem absorbAll_concat (merge : ρ → ρ → ρ) (old : Option ρ) (writes : List ρ) (row : ρ) :
    absorbAll merge old (writes ++ [row]) =
      some (absorb merge (absorbAll merge old writes) row) := by
  unfold absorbAll
  rw [List.foldl_append]
  rfl

omit [DecidableEq κ] in
theorem absorbAll_eq_none_iff {old : Option ρ} {writes : List ρ} :
    absorbAll merge old writes = none ↔ old = none ∧ writes = [] := by
  cases List.eq_nil_or_concat' writes with
  | inl hnil => simp [hnil, absorbAll]
  | inr hsnoc =>
    obtain ⟨before, last, hsnoc⟩ := hsnoc
    rw [hsnoc, absorbAll_concat]
    simp

theorem find_foldl_upsert (key : ρ → κ) (merge : ρ → ρ → ρ)
    (hmerge : ∀ old row, key (merge old row) = key old) (writes : List ρ) :
    ∀ (rows : List ρ) (k : κ), find key (writes.foldl (upsert key merge) rows) k =
      absorbAll merge (find key rows k) (writes.filter (fun row => key row = k)) := by
  induction writes with
  | nil => exact fun _ _ => rfl
  | cons row writes ih =>
    intro rows k
    rw [List.foldl_cons, ih, find_upsert_absorb key merge hmerge]
    by_cases hk : key row = k
    · have hfilter : (row :: writes).filter (fun row => key row = k) =
          row :: writes.filter (fun row => key row = k) := by simp [hk]
      rw [hfilter, if_pos hk.symm]
      rfl
    · have hfilter : (row :: writes).filter (fun row => key row = k) =
          writes.filter (fun row => key row = k) := by simp [hk]
      rw [hfilter, if_neg (Ne.symm hk)]

/-! ## Unique keys -/

def Unique (key : ρ → κ) (rows : List ρ) : Prop := (rows.map key).Nodup

instance (key : ρ → κ) (rows : List ρ) : Decidable (Unique key rows) :=
  inferInstanceAs (Decidable (rows.map key).Nodup)

omit [DecidableEq κ] in
theorem Unique.eq (h : Unique key rows) {a b : ρ} (ha : a ∈ rows) (hb : b ∈ rows)
    (hkey : key a = key b) : a = b :=
  List.inj_on_of_nodup_map h ha hb hkey

theorem Unique.find_of_mem (h : Unique key rows) (hmem : row ∈ rows) :
    find key rows (key row) = some row := by
  cases hfind : find key rows (key row) with
  | none =>
    unfold find at hfind
    have hne := List.find?_eq_none.mp hfind row hmem
    simp at hne
  | some other =>
    rw [h.eq (mem_of_find hfind) hmem (find_key hfind)]

omit [DecidableEq κ] in
theorem Unique.map {f : ρ → ρ} (h : Unique key rows) (hf : ∀ row ∈ rows, key (f row) = key row) :
    Unique key (rows.map f) := by
  have hkeys : (rows.map f).map key = rows.map key := by
    rw [List.map_map]
    exact List.map_congr_left hf
  unfold Unique
  rw [hkeys]
  exact h

theorem Unique.append_singleton (h : Unique key rows) (hfresh : find key rows (key row) = none) :
    Unique key (rows ++ [row]) := by
  unfold Unique
  rw [List.map_append, List.map_singleton, List.nodup_append]
  refine ⟨h, List.nodup_singleton _, ?_⟩
  intro a ha b hb hab
  obtain ⟨old, hold, rfl⟩ := List.mem_map.mp ha
  rw [List.mem_singleton.mp hb] at hab
  unfold find at hfresh
  have hne := List.find?_eq_none.mp hfresh old hold
  simp [hab] at hne

section FilterMap

variable {σ : Type} {reported : σ → κ} {f : ρ → Option σ}

theorem Unique.find_filterMap (h : Unique key rows)
    (hf : ∀ row out, f row = some out → reported out = key row) (k : κ) :
    find reported (rows.filterMap f) k = (find key rows k).bind f := by
  induction rows with
  | nil => rfl
  | cons row rows ih =>
    have hparts := List.nodup_cons.mp h
    have hrest := ih hparts.2
    have hfind : find key (row :: rows) k = if key row = k then some row else find key rows k := by
      unfold find
      rw [List.find?_cons]
      by_cases hk : key row = k
      · simp [hk]
      · rw [beq_eq_false_iff_ne.mpr hk, if_neg hk]
    have htail : key row = k → find key rows k = none := by
      intro hk
      unfold find
      rw [List.find?_eq_none]
      intro other hother heq
      apply hparts.1
      rw [hk, ← beq_iff_eq.mp heq]
      exact List.mem_map_of_mem hother
    rw [hfind]
    cases hout : f row with
    | none =>
      rw [List.filterMap_cons_none hout, hrest]
      split_ifs with hk
      · rw [htail hk, Option.bind_some, hout]
        rfl
      · rfl
    | some out =>
      rw [List.filterMap_cons_some hout]
      have hkey := hf row out hout
      have hhead : find reported (out :: rows.filterMap f) k =
          if key row = k then some out else find reported (rows.filterMap f) k := by
        unfold find
        rw [List.find?_cons, hkey]
        by_cases hk : key row = k
        · simp [hk]
        · rw [beq_eq_false_iff_ne.mpr hk, if_neg hk]
      rw [hhead, hrest]
      split_ifs with hk
      · rw [Option.bind_some, hout]
      · rfl

omit [DecidableEq κ] in
theorem Unique.filterMap (h : Unique key rows)
    (hf : ∀ row out, f row = some out → reported out = key row) :
    Unique reported (rows.filterMap f) := by
  induction rows with
  | nil => exact List.nodup_nil
  | cons row rows ih =>
    have hparts := List.nodup_cons.mp h
    cases hout : f row with
    | none =>
      rw [List.filterMap_cons_none hout]
      exact ih hparts.2
    | some out =>
      rw [List.filterMap_cons_some hout]
      apply List.nodup_cons.mpr
      refine ⟨?_, ih hparts.2⟩
      intro hmem
      obtain ⟨other, hother, heq⟩ := List.mem_map.mp hmem
      obtain ⟨old, hold, hreported⟩ := List.mem_filterMap.mp hother
      apply hparts.1
      rw [← hf row out hout, ← heq, hf old other hreported]
      exact List.mem_map_of_mem hold

end FilterMap

variable {κ' : Type} {other : ρ → κ'}

theorem Unique.put_keeps (h : Unique key rows) {old : ρ} (hmem : old ∈ rows)
    (hkey : key row = key old) (hother : other row = other old) :
    ∀ r ∈ rows, other (if key r = key row then row else r) = other r := by
  intro r hr
  split_ifs with hr'
  · rw [h.eq hr hmem (hr'.trans hkey), hother]
  · rfl

theorem Unique.find_put_other [DecidableEq κ'] (h : Unique key rows) (hunique : Unique other rows)
    {old : ρ} (hmem : old ∈ rows) (hkey : key row = key old) (hother : other row = other old)
    (k : κ') :
    find other (put key rows row) k = if k = other old then some row else find other rows k := by
  unfold put
  rw [find_map rows (h.put_keeps hmem hkey hother)]
  by_cases hk : k = other old
  · subst hk
    rw [hunique.find_of_mem hmem, Option.map_some, if_pos rfl, if_pos hkey.symm]
  · rw [if_neg hk]
    cases hfind : find other rows k with
    | none => rfl
    | some r =>
      rw [Option.map_some, if_neg]
      intro hr
      apply hk
      rw [← find_key hfind, h.eq (mem_of_find hfind) hmem (hr.trans hkey)]

theorem Unique.upsert (h : Unique key rows) (merge : ρ → ρ → ρ) (row : ρ) :
    Unique key (upsert key merge rows row) := by
  unfold Tables.upsert
  cases hfind : find key rows (key row) with
  | none => exact h.append_singleton hfind
  | some old =>
    apply h.map
    intro other hother
    split_ifs with heq
    · exact heq.symm
    · rfl

theorem lookup_of_nodup {β : Type} {entries : List (κ × β)} {entry : κ × β}
    (hnodup : (entries.map Prod.fst).Nodup) (hentry : entry ∈ entries) :
    entries.lookup entry.1 = some entry.2 := by
  induction entries with
  | nil => cases hentry
  | cons first entries ih =>
    obtain ⟨hfirst, hrest⟩ := List.nodup_cons.mp hnodup
    rw [List.lookup_cons]
    cases List.mem_cons.mp hentry with
    | inl heq =>
      rw [heq]
      simp
    | inr hmem =>
      have hne : (entry.1 == first.1) = false := by
        simpa using (fun heq => hfirst (heq ▸ List.mem_map_of_mem hmem) : entry.1 ≠ first.1)
      rw [hne]
      exact ih hrest hmem

theorem mem_of_lookup {β : Type} {entries : List (κ × β)} {k : κ} {value : β}
    (h : entries.lookup k = some value) : (k, value) ∈ entries := by
  obtain ⟨before, after, rfl, _⟩ := List.lookup_eq_some_iff.mp h
  simp

end LocalPlatform.Tables
