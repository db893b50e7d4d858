import Mathlib.Data.List.Forall2

/-!
# Results that may be errors

* `OnOk` is a property of a result that holds of every error.
* `bind_ok`, `map_ok` and `guard_ok` take a program without an error apart; `require` and `orThrow`
  are the checks that such programs are made of.
* `forall₂_of_mapM`: a list of results without an error is read item by item.
  `exists_of_mapM`: each of its values is that of some item, `value_of_mapM`: each item has its
  value, and `mapM_of_ok`: without an error there are values.  `map_of_mapM` reads a key of the
  values of optional results.
-/

namespace LocalPlatform.Results

variable {ε α β : Type}

/-- A property of the value of a result, if it is no error. -/
def OnOk (P : α → Prop) : Except ε α → Prop
  | .error _ => True
  | .ok a => P a

instance (P : α → Prop) [∀ a, Decidable (P a)] : ∀ result : Except ε α, Decidable (OnOk P result)
  | .error _ => .isTrue trivial
  | .ok a => inferInstanceAs (Decidable (P a))

variable {value : β}

theorem bind_ok {first : Except ε α} {rest : α → Except ε β} (h : first.bind rest = .ok value) :
    ∃ a, first = .ok a ∧ rest a = .ok value := by
  cases first with
  | error e => cases h
  | ok a => exact ⟨a, rfl, h⟩

theorem exists_of_isOk {result : Except ε α} (h : result.isOk = true) :
    ∃ value, result = .ok value := by
  cases result with
  | error e => cases h
  | ok value => exact ⟨value, rfl⟩

variable {p : Prop} {error : ε}

theorem guard_ok [Decidable p] {rest : Except ε α} {value : α}
    (h : (if p then .error error else rest) = .ok value) : ¬ p ∧ rest = .ok value := by
  by_cases hp : p
  · rw [if_pos hp] at h
    cases h
  · rw [if_neg hp] at h
    exact ⟨hp, h⟩

def require (p : Prop) [Decidable p] (error : ε) : Except ε Unit :=
  if p then .ok () else .error error

theorem require_ok [Decidable p] {u : Unit} : require p error = .ok u ↔ p := by
  unfold require
  by_cases hp : p
  · simp [hp]
  · simp [hp]

theorem require_of [Decidable p] (h : p) : require p error = .ok () :=
  require_ok.mpr h

def orThrow (value : Option α) (error : ε) : Except ε α :=
  match value with
  | some a => .ok a
  | none => .error error

theorem orThrow_ok {value : Option α} {a : α} : orThrow value error = .ok a ↔ value = some a := by
  cases value <;> simp [orThrow]

theorem map_ok {first : Except ε α} {f : α → β} (h : first.map f = .ok value) :
    ∃ a, first = .ok a ∧ f a = value := by
  cases first with
  | error e => cases h
  | ok a => exact ⟨a, rfl, Except.ok.inj h⟩

variable {f : α → Except ε β}

theorem forall₂_of_mapM : ∀ {items : List α} {values : List β},
    items.mapM f = .ok values → List.Forall₂ (fun item value => f item = .ok value) items values := by
  intro items
  induction items with
  | nil =>
    intro values h
    rw [← Except.ok.inj h]
    exact .nil
  | cons item rest ih =>
    intro values h
    rw [List.mapM_cons] at h
    cases hvalue : f item with
    | error e =>
      rw [hvalue] at h
      cases h
    | ok value =>
      cases hrest : rest.mapM f with
      | error e =>
        rw [hvalue, hrest] at h
        cases h
      | ok values' =>
        rw [hvalue, hrest] at h
        rw [← Except.ok.inj h]
        exact .cons hvalue (ih hrest)

variable {items : List α}

theorem mapM_of_ok :
    (∀ item ∈ items, ∃ value, f item = .ok value) → ∃ values, items.mapM f = .ok values := by
  intro h
  induction items with
  | nil => exact ⟨[], rfl⟩
  | cons item rest ih =>
    obtain ⟨value, hvalue⟩ := h item List.mem_cons_self
    obtain ⟨values, hvalues⟩ := ih (fun other hother => h other (List.mem_cons_of_mem item hother))
    exact ⟨value :: values, by rw [List.mapM_cons, hvalue, hvalues]; rfl⟩

theorem exists_of_forall₂ {R : α → β → Prop} {as : List α} {bs : List β}
    (h : List.Forall₂ R as bs) : (∀ a ∈ as, ∃ b ∈ bs, R a b) ∧ ∀ b ∈ bs, ∃ a ∈ as, R a b := by
  induction h with
  | nil => simp
  | @cons a b as bs hfirst _ ih =>
    simp only [List.forall_mem_cons]
    refine ⟨⟨⟨b, List.mem_cons_self, hfirst⟩, fun a' ha => ?_⟩, ⟨a, List.mem_cons_self, hfirst⟩,
      fun b' hb => ?_⟩
    · obtain ⟨b', hb, hrel⟩ := ih.1 a' ha
      exact ⟨b', List.mem_cons_of_mem _ hb, hrel⟩
    · obtain ⟨a', ha, hrel⟩ := ih.2 b' hb
      exact ⟨a', List.mem_cons_of_mem _ ha, hrel⟩

variable {values : List β}

theorem exists_of_mapM (h : items.mapM f = .ok values) (hvalue : value ∈ values) :
    ∃ item ∈ items, f item = .ok value :=
  (exists_of_forall₂ (forall₂_of_mapM h)).2 value hvalue

theorem value_of_mapM (h : items.mapM f = .ok values) {item : α} (hitem : item ∈ items) :
    ∃ value ∈ values, f item = .ok value :=
  (exists_of_forall₂ (forall₂_of_mapM h)).1 item hitem

theorem map_of_mapM {κ : Type} {f : α → Option β} {key : β → κ} {source : α → κ}
    (hf : ∀ item value, f item = some value → key value = source item) :
    ∀ {items : List α} {values : List β}, items.mapM f = some values →
      values.map key = items.map source := by
  intro items
  induction items with
  | nil =>
    intro values h
    rw [← Option.some.inj h]
    rfl
  | cons item rest ih =>
    intro values h
    rw [List.mapM_cons] at h
    cases hvalue : f item with
    | none =>
      rw [hvalue] at h
      cases h
    | some value =>
      cases hrest : rest.mapM f with
      | none =>
        rw [hvalue, hrest] at h
        cases h
      | some values' =>
        rw [hvalue, hrest] at h
        rw [← Option.some.inj h, List.map_cons, List.map_cons, hf item value hvalue, ih hrest]

theorem map_of_mapM_ok {κ : Type} {key : β → κ} {source : α → κ}
    (hf : ∀ item value, f item = .ok value → key value = source item)
    (h : items.mapM f = .ok values) : values.map key = items.map source := by
  have hread := forall₂_of_mapM h
  clear h
  induction hread with
  | nil => rfl
  | cons hfirst _ ih => rw [List.map_cons, List.map_cons, hf _ _ hfirst, ih]

end LocalPlatform.Results
