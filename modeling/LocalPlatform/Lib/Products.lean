import Mathlib.Data.List.Infix
import Mathlib.Data.List.Nodup
import Mathlib.Data.List.Pairwise

/-!
# Products of lists, and joined texts

* `product` lists the ways to take one entry of each list, the first list varying slowest.
* `append_cons_inj`: the part of a text before its first letter of a kind can be read off.
* `joinFields` writes named values one after the other with a mark between them, and `fieldTexts`
  lists what it makes of a product of values.
* `nodup_fieldTexts_iff`: these texts are distinct if the values of each name are, and none of them
  is another one with the mark and the front of what can follow it (`Told`), and only then.
-/

namespace LocalPlatform.Products

variable {α β : Type}

/-! ## Products -/

/-- `itertools.product` -/
def product : List (List α) → List (List α)
  | [] => [[]]
  | values :: lists => values.flatMap (fun value => (product lists).map (value :: ·))

theorem mem_product {lists : List (List α)} {choice : List α} :
    choice ∈ product lists ↔ List.Forall₂ (· ∈ ·) choice lists := by
  induction lists generalizing choice with
  | nil =>
    show choice ∈ [[]] ↔ _
    simp
  | cons values lists ih =>
    unfold product
    rw [List.mem_flatMap]
    constructor
    · intro h
      obtain ⟨value, hvalue, hmem⟩ := h
      obtain ⟨rest, hrest, rfl⟩ := List.mem_map.mp hmem
      exact .cons hvalue (ih.mp hrest)
    · intro h
      cases h with
      | cons hvalue hrest => exact ⟨_, hvalue, List.mem_map.mpr ⟨_, ih.mpr hrest, rfl⟩⟩

theorem product_map (f : α → β) (lists : List (List α)) :
    product (lists.map (List.map f)) = (product lists).map (List.map f) := by
  induction lists with
  | nil => rfl
  | cons values lists ih =>
    show product (values.map f :: lists.map (List.map f)) = _
    unfold product
    rw [ih]
    simp [List.flatMap_map, List.map_flatMap, Function.comp_def]

theorem nodup_flatMap_of_reads {items : List α} {f : α → List β} (hitems : items.Nodup)
    (hinner : ∀ a ∈ items, (f a).Nodup)
    (hreads : ∀ a ∈ items, ∀ b ∈ items, ∀ x ∈ f a, x ∈ f b → a = b) : (items.flatMap f).Nodup := by
  rw [List.nodup_flatMap]
  refine ⟨hinner, hitems.imp_of_mem (fun {a b} ha hb hne => ?_)⟩
  intro x hx hx'
  exact hne (hreads a ha b hb x hx hx')

/-! ## Texts in front of a mark -/

/-- The part before the first letter of a kind is determined by the text. -/
theorem append_cons_inj {p : α → Prop} {a b u v : List α} {c d : α} (ha : ∀ x ∈ a, ¬ p x)
    (hb : ∀ x ∈ b, ¬ p x) (hc : p c) (hd : p d) (h : a ++ c :: u = b ++ d :: v) :
    a = b ∧ c :: u = d :: v := by
  induction a generalizing b with
  | nil =>
    cases b with
    | nil => exact ⟨rfl, h⟩
    | cons y b => exact absurd ((List.cons.inj h).1 ▸ hc) (hb y List.mem_cons_self)
  | cons x a ih =>
    cases b with
    | nil => exact absurd ((List.cons.inj h).1.symm ▸ hd) (ha x List.mem_cons_self)
    | cons y b =>
      obtain ⟨hhead, htail⟩ := List.cons.inj h
      have hrest := ih (fun z hz => ha z (List.mem_cons_of_mem x hz))
        (fun z hz => hb z (List.mem_cons_of_mem y hz)) htail
      exact ⟨by rw [hhead, hrest.1], hrest.2⟩

variable {mark : α}

theorem append_mark_inj {a b u v : List α} (ha : mark ∉ a) (hb : mark ∉ b)
    (h : a ++ mark :: u = b ++ mark :: v) : a = b ∧ u = v := by
  have hfront := append_cons_inj (p := (· = mark)) (fun x hx heq => ha (heq ▸ hx))
    (fun x hx heq => hb (heq ▸ hx)) rfl rfl h
  exact ⟨hfront.1, (List.cons.inj hfront.2).2⟩

theorem prefix_of_append_cons {a b u v : List α} (h : a ++ mark :: u = b ++ mark :: v)
    (hlength : a.length < b.length) : ∃ x, b = a ++ mark :: x ∧ u = x ++ mark :: v := by
  have hfront : (a ++ [mark]) <+: b ++ mark :: v := ⟨u, by simp [← h]⟩
  obtain ⟨x, hx⟩ := List.prefix_of_prefix_length_le hfront (List.prefix_append b _)
    (by simp only [List.length_append, List.length_singleton]; omega)
  have hsplit : b = a ++ mark :: x := by simp [← hx]
  refine ⟨x, hsplit, ?_⟩
  rw [hsplit, List.append_assoc] at h
  exact (List.cons.inj (List.append_cancel_left h)).2

/-! ## Fields -/

/-- Named values with a mark between them: each is its head and its value. -/
def joinFields (mark : α) : List (List α × List α) → List α
  | [] => []
  | [field] => field.1 ++ field.2
  | field :: next :: fields => field.1 ++ field.2 ++ mark :: joinFields mark (next :: fields)

/-- The texts of all choices of a value for each head. -/
def fieldTexts (mark : α) : List (List α × List (List α)) → List (List α)
  | [] => [[]]
  | [field] => field.2.map (field.1 ++ ·)
  | field :: next :: fields => field.2.flatMap (fun value =>
      (fieldTexts mark (next :: fields)).map (fun rest => field.1 ++ (value ++ mark :: rest)))

/-- The values of each head are distinct, and no value is another one with the mark and a text `x`
where what can follow the other begins with `x`, the mark and what can follow the first. -/
def Told (mark : α) : List (List α × List (List α)) → Prop
  | [] => True
  | [field] => field.2.Nodup
  | field :: next :: fields => field.2.Nodup ∧ Told mark (next :: fields) ∧
      ∀ u ∈ field.2, ∀ x, u ++ mark :: x ∈ field.2 → ∀ rest ∈ fieldTexts mark (next :: fields),
        x ++ mark :: rest ∉ fieldTexts mark (next :: fields)

theorem map_joinFields_product {heads : List (List α)} {lists : List (List (List α))}
    (hlength : heads.length = lists.length) :
    (product lists).map (fun choice => joinFields mark (heads.zip choice)) =
      fieldTexts mark (heads.zip lists) := by
  induction lists generalizing heads with
  | nil =>
    obtain rfl := List.length_eq_zero_iff.mp hlength
    rfl
  | cons values lists ih =>
    cases heads with
    | nil => simp at hlength
    | cons head heads =>
      have hrest := @ih heads (Nat.succ.inj hlength)
      cases lists with
      | nil =>
        obtain rfl := List.length_eq_zero_iff.mp (Nat.succ.inj hlength)
        simp only [product, List.map_flatMap, List.map_cons, List.map_nil, List.zip_cons_cons,
          List.zip_nil_left, fieldTexts, joinFields]
        exact List.map_eq_flatMap.symm
      | cons next lists =>
        cases heads with
        | nil => simp at hlength
        | cons nextHead heads =>
          unfold product
          simp only [List.map_flatMap, List.map_map, List.zip_cons_cons, fieldTexts]
          rw [← List.zip_cons_cons, ← hrest]
          refine List.flatMap_congr (fun value _ => ?_)
          rw [List.map_map]
          refine List.map_congr_left (fun choice hchoice => ?_)
          -- a choice of the remaining lists has a first value
          cases mem_product.mp hchoice with
          | cons _ _ => simp [joinFields]

theorem fieldTexts_ne_nil {fields : List (List α × List (List α))}
    (h : ∀ field ∈ fields, field.2 ≠ []) : fieldTexts mark fields ≠ [] := by
  induction fields with
  | nil => exact List.cons_ne_nil _ _
  | cons field fields ih =>
    obtain ⟨value, hvalue⟩ := List.exists_mem_of_ne_nil _ (h field List.mem_cons_self)
    cases fields with
    | nil => exact List.ne_nil_of_mem (List.mem_map_of_mem hvalue)
    | cons next fields =>
      obtain ⟨rest, hrest⟩ := List.exists_mem_of_ne_nil _
        (ih (fun other hother => h other (List.mem_cons_of_mem _ hother)))
      exact List.ne_nil_of_mem (List.mem_flatMap.mpr ⟨value, hvalue, List.mem_map_of_mem hrest⟩)

theorem nodup_marked_iff {head : List α} {values rests : List (List α)} (hvalues : values ≠ [])
    (hrests : rests ≠ []) :
    (values.flatMap (fun value => rests.map (fun rest => head ++ (value ++ mark :: rest)))).Nodup ↔
      values.Nodup ∧ rests.Nodup ∧ ∀ u ∈ values, ∀ x, u ++ mark :: x ∈ values → ∀ rest ∈ rests,
        x ++ mark :: rest ∉ rests := by
  have hinj : ∀ value : List α,
      Function.Injective (fun rest => head ++ (value ++ mark :: rest)) := by
    intro value a b hab
    exact (List.cons.inj (List.append_cancel_left (List.append_cancel_left hab))).2
  constructor
  · intro h
    rw [List.nodup_flatMap] at h
    obtain ⟨value, hvalue⟩ := List.exists_mem_of_ne_nil _ hvalues
    obtain ⟨first, hfirst⟩ := List.exists_mem_of_ne_nil _ hrests
    have hnodup : values.Nodup := by
      refine h.2.imp (fun {a b} hdisjoint heq => ?_)
      exact hdisjoint (List.mem_map_of_mem hfirst) (heq ▸ List.mem_map_of_mem hfirst)
    refine ⟨hnodup, (h.1 value hvalue).of_map _, fun u hu x hux rest hrest hmem => ?_⟩
    have hne : u ≠ u ++ mark :: x := by simp
    have hsymm : Std.Symm (Function.onFun List.Disjoint
        (fun value => rests.map (fun rest => head ++ (value ++ mark :: rest)))) :=
      ⟨fun _ _ hab _ hright hleft => hab hleft hright⟩
    have hdisjoint := h.2.forall hu hux hne
    exact hdisjoint (List.mem_map_of_mem hmem) (List.mem_map.mpr ⟨rest, hrest, by simp⟩)
  · rintro ⟨hnodup, hrest, hreads⟩
    apply nodup_flatMap_of_reads hnodup
    · exact fun value _ => hrest.map (hinj value)
    · intro a ha b hb text hta htb
      obtain ⟨r, hr, rfl⟩ := List.mem_map.mp hta
      obtain ⟨r', hr', heq⟩ := List.mem_map.mp htb
      have htext := List.append_cancel_left heq
      rcases Nat.lt_trichotomy a.length b.length with hlt | hsame | hgt
      · obtain ⟨x, rfl, rfl⟩ := prefix_of_append_cons htext.symm hlt
        exact absurd hr (hreads a ha x hb r' hr')
      · exact (List.append_inj htext hsame.symm).1.symm
      · obtain ⟨x, rfl, rfl⟩ := prefix_of_append_cons htext hgt
        exact absurd hr' (hreads b hb x ha r hr)

theorem nodup_fieldTexts_iff {fields : List (List α × List (List α))}
    (h : ∀ field ∈ fields, field.2 ≠ []) : (fieldTexts mark fields).Nodup ↔ Told mark fields := by
  induction fields with
  | nil => simp [fieldTexts, Told]
  | cons field fields ih =>
    have hrest := ih (fun other hother => h other (List.mem_cons_of_mem _ hother))
    cases fields with
    | nil => exact List.nodup_map_iff (fun _ _ => List.append_cancel_left)
    | cons next fields =>
      unfold fieldTexts Told
      rw [nodup_marked_iff (h field List.mem_cons_self)
        (fieldTexts_ne_nil (fun other hother => h other (List.mem_cons_of_mem _ hother))), hrest]

end LocalPlatform.Products
