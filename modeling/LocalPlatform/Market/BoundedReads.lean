import LocalPlatform.Lib.StableSorts
import Mathlib.Algebra.GroupWithZero.Nat
import Mathlib.Algebra.Order.Group.Nat

/-!
# Reads of the market lake with a bound

* `queryMatching` has the database sort and bound the rows of each scope, and then sorts them again
  in Python.  Both sorts put nulls last, but a descending sort in Python puts them first.
* `pages_agree_iff`: every bounded read is a slice of the whole one if no row has more rows before
  it in the order of its own scope than it has in the order of the result, and only then.
-/

namespace LocalPlatform.Market.BoundedReads

open StableSorts

/-! ## Reads -/

/-- A term of `order_by`: the words of its text. -/
structure Term where
  column : String
  direction : Option String
  deriving DecidableEq

/-- `len(term) > 1 and term[1].lower() == "desc"` -/
def Term.descending (term : Term) : Bool := term.direction.any (fun word => word.toLower = "desc")

abbrev Item (V : Type) := String → Option V

section Reads

variable {V : Type} [LinearOrder V]

def nullsLast (descending : Bool) : Option V → Option V → Prop
  | _, none => True
  | none, some _ => False
  | some x, some y => if descending then y ≤ x else x ≤ y

/-- A term of `order by` in the database, which sorts nulls last in both directions. -/
def databaseLe (term : Term) (a b : Item V) : Prop :=
  nullsLast term.descending (a term.column) (b term.column)

/-- `sort(key=lambda item: (item.get(column) is None, item.get(column)), reverse=reverse)` -/
def pythonLe (term : Term) (a b : Item V) : Prop :=
  if term.descending then nullsLast false (b term.column) (a term.column)
  else nullsLast false (a term.column) (b term.column)

instance (descending : Bool) : DecidableRel (nullsLast (V := V) descending)
  | _, none => instDecidableTrue
  | none, some _ => instDecidableFalse
  | some x, some y => inferInstanceAs (Decidable (if descending then y ≤ x else x ≤ y))

instance (term : Term) : DecidableRel (databaseLe (V := V) term) := fun a b =>
  inferInstanceAs (Decidable (nullsLast term.descending (a term.column) (b term.column)))

instance (term : Term) : DecidableRel (pythonLe (V := V) term) := fun a b =>
  inferInstanceAs (Decidable (if term.descending then
    nullsLast false (b term.column) (a term.column)
    else nullsLast false (a term.column) (b term.column)))

/-- `query_rows` on the matching rows of a scope. -/
def queryRows (terms : List Term) (limit : Option ℕ) (rows : List (Item V)) : List (Item V) :=
  match limit with
  | none => sortAll databaseLe terms rows
  | some limit => (sortAll databaseLe terms rows).take (max 1 limit)

/-- `query_matching` on the matching rows of the matching scopes. -/
def queryMatching (scopes : List (List (Item V))) (terms : List Term) (limit : Option ℤ)
    (offset : ℤ) : List (Item V) :=
  let boundedOffset := offset.toNat
  let boundedLimit := limit.map (fun limit => max 1 limit.toNat)
  let perScopeLimit := boundedLimit.map (fun limit => boundedOffset + limit)
  let result := sortAll pythonLe terms (scopes.map (queryRows terms perScopeLimit)).flatten
  match boundedLimit with
  | none => result
  | some limit => (result.drop boundedOffset).take limit

/-- `count_matching` -/
def countMatching (scopes : List (List (Item V))) : ℕ := (scopes.map List.length).sum

/-! ## The two orders -/

theorem nullsLast_total (descending : Bool) (x y : Option V) :
    nullsLast descending x y ∨ nullsLast descending y x := by
  cases descending <;> cases x <;> cases y <;> simp [nullsLast, le_total]

theorem nullsLast_trans {descending : Bool} {x y z : Option V} (hxy : nullsLast descending x y)
    (hyz : nullsLast descending y z) : nullsLast descending x z := by
  cases x <;> cases y <;> cases z <;> simp_all [nullsLast]
  cases descending
  · exact le_trans hxy hyz
  · exact le_trans hyz hxy

theorem eq_of_nullsLast {descending : Bool} {x y : Option V} (hxy : nullsLast descending x y)
    (hyx : nullsLast descending y x) : x = y := by
  cases x <;> cases y <;> simp_all [nullsLast]
  cases descending
  · exact le_antisymm hxy hyx
  · exact le_antisymm hyx hxy

instance (term : Term) : Std.Total (databaseLe (V := V) term) where
  total _ _ := nullsLast_total _ _ _

instance (term : Term) : IsTrans (Item V) (databaseLe term) where
  trans _ _ _ := nullsLast_trans

instance (term : Term) : Std.Total (pythonLe (V := V) term) where
  total a b := by
    unfold pythonLe
    split <;> exact nullsLast_total _ _ _

instance (term : Term) : IsTrans (Item V) (pythonLe term) where
  trans a b c hab hbc := by
    unfold pythonLe at *
    split at hab
    · next h =>
      rw [if_pos h] at hbc ⊢
      exact nullsLast_trans hbc hab
    · next h =>
      rw [if_neg h] at hbc ⊢
      exact nullsLast_trans hab hbc

theorem eq_of_pythonLe {term : Term} {a b : Item V} (hab : pythonLe term a b)
    (hba : pythonLe term b a) : a term.column = b term.column := by
  unfold pythonLe at *
  split at hab
  · next h =>
    rw [if_pos h] at hba
    exact eq_of_nullsLast hba hab
  · next h =>
    rw [if_neg h] at hba
    exact eq_of_nullsLast hab hba

/-! ## Slices -/

def Apart (terms : List Term) (a b : Item V) : Prop :=
  ∃ term ∈ terms, a term.column ≠ b term.column

/-- Every bounded read is a slice of the whole one, its pages follow one another without loss or
repeat, and their rows are those that `count_matching` counts. -/
def PagesAgree (scopes : List (List (Item V))) (terms : List Term) : Prop :=
  (∀ limit offset : ℤ, queryMatching scopes terms (some limit) offset =
    ((queryMatching scopes terms none 0).drop offset.toNat).take (max 1 limit.toNat)) ∧
  (∀ limit pages : ℕ, 0 < limit → countMatching scopes ≤ pages * limit →
    (List.range pages).flatMap (fun page =>
      queryMatching scopes terms (some limit) ((page * limit : ℕ) : ℤ)) =
      queryMatching scopes terms none 0) ∧
  (queryMatching scopes terms none 0).length = countMatching scopes

/-- A row has no more rows before it in its scope than it has in the result. -/
def FewBefore (scopes : List (List (Item V))) (terms : List Term) : Prop :=
  ∀ rows ∈ scopes, ∀ row ∈ rows,
    rows.countP (fun other => Before databaseLe terms other row) ≤
      scopes.flatten.countP (fun other => Before pythonLe terms other row)

theorem queryMatching_all (scopes : List (List (Item V))) (terms : List Term) :
    queryMatching scopes terms none 0 = mergedAll databaseLe pythonLe terms scopes := rfl

theorem queryMatching_bounded (scopes : List (List (Item V))) (terms : List Term)
    (limit offset : ℤ) : queryMatching scopes terms (some limit) offset =
      ((merged databaseLe pythonLe terms scopes (offset.toNat + max 1 limit.toNat)).take
        (offset.toNat + max 1 limit.toNat)).drop offset.toNat := by
  have hpart : queryRows terms (some (offset.toNat + max 1 limit.toNat)) =
      fun rows : List (Item V) =>
        (sortAll databaseLe terms rows).take (offset.toNat + max 1 limit.toNat) := by
    funext rows
    have hmax : max 1 (offset.toNat + max 1 limit.toNat) = offset.toNat + max 1 limit.toNat := by
      omega
    show (sortAll databaseLe terms rows).take (max 1 _) = _
    rw [hmax]
  rw [List.drop_take, Nat.add_sub_cancel_left]
  show ((sortAll pythonLe terms (scopes.map
    (queryRows terms (some (offset.toNat + max 1 limit.toNat)))).flatten).drop _).take _ = _
  rw [hpart]
  rfl

theorem pages_eq_take {α : Type} (rows : List α) (limit pages : ℕ) :
    (List.range pages).flatMap (fun page => (rows.drop (page * limit)).take limit) =
      rows.take (pages * limit) := by
  induction pages with
  | zero => simp
  | succ pages ih =>
    rw [List.range_succ, List.flatMap_append, ih, Nat.add_mul, one_mul, List.take_add]
    simp

/-- Bounded reads are slices of the whole one if no row has more rows before it in its scope, nulls
last, than it has in the merged result; and only then. -/
theorem pages_agree_iff {scopes : List (List (Item V))} {terms : List Term}
    (htotal : scopes.flatten.Pairwise (Apart terms)) :
    PagesAgree scopes terms ↔ FewBefore scopes terms := by
  have hdatabase : scopes.flatten.Pairwise (fun a b => ¬ Tied databaseLe terms a b) :=
    htotal.imp (fun {_ _} ⟨term, hterm, hne⟩ htied =>
      hne (eq_of_nullsLast (htied term hterm).1 (htied term hterm).2))
  have hpython : scopes.flatten.Pairwise (fun a b => ¬ Tied pythonLe terms a b) :=
    htotal.imp (fun {_ _} ⟨term, hterm, hne⟩ htied =>
      hne (eq_of_pythonLe (htied term hterm).1 (htied term hterm).2))
  have hlength : (queryMatching scopes terms none 0).length = countMatching scopes := by
    rw [queryMatching_all, (mergedAll_perm terms scopes).length_eq, List.length_flatten]
    rfl
  unfold FewBefore
  rw [← merged_take_iff hdatabase hpython, ← queryMatching_all]
  constructor
  · rintro ⟨hslices, -, -⟩ n
    cases n with
    | zero => rfl
    | succ n =>
      have hslice := hslices (n + 1 : ℕ) 0
      rw [queryMatching_bounded] at hslice
      have hone : max 1 ((n + 1 : ℕ) : ℤ).toNat = n + 1 := by omega
      simpa [hone] using hslice
  · intro h
    have hslices : ∀ limit offset : ℤ, queryMatching scopes terms (some limit) offset =
        ((queryMatching scopes terms none 0).drop offset.toNat).take (max 1 limit.toNat) := by
      intro limit offset
      rw [queryMatching_bounded, h, List.drop_take, Nat.add_sub_cancel_left]
    refine ⟨hslices, ?_, hlength⟩
    intro limit pages hlimit hpages
    have hpage : (fun page => queryMatching scopes terms (some (limit : ℤ))
        ((page * limit : ℕ) : ℤ)) = fun page =>
          ((queryMatching scopes terms none 0).drop (page * limit)).take limit := by
      funext page
      rw [hslices, Int.toNat_natCast, Int.toNat_natCast, max_eq_right hlimit]
    rw [hpage, pages_eq_take, List.take_of_length_le (by omega)]

/-- A scope and another one, read with the latest first. -/
theorem pages_agree_sample :
    [[fun _ => some 1, fun _ => some 3], [fun _ => some 2]].flatten.Pairwise
      (Apart (V := ℕ) [⟨"trade_date", some "desc"⟩]) ∧
    (PagesAgree (V := ℕ) [[fun _ => some 1, fun _ => some 3], [fun _ => some 2]]
        [⟨"trade_date", some "desc"⟩] ↔
      FewBefore [[fun _ => some 1, fun _ => some 3], [fun _ => some 2]]
        [⟨"trade_date", some "desc"⟩]) := by
  have hapart : [[fun _ => some 1, fun _ => some 3], [fun _ => some 2]].flatten.Pairwise
      (Apart (V := ℕ) [⟨"trade_date", some "desc"⟩]) := by
    simp [Apart]
  exact ⟨hapart, pages_agree_iff hapart⟩

end Reads

/-- A bar without a time and one with it, the latest first: the whole read begins with the first
one, and its first page with the second one. -/
theorem null_is_lost : ¬ PagesAgree (V := ℕ) [[fun _ => none, fun _ => some 1]]
    [⟨"timestamp", some "desc"⟩] := by
  rintro ⟨hslices, -, -⟩
  have h := congrArg (List.map (fun item : Item ℕ => item "timestamp")) (hslices 1 0)
  revert h
  decide +kernel

end LocalPlatform.Market.BoundedReads
