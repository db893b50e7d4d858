import LocalPlatform.Lib.Json
import LocalPlatform.Lib.Results
import LocalPlatform.Lib.Rows
import LocalPlatform.Lib.Utf8
import Mathlib.Data.String.Basic

/-!
# The content hash of a row

* `contentBytes` are the bytes `_update_content_hash` feeds to the digest: a tag for each value,
  and its length where it has one.
* `cancel`: equal bytes with something behind them are those of one value, and so is the rest.
* `content_hash_canonical`: two values have the same bytes if and only if they are the same, with the
  fields of an object in any order.
-/

namespace LocalPlatform.DataSync.ContentHash

open Tables

abbrev Bytes := List UInt8

/-! ## Floats -/

/-- A float by its bits; a `nan` has none that are written. -/
inductive Binary64 where
  | nan
  | infinite (negative : Bool)
  | finite (negative : Bool) (exponent : Fin 2047) (fraction : Fin (2 ^ 52))
  deriving DecidableEq

abbrev Value := Json Binary64

def places {α : Type} (base : ℕ) (digit : ℕ → α) : ℕ → ℕ → List α
  | 0, _ => []
  | count + 1, n => places base digit count (n / base) ++ [digit (n % base)]

def signed (negative : Bool) (text : List Char) : List Char :=
  if negative then '-' :: text else text

/-- The exponent of a number that is written with a one before its point. -/
def exponentText (exponent : ℕ) : List Char :=
  if 1023 ≤ exponent then '+' :: Nat.toDigits 10 (exponent - 1023)
  else '-' :: Nat.toDigits 10 (1023 - exponent)

/-- The digits and the exponent of a number that is not negative. -/
def magnitude (exponent fraction : ℕ) : List Char :=
  if exponent = 0 then
    if fraction = 0 then ['0', '.', '0', 'p', '+', '0']
    else '0' :: '.' :: places 16 Nat.digitChar 13 fraction ++ ['p', '-', '1', '0', '2', '2']
  else '1' :: '.' :: places 16 Nat.digitChar 13 fraction ++ 'p' :: exponentText exponent

/-- `value.hex()` -/
def Binary64.hex : Binary64 → List Char
  | .nan => ['n', 'a', 'n']
  | .infinite negative => signed negative ['i', 'n', 'f']
  | .finite negative exponent fraction =>
    signed negative ('0' :: 'x' :: magnitude exponent fraction)

/-- `str(value)` of an integer. -/
def intText (n : ℤ) : List Char := signed (n < 0) (Nat.toDigits 10 n.natAbs)

/-! ## Bytes -/

/-- `length.to_bytes(8, "big")`, which raises for a length that does not fit. -/
def toBytes (length : ℕ) : Option Bytes :=
  if length < 256 ^ 8 then some (places 256 UInt8.ofNat 8 length) else none

def sized (tag : UInt8) (text : List Char) : Option Bytes :=
  (toBytes (Utf8.encode text).length).map (fun size => tag :: size ++ Utf8.encode text)

mutual

/-- `_update_content_hash`; the fields are sorted after they were written. -/
def contentBytes : Value → Option Bytes
  | .null => some [0x6E]
  | .bool b => some (if b then [0x62, 0x31] else [0x62, 0x30])
  | .int n => sized 0x69 (intText n)
  | .float x => sized 0x66 x.hex
  | .text s => sized 0x73 s.toList
  | .object fields => do
    let size ← toBytes fields.length
    let parts ← fieldParts fields
    some (0x64 :: size ++ (orderBy Prod.fst parts).flatMap Prod.snd)
  | .list items => do
    let size ← toBytes items.length
    let bytes ← itemBytes items
    some (0x6C :: size ++ bytes)

def itemBytes : List Value → Option Bytes
  | [] => some []
  | item :: items => do
    let bytes ← contentBytes item
    let rest ← itemBytes items
    some (bytes ++ rest)

def fieldParts : List (String × Value) → Option (List (String × Bytes))
  | [] => some []
  | (key, value) :: fields => do
    let name ← sized 0x73 key.toList
    let bytes ← contentBytes value
    let rest ← fieldParts fields
    some ((key, name ++ bytes) :: rest)

end

/-! ## Texts -/

theorem length_places {α : Type} (base : ℕ) (digit : ℕ → α) (count n : ℕ) :
    (places base digit count n).length = count := by
  induction count generalizing n with
  | zero => rfl
  | succ count ih => simp [places, ih]

theorem places_inj {α : Type} {base : ℕ} {digit : ℕ → α}
    (hdigit : ∀ a < base, ∀ b < base, digit a = digit b → a = b) {count n m : ℕ}
    (hn : n < base ^ count) (hm : m < base ^ count)
    (h : places base digit count n = places base digit count m) : n = m := by
  induction count generalizing n m with
  | zero => simp at hn hm; omega
  | succ count ih =>
    have hbase : 0 < base := by
      by_contra hzero
      simp [Nat.eq_zero_of_not_pos hzero] at hn
    obtain ⟨hfirst, hlast⟩ := List.append_inj' h rfl
    have hrest := ih (Nat.div_lt_of_lt_mul (by rwa [pow_succ'] at hn))
      (Nat.div_lt_of_lt_mul (by rwa [pow_succ'] at hm)) hfirst
    have hdigits := hdigit _ (Nat.mod_lt n hbase) _ (Nat.mod_lt m hbase) (List.cons.inj hlast).1
    rw [← Nat.div_add_mod n base, ← Nat.div_add_mod m base, hrest, hdigits]

theorem toDigits_inj {n m : ℕ} (h : Nat.toDigits 10 n = Nat.toDigits 10 m) : n = m := by
  rw [← Decimals.readNat_toDigits n, h, Decimals.readNat_toDigits]

theorem minus_notMem_toDigits (n : ℕ) : '-' ∉ Nat.toDigits 10 n := by
  intro hmem
  have hdigit := Decimals.isDigit_toDigits hmem
  revert hdigit
  decide

theorem signed_inj {a b : Bool} {s t : List Char} (hs : s.head? ≠ some '-')
    (ht : t.head? ≠ some '-') (h : signed a s = signed b t) : a = b ∧ s = t := by
  cases a <;> cases b <;> simp only [signed] at h
  · exact ⟨rfl, h⟩
  · exact absurd (by rw [show s = '-' :: t from h]; rfl) hs
  · exact absurd (by rw [← show '-' :: s = t from h]; rfl) ht
  · exact ⟨rfl, (List.cons.inj h).2⟩

theorem intText_inj {n m : ℤ} (h : intText n = intText m) : n = m := by
  have hdigits : ∀ k, (Nat.toDigits 10 k).head? ≠ some '-' :=
    fun k hhead => minus_notMem_toDigits k (List.mem_of_head? hhead)
  obtain ⟨hsign, hdigits⟩ := signed_inj (hdigits _) (hdigits _) h
  have hsize := toDigits_inj hdigits
  have hsigns : n < 0 ↔ m < 0 := by simpa using hsign
  omega

theorem exponentText_inj {e e' : ℕ} (h : exponentText e = exponentText e') : e = e' := by
  unfold exponentText at h
  split_ifs at h with hfirst hsecond hsecond
  · have hdigits := toDigits_inj (List.cons.inj h).2
    omega
  · simp at h
  · simp at h
  · have hdigits := toDigits_inj (List.cons.inj h).2
    omega

theorem digitChar_inj : ∀ a < 16, ∀ b < 16, Nat.digitChar a = Nat.digitChar b → a = b := by
  decide

theorem magnitude_inj {e e' f f' : ℕ} (hf : f < 2 ^ 52) (hf' : f' < 2 ^ 52)
    (h : magnitude e f = magnitude e' f') : e = e' ∧ f = f' := by
  have hplaces : ∀ {x y : List Char}, places 16 Nat.digitChar 13 f ++ x =
      places 16 Nat.digitChar 13 f' ++ y → f = f' ∧ x = y := by
    intro x y happend
    obtain ⟨hdigits, hrest⟩ := List.append_inj happend (by simp [length_places])
    exact ⟨places_inj digitChar_inj (by omega) (by omega) hdigits, hrest⟩
  have hlength : ∀ {n : ℕ} {x : List Char}, ['0', 'p', '+', '0'] ≠
      places 16 Nat.digitChar 13 n ++ x := by
    intro n x heq
    have hlengths := congrArg List.length heq
    simp [length_places] at hlengths
    omega
  unfold magnitude at h
  split_ifs at h with he hzero he' hzero' he' hzero' he'
  all_goals simp only [List.cons_append, List.cons.injEq, true_and, Char.reduceEq, false_and] at h
  · omega
  · exact absurd h hlength
  · exact absurd h.symm hlength
  · obtain ⟨hfraction, _⟩ := hplaces h
    omega
  · obtain ⟨hfraction, hexponent⟩ := hplaces h
    exact ⟨exponentText_inj (List.cons.inj hexponent).2, hfraction⟩

theorem hex_inj {x y : Binary64} (h : x.hex = y.hex) : x = y := by
  have hsigned : ∀ {a b : Bool} {c d : Char} {s t : List Char}, c ≠ '-' → d ≠ '-' →
      signed a (c :: s) = signed b (d :: t) → a = b ∧ c = d ∧ s = t := by
    intro a b c d s t hc hd heq
    obtain ⟨hsign, htext⟩ := signed_inj (by simpa using hc) (by simpa using hd) heq
    exact ⟨hsign, List.cons.inj htext⟩
  cases x with
  | nan =>
    cases y with
    | nan => rfl
    | infinite b => simpa using (hsigned (a := false) (by decide) (by decide) h).2.1
    | finite b e f => simpa using (hsigned (a := false) (by decide) (by decide) h).2.1
  | infinite a =>
    cases y with
    | nan => simpa using (hsigned (b := false) (by decide) (by decide) h).2.1
    | infinite b => rw [(hsigned (by decide) (by decide) h).1]
    | finite b e f => simpa using (hsigned (by decide) (by decide) h).2.1
  | finite a e f =>
    cases y with
    | nan => simpa using (hsigned (b := false) (by decide) (by decide) h).2.1
    | infinite b => simpa using (hsigned (by decide) (by decide) h).2.1
    | finite b e' f' =>
      obtain ⟨rfl, _, hrest⟩ := hsigned (by decide) (by decide) h
      obtain ⟨he, hf⟩ := magnitude_inj f.isLt f'.isLt (List.cons.inj hrest).2
      rw [Fin.ext he, Fin.ext hf]

/-! ## Equal bytes -/

theorem ofNat_inj : ∀ a < 256, ∀ b < 256, UInt8.ofNat a = UInt8.ofNat b → a = b := by
  intro a ha b hb h
  have hnat := congrArg UInt8.toNat h
  simpa [Nat.mod_eq_of_lt ha, Nat.mod_eq_of_lt hb] using hnat

theorem toBytes_some {n : ℕ} {bytes : Bytes} (h : toBytes n = some bytes) :
    n < 256 ^ 8 ∧ bytes = places 256 UInt8.ofNat 8 n := by
  unfold toBytes at h
  split_ifs at h with hn
  exact ⟨hn, (Option.some.inj h).symm⟩

theorem toBytes_cancel {n m : ℕ} {a b x y : Bytes} (ha : toBytes n = some a)
    (hb : toBytes m = some b) (h : a ++ x = b ++ y) : n = m ∧ x = y := by
  obtain ⟨hn, rfl⟩ := toBytes_some ha
  obtain ⟨hm, rfl⟩ := toBytes_some hb
  obtain ⟨hplaces, hrest⟩ := List.append_inj h (by simp [length_places])
  exact ⟨places_inj ofNat_inj hn hm hplaces, hrest⟩

theorem sized_cancel {tag : UInt8} {s t : List Char} {a b x y : Bytes} (ha : sized tag s = some a)
    (hb : sized tag t = some b) (h : a ++ x = b ++ y) : s = t ∧ x = y := by
  obtain ⟨size, hsize, rfl⟩ := Option.map_eq_some_iff.mp ha
  obtain ⟨size', hsize', rfl⟩ := Option.map_eq_some_iff.mp hb
  simp only [List.cons_append, List.append_assoc, List.cons.injEq, true_and] at h
  obtain ⟨hlength, hrest⟩ := toBytes_cancel hsize hsize' h
  obtain ⟨htext, hrest⟩ := List.append_inj hrest hlength
  exact ⟨Utf8.encode_injective htext, hrest⟩

/-- The first byte of a value. -/
def tagOf : Value → UInt8
  | .null => 0x6E
  | .bool _ => 0x62
  | .int _ => 0x69
  | .float _ => 0x66
  | .text _ => 0x73
  | .object _ => 0x64
  | .list _ => 0x6C

theorem contentBytes_head {value : Value} {bytes : Bytes} (h : contentBytes value = some bytes) :
    bytes.head? = some (tagOf value) := by
  have hsized : ∀ {tag : UInt8} {s : List Char}, sized tag s = some bytes →
      bytes.head? = some tag := by
    intro tag s hsized
    obtain ⟨size, _, rfl⟩ := Option.map_eq_some_iff.mp hsized
    rfl
  cases value with
  | null => rw [← Option.some.inj h]; rfl
  | bool b => cases b <;> rw [← Option.some.inj h] <;> rfl
  | int n => exact hsized h
  | float x => exact hsized h
  | text s => exact hsized h
  | object fields =>
    simp only [contentBytes, Option.bind_eq_bind, Option.bind_eq_some_iff] at h
    obtain ⟨size, _, parts, _, h⟩ := h
    rw [← Option.some.inj h]
    rfl
  | list items =>
    simp only [contentBytes, Option.bind_eq_bind, Option.bind_eq_some_iff] at h
    obtain ⟨size, _, items, _, h⟩ := h
    rw [← Option.some.inj h]
    rfl

def Cancels (value : Value) : Prop :=
  ∀ (other : Value) (a b x y : Bytes), value.Keyed → other.Keyed → contentBytes value = some a →
    contentBytes other = some b → a ++ x = b ++ y → value.Same other ∧ x = y

theorem items_cancel {items : List Value} (hitems : ∀ item ∈ items, Cancels item) :
    ∀ {others : List Value} {a b x y : Bytes}, Json.KeyedItems items → Json.KeyedItems others →
      itemBytes items = some a → itemBytes others = some b → items.length = others.length →
      a ++ x = b ++ y → Json.SameItems items others ∧ x = y := by
  induction items with
  | nil =>
    intro others a b x y _ _ ha hb hlength h
    rw [List.eq_nil_of_length_eq_zero hlength.symm] at hb ⊢
    cases Option.some.inj ha
    cases Option.some.inj hb
    exact ⟨rfl, h⟩
  | cons item items ih =>
    intro others a b x y hkeyed hkeyed' ha hb hlength h
    cases others with
    | nil => cases hlength
    | cons other others =>
      simp only [itemBytes, Option.bind_eq_bind, Option.bind_eq_some_iff, Option.some.injEq]
        at ha hb
      obtain ⟨a, hfirst, rest, hrest, rfl⟩ := ha
      obtain ⟨b, hfirst', rest', hrest', rfl⟩ := hb
      rw [List.append_assoc, List.append_assoc] at h
      obtain ⟨hsame, h⟩ := hitems item List.mem_cons_self other _ _ _ _ hkeyed.1 hkeyed'.1
        hfirst hfirst' h
      obtain ⟨hothers, h⟩ := ih (fun other hother => hitems other (List.mem_cons_of_mem _ hother))
        hkeyed.2 hkeyed'.2 hrest hrest' (Nat.succ.inj hlength) h
      exact ⟨⟨hsame, hothers⟩, h⟩

def IsPart (fields : List (String × Value)) (part : String × Bytes) : Prop :=
  ∃ value name bytes, (part.1, value) ∈ fields ∧ sized 0x73 part.1.toList = some name ∧
    contentBytes value = some bytes ∧ part.2 = name ++ bytes

theorem fieldParts_spec {fields : List (String × Value)} {parts : List (String × Bytes)}
    (h : fieldParts fields = some parts) :
    parts.map Prod.fst = fields.map Prod.fst ∧ ∀ part ∈ parts, IsPart fields part := by
  induction fields generalizing parts with
  | nil =>
    cases Option.some.inj h
    simp
  | cons field fields ih =>
    simp only [fieldParts, Option.bind_eq_bind, Option.bind_eq_some_iff, Option.some.injEq] at h
    obtain ⟨name, hname, bytes, hbytes, rest, hrest, rfl⟩ := h
    obtain ⟨hkeys, hparts⟩ := ih hrest
    refine ⟨by simp [hkeys], ?_⟩
    intro part hpart
    cases List.mem_cons.mp hpart with
    | inl heq =>
      subst heq
      exact ⟨field.2, name, bytes, List.mem_cons_self, hname, hbytes, rfl⟩
    | inr hrest =>
      obtain ⟨value, name', bytes', hmem, hpart⟩ := hparts part hrest
      exact ⟨value, name', bytes', List.mem_cons_of_mem _ hmem, hpart⟩

theorem parts_cancel {fields others : List (String × Value)}
    (hfields : ∀ field ∈ fields, Cancels field.2) (hkeyed : Json.KeyedFields fields)
    (hkeyed' : Json.KeyedFields others) :
    ∀ {ps qs : List (String × Bytes)} {x y : Bytes}, (∀ p ∈ ps, IsPart fields p) →
      (∀ q ∈ qs, IsPart others q) → ps.length = qs.length →
      ps.flatMap Prod.snd ++ x = qs.flatMap Prod.snd ++ y →
      x = y ∧ ∀ p ∈ ps, ∃ value other, (p.1, value) ∈ fields ∧ (p.1, other) ∈ others ∧
        value.Same other := by
  intro ps
  induction ps with
  | nil =>
    intro qs x y _ _ hlength h
    rw [List.eq_nil_of_length_eq_zero hlength.symm] at h
    exact ⟨h, by simp⟩
  | cons p ps ih =>
    intro qs x y hps hqs hlength h
    cases qs with
    | nil => cases hlength
    | cons q qs =>
      obtain ⟨value, name, bytes, hvalue, hname, hbytes, hp⟩ := hps p List.mem_cons_self
      obtain ⟨other, name', bytes', hother, hname', hbytes', hq⟩ := hqs q List.mem_cons_self
      simp only [List.flatMap_cons, hp, hq, List.append_assoc] at h
      obtain ⟨hkey, h⟩ := sized_cancel hname hname' h
      obtain ⟨hsame, h⟩ := hfields _ hvalue other _ _ _ _ (Json.keyedFields_iff.mp hkeyed _ hvalue)
        (Json.keyedFields_iff.mp hkeyed' _ hother) hbytes hbytes' h
      obtain ⟨hrest, hothers⟩ := ih (fun p' hp' => hps p' (List.mem_cons_of_mem _ hp'))
        (fun q' hq' => hqs q' (List.mem_cons_of_mem _ hq')) (Nat.succ.inj hlength) h
      refine ⟨hrest, fun p' hp' => ?_⟩
      cases List.mem_cons.mp hp' with
      | inl heq =>
        subst heq
        rw [← String.toList_inj.mp hkey] at hother
        exact ⟨value, other, hvalue, hother, hsame⟩
      | inr hin => exact hothers p' hin

theorem object_some {fields : List (String × Value)} {bytes : Bytes}
    (h : contentBytes (.object fields) = some bytes) : ∃ size parts,
      toBytes fields.length = some size ∧ fieldParts fields = some parts ∧
      bytes = 0x64 :: size ++ (orderBy Prod.fst parts).flatMap Prod.snd := by
  simp only [contentBytes, Option.bind_eq_bind, Option.bind_eq_some_iff, Option.some.injEq] at h
  obtain ⟨size, hsize, parts, hparts, rfl⟩ := h
  exact ⟨size, parts, hsize, hparts, rfl⟩

theorem list_some {items : List Value} {bytes : Bytes}
    (h : contentBytes (.list items) = some bytes) :
    ∃ size body, toBytes items.length = some size ∧ itemBytes items = some body ∧
      bytes = 0x6C :: size ++ body := by
  simp only [contentBytes, Option.bind_eq_bind, Option.bind_eq_some_iff, Option.some.injEq] at h
  obtain ⟨size, hsize, body, hbody, rfl⟩ := h
  exact ⟨size, body, hsize, hbody, rfl⟩

theorem cancel (value : Value) : Cancels value := by
  have htag : ∀ {value other : Value} {a b x y : Bytes}, contentBytes value = some a →
      contentBytes other = some b → a ++ x = b ++ y → tagOf value = tagOf other := by
    intro value other a b x y ha hb h
    have hheads := congrArg List.head? h
    rw [List.head?_append, List.head?_append, contentBytes_head ha, contentBytes_head hb] at hheads
    exact Option.some.inj hheads
  induction value using Json.induction with
  | hnull =>
    intro other a b x y _ _ ha hb h
    have hsame := htag ha hb h
    cases other <;> simp [tagOf] at hsame
    cases Option.some.inj (ha.symm.trans hb)
    exact ⟨rfl, List.append_cancel_left h⟩
  | hbool v =>
    intro other a b x y _ _ ha hb h
    have hsame := htag ha hb h
    cases other with
    | bool w =>
      rw [← Option.some.inj ha, ← Option.some.inj hb] at h
      cases v <;> cases w <;> simp at h <;> exact ⟨rfl, h⟩
    | _ => simp [tagOf] at hsame
  | hint n =>
    intro other a b x y _ _ ha hb h
    have hsame := htag ha hb h
    cases other <;> simp [tagOf] at hsame
    obtain ⟨htext, hrest⟩ := sized_cancel ha hb h
    exact ⟨congrArg Json.int (intText_inj htext), hrest⟩
  | hfloat v =>
    intro other a b x y _ _ ha hb h
    have hsame := htag ha hb h
    cases other <;> simp [tagOf] at hsame
    obtain ⟨htext, hrest⟩ := sized_cancel ha hb h
    exact ⟨congrArg Json.float (hex_inj htext), hrest⟩
  | htext s =>
    intro other a b x y _ _ ha hb h
    have hsame := htag ha hb h
    cases other <;> simp [tagOf] at hsame
    obtain ⟨htext, hrest⟩ := sized_cancel ha hb h
    exact ⟨congrArg Json.text (String.toList_inj.mp htext), hrest⟩
  | hlist items ih =>
    intro other a b x y hkeyed hkeyed' ha hb h
    have hsame := htag ha hb h
    cases other <;> simp [tagOf] at hsame
    obtain ⟨size, body, hsize, hbody, rfl⟩ := list_some ha
    obtain ⟨size', body', hsize', hbody', rfl⟩ := list_some hb
    simp only [List.cons_append, List.append_assoc, List.cons.injEq, true_and] at h
    obtain ⟨hlength, h⟩ := toBytes_cancel hsize hsize' h
    exact items_cancel ih hkeyed hkeyed' hbody hbody' hlength h
  | hobject fields ih =>
    intro other a b x y hkeyed hkeyed' ha hb h
    have hsame := htag ha hb h
    cases other <;> simp [tagOf] at hsame
    rename_i others
    obtain ⟨size, parts, hsize, hparts, rfl⟩ := object_some ha
    obtain ⟨size', parts', hsize', hparts', rfl⟩ := object_some hb
    simp only [List.cons_append, List.append_assoc, List.cons.injEq, true_and] at h
    obtain ⟨hlength, h⟩ := toBytes_cancel hsize hsize' h
    obtain ⟨hkeys, hspec⟩ := fieldParts_spec hparts
    obtain ⟨hkeys', hspec'⟩ := fieldParts_spec hparts'
    have hlengths : (orderBy Prod.fst parts).length = (orderBy Prod.fst parts').length := by
      have hcount := congrArg List.length hkeys
      have hcount' := congrArg List.length hkeys'
      rw [(orderBy_perm _ _).length_eq, (orderBy_perm _ _).length_eq]
      simp at hcount hcount'
      omega
    obtain ⟨hrest, hpairs⟩ := parts_cancel ih hkeyed.2 hkeyed'.2
      (fun p hp => hspec p (mem_orderBy.mp hp)) (fun q hq => hspec' q (mem_orderBy.mp hq))
        hlengths h
    refine ⟨⟨hlength, Json.sameFields_iff.mpr (fun field hfield => ?_)⟩, hrest⟩
    have hpart : field.1 ∈ parts.map Prod.fst := hkeys ▸ List.mem_map_of_mem hfield
    obtain ⟨part, hmem, hkey⟩ := List.mem_map.mp hpart
    obtain ⟨value, other, hvalue, hother, hsame⟩ := hpairs part (mem_orderBy.mpr hmem)
    rw [hkey] at hvalue hother
    have hfound := lookup_of_nodup hkeyed.1 hfield
    rw [lookup_of_nodup hkeyed.1 hvalue] at hfound
    rw [← Option.some.inj hfound]
    exact ⟨other, lookup_of_nodup hkeyed'.1 hother, hsame⟩

/-! ## Bytes of equal values -/

theorem bodies_of_same {items others : List Value} (hpairs : List.Forall₂ Json.Same items others)
    (hitems : ∀ item ∈ items, ∀ {other : Value} {a b : Bytes}, item.Keyed → other.Keyed →
      item.Same other → contentBytes item = some a → contentBytes other = some b → a = b) :
    ∀ {a b : Bytes}, Json.KeyedItems items → Json.KeyedItems others → itemBytes items = some a →
      itemBytes others = some b → a = b := by
  induction hpairs with
  | nil =>
    intro a b _ _ ha hb
    exact Option.some.inj (ha.symm.trans hb)
  | cons hsame _ ih =>
    intro a b hkeyed hkeyed' ha hb
    simp only [itemBytes, Option.bind_eq_bind, Option.bind_eq_some_iff, Option.some.injEq] at ha hb
    obtain ⟨first, hfirst, rest, hrest, rfl⟩ := ha
    obtain ⟨first', hfirst', rest', hrest', rfl⟩ := hb
    rw [hitems _ List.mem_cons_self hkeyed.1 hkeyed'.1 hsame hfirst hfirst',
      ih (fun item hitem => hitems item (List.mem_cons_of_mem _ hitem)) hkeyed.2 hkeyed'.2 hrest
        hrest']

theorem bytes_of_same (value : Value) : ∀ {other : Value} {a b : Bytes}, value.Keyed → other.Keyed →
    value.Same other → contentBytes value = some a → contentBytes other = some b → a = b := by
  induction value using Json.induction with
  | hlist items ih =>
    intro other a b hkeyed hkeyed' hsame ha hb
    cases other with
    | list others =>
      obtain ⟨size, body, hsize, hbody, rfl⟩ := list_some ha
      obtain ⟨size', body', hsize', hbody', rfl⟩ := list_some hb
      have hpairs : List.Forall₂ Json.Same items others := Json.sameItems_iff.mp hsame
      have hbodies : body = body' := bodies_of_same hpairs ih hkeyed hkeyed' hbody hbody'
      rw [hpairs.length_eq, hsize'] at hsize
      rw [hbodies, Option.some.inj hsize]
    | _ => cases hsame
  | hobject fields ih =>
    intro other a b hkeyed hkeyed' hsame ha hb
    cases other with
    | object others =>
      obtain ⟨size, parts, hsize, hparts, rfl⟩ := object_some ha
      obtain ⟨size', parts', hsize', hparts', rfl⟩ := object_some hb
      obtain ⟨hlength, hpairs⟩ := hsame
      obtain ⟨hkeys, hspec⟩ := fieldParts_spec hparts
      obtain ⟨hkeys', hspec'⟩ := fieldParts_spec hparts'
      have hnodup : (parts.map Prod.fst).Nodup := hkeys ▸ hkeyed.1
      -- each part of one is a part of the other
      have hsubset : parts ⊆ parts' := by
        intro part hpart
        obtain ⟨value, name, bytes, hvalue, hname, hbytes, hp⟩ := hspec part hpart
        obtain ⟨other, hother, hsame⟩ := Json.sameFields_iff.mp hpairs _ hvalue
        have hmem := mem_of_lookup hother
        have hkey : part.1 ∈ parts'.map Prod.fst := hkeys' ▸ List.mem_map_of_mem hmem
        obtain ⟨part', hpart', heq⟩ := List.mem_map.mp hkey
        obtain ⟨other', name', bytes', hother', hname', hbytes', hq⟩ := hspec' part' hpart'
        rw [heq] at hother' hname'
        have hfound := lookup_of_nodup hkeyed'.1 hother'
        rw [hother] at hfound
        cases Option.some.inj hfound
        have hbytesEq := ih _ hvalue (Json.keyedFields_iff.mp hkeyed.2 _ hvalue)
          (Json.keyedFields_iff.mp hkeyed'.2 _ hmem) hsame hbytes hbytes'
        have hnameEq := Option.some.inj (hname.symm.trans hname')
        have hpartEq : part = part' := Prod.ext heq.symm (by rw [hp, hq, hbytesEq, hnameEq])
        exact hpartEq ▸ hpart'
      have hcount : parts.length = parts'.length := by
        have hlengths := congrArg List.length hkeys
        have hlengths' := congrArg List.length hkeys'
        simp at hlengths hlengths'
        omega
      have hperm : parts.Perm parts' :=
        (List.subperm_of_subset hnodup.of_map hsubset).perm_of_length_le hcount.ge
      rw [hlength, hsize'] at hsize
      rw [orderBy_eq_of_perm hnodup hperm, Option.some.inj hsize]
    | _ => cases hsame
  | _ =>
    intro other a b _ _ hsame ha hb
    cases hsame
    exact Option.some.inj (ha.symm.trans hb)

theorem contentBytes_eq_iff {value other : Value} (hkeyed : value.Keyed) (hkeyed' : other.Keyed)
    {a b : Bytes} (ha : contentBytes value = some a) (hb : contentBytes other = some b) :
    a = b ↔ value.Same other := by
  constructor
  · intro h
    exact (cancel value other a b [] [] hkeyed hkeyed' ha hb (by rw [h])).1
  · intro h
    exact bytes_of_same value hkeyed hkeyed' h ha hb

/-- The content hash is canonical: two values feed it the same bytes exactly if they are the same
value, so digests without collisions are equal only for the same value. -/
theorem content_hash_canonical {value other : Value} (hkeyed : value.Keyed) (hkeyed' : other.Keyed)
    {a b : Bytes} (ha : contentBytes value = some a) (hb : contentBytes other = some b) :
    (a = b ↔ value.Same other) ∧
      ∀ {Digest : Type} (sha256 : Bytes → Digest), Function.Injective sha256 →
        (sha256 a = sha256 b ↔ value.Same other) := by
  have hbytes := contentBytes_eq_iff hkeyed hkeyed' ha hb
  refine ⟨hbytes, ?_⟩
  intro Digest sha256 hinjective
  rw [hinjective.eq_iff]
  exact hbytes

/-- A row with a number, and the same one with its fields in another order. -/
theorem content_hash_canonical_sample : ∃ a b,
    contentBytes (.object [("x", .int 1), ("y", .float (Binary64.finite false 1023 0))]) = some a ∧
    contentBytes (.object [("y", .float (Binary64.finite false 1023 0)), ("x", .int 1)]) = some b ∧
    (a = b ↔ Json.Same (.object [("x", .int 1), ("y", .float (Binary64.finite false 1023 0))])
      (.object [("y", .float (Binary64.finite false 1023 0)), ("x", .int 1)])) := by
  obtain ⟨a, ha⟩ := Option.isSome_iff_exists.mp (show (contentBytes (.object [("x", .int 1),
    ("y", .float (Binary64.finite false 1023 0))])).isSome = true by decide +kernel)
  obtain ⟨b, hb⟩ := Option.isSome_iff_exists.mp (show (contentBytes (.object
    [("y", .float (Binary64.finite false 1023 0)), ("x", .int 1)])).isSome = true by
      decide +kernel)
  exact ⟨a, b, ha, hb, (content_hash_canonical
    (by simp [Json.Keyed, Json.KeyedFields])
    (by simp [Json.Keyed, Json.KeyedFields]) ha hb).1⟩

end LocalPlatform.DataSync.ContentHash
