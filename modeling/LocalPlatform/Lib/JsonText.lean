import Mathlib.Data.String.Basic

/-!
# The text of flat JSON objects

`Object.json` is the compact text of an object of scalars whose keys are sorted and whose text is
ASCII: a character outside of it is written as one or two `\uXXXX` units.

* `escape_append` reads the characters of a string off the text up to its quote.
* `Scalar.json_append` reads a scalar off the text up to a comma or a brace.
* `Object.json_injective`: an object is determined by its text.
-/

namespace LocalPlatform.JsonText

/-! ## Strings -/

/-- The characters that are written as a backslash and a letter. -/
def shortEscapes : List (Char × Char) :=
  [('"', '"'), ('\\', '\\'), ('\n', 'n'), ('\r', 'r'), ('\t', 't'), (Char.ofNat 8, 'b'),
    (Char.ofNat 12, 'f')]

def unitDigits (n : Nat) : List Char :=
  [Nat.digitChar (n / 4096 % 16), Nat.digitChar (n / 256 % 16), Nat.digitChar (n / 16 % 16),
    Nat.digitChar (n % 16)]

def escapeUnit (n : Nat) : List Char := '\\' :: 'u' :: unitDigits n

def escapeChar (c : Char) : List Char :=
  match shortEscapes.lookup c with
  | some letter => ['\\', letter]
  | none =>
    if 0x20 ≤ c.toNat ∧ c.toNat ≤ 0x7e then [c]
    else if c.toNat < 0x10000 then escapeUnit c.toNat
    else escapeUnit (0xd800 + (c.toNat - 0x10000) / 0x400) ++
      escapeUnit (0xdc00 + (c.toNat - 0x10000) % 0x400)

def escape (text : List Char) : List Char := text.flatMap escapeChar

def quoted (text : String) : List Char := '"' :: escape text.toList ++ ['"']

theorem digitChar_inj {a b : Nat} (ha : a < 16) (hb : b < 16)
    (h : Nat.digitChar a = Nat.digitChar b) : a = b := by
  have hall : ∀ a < 16, ∀ b < 16, Nat.digitChar a = Nat.digitChar b → a = b := by decide
  exact hall a ha b hb h

variable {x y : List Char}

theorem unitDigits_append {a b : Nat} (ha : a < 0x10000) (hb : b < 0x10000)
    (h : unitDigits a ++ x = unitDigits b ++ y) : a = b ∧ x = y := by
  simp only [unitDigits, List.cons_append, List.nil_append, List.cons.injEq] at h
  have hfirst := digitChar_inj (by omega) (by omega) h.1
  have hsecond := digitChar_inj (by omega) (by omega) h.2.1
  have hthird := digitChar_inj (by omega) (by omega) h.2.2.1
  have hfourth := digitChar_inj (by omega) (by omega) h.2.2.2.1
  exact ⟨by omega, h.2.2.2.2⟩

/-- How a character is written. -/
inductive Written (c : Char) : List Char → Prop where
  | short (letter : Char) (h : (c, letter) ∈ shortEscapes) : Written c ['\\', letter]
  | plain (hquote : c ≠ '"') (hslash : c ≠ '\\') : Written c [c]
  | unit (h : c.toNat < 0xd800 ∨ 0xdfff < c.toNat) (hsmall : c.toNat < 0x10000) :
      Written c (escapeUnit c.toNat)
  | pair (high low : Nat) (hhigh : high < 0x400) (hlow : low < 0x400)
      (h : c.toNat = 0x10000 + 0x400 * high + low) :
      Written c (escapeUnit (0xd800 + high) ++ escapeUnit (0xdc00 + low))

theorem written (c : Char) : Written c (escapeChar c) := by
  unfold escapeChar
  cases hlookup : shortEscapes.lookup c with
  | some letter =>
    obtain ⟨before, after, htable, _⟩ := List.lookup_eq_some_iff.mp hlookup
    have hmem : (c, letter) ∈ shortEscapes := by simp [htable]
    exact .short letter hmem
  | none =>
    have hquote : c ≠ '"' := by
      intro hc
      simp [hc, shortEscapes] at hlookup
    have hslash : c ≠ '\\' := by
      intro hc
      simp [hc, shortEscapes] at hlookup
    have hvalid := c.valid
    have hvalue : c.val.toNat = c.toNat := rfl
    simp only [UInt32.isValidChar, Nat.isValidChar, hvalue] at hvalid
    dsimp only
    split_ifs with hplain hsmall
    · exact .plain hquote hslash
    · exact .unit (by omega) hsmall
    · exact .pair _ _ (by omega) (by omega) (by omega)

theorem escapeChar_append {a b : Char} (h : escapeChar a ++ x = escapeChar b ++ y) :
    a = b ∧ x = y := by
  have hletters : ∀ p ∈ shortEscapes, ∀ q ∈ shortEscapes, p.2 = q.2 → p.1 = q.1 := by decide
  have hunit : ∀ p ∈ shortEscapes, p.2 ≠ 'u' := by decide
  have ha := written a
  have hb := written b
  generalize escapeChar a = s at h ha
  generalize escapeChar b = t at h hb
  cases ha with
  | short letter hmem =>
    cases hb with
    | short other hother =>
      simp only [List.cons_append, List.nil_append, List.cons.injEq, true_and] at h
      exact ⟨hletters _ hmem _ hother h.1, h.2⟩
    | plain hquote hslash => simp [Ne.symm hslash] at h
    | unit hrange hsmall =>
      simp [escapeUnit] at h
      exact absurd h.1 (hunit _ hmem)
    | pair high low hhigh hlow hvalue =>
      simp [escapeUnit] at h
      exact absurd h.1 (hunit _ hmem)
  | plain hquote hslash =>
    cases hb with
    | short other hother => simp [hslash] at h
    | plain hquote' hslash' => simpa using h
    | unit hrange hsmall => simp [escapeUnit, hslash] at h
    | pair high low hhigh hlow hvalue => simp [escapeUnit, hslash] at h
  | unit hrange hsmall =>
    cases hb with
    | short other hother =>
      simp [escapeUnit] at h
      exact absurd h.1.symm (hunit _ hother)
    | plain hquote' hslash' => simp [escapeUnit, Ne.symm hslash'] at h
    | unit hrange' hsmall' =>
      simp only [escapeUnit, List.cons_append, List.cons.injEq, true_and] at h
      have hread := unitDigits_append hsmall hsmall' h
      exact ⟨Char.toNat_inj.mp hread.1, hread.2⟩
    | pair high low hhigh hlow hvalue =>
      simp only [escapeUnit, List.cons_append, List.append_assoc, List.cons.injEq, true_and] at h
      have hread := unitDigits_append hsmall (by omega) h
      omega
  | pair high low hhigh hlow hvalue =>
    cases hb with
    | short other hother =>
      simp [escapeUnit] at h
      exact absurd h.1.symm (hunit _ hother)
    | plain hquote' hslash' => simp [escapeUnit, Ne.symm hslash'] at h
    | unit hrange' hsmall' =>
      simp only [escapeUnit, List.cons_append, List.append_assoc, List.cons.injEq, true_and] at h
      have hread := unitDigits_append (by omega) hsmall' h
      omega
    | pair high' low' hhigh' hlow' hvalue' =>
      simp only [escapeUnit, List.cons_append, List.append_assoc, List.cons.injEq, true_and] at h
      have hread := unitDigits_append (by omega) (by omega) h
      have hrest := hread.2
      simp only [List.cons.injEq, true_and] at hrest
      have hlast := unitDigits_append (by omega) (by omega) hrest
      exact ⟨Char.toNat_inj.mp (by omega), hlast.2⟩

theorem escapeChar_head (c : Char) (x y : List Char) : escapeChar c ++ x ≠ '"' :: y := by
  have hc := written c
  generalize escapeChar c = s at hc
  cases hc with
  | short letter hmem => simp
  | plain hquote hslash => simp [hquote]
  | unit hrange hsmall => simp [escapeUnit]
  | pair high low hhigh hlow hvalue => simp [escapeUnit]

theorem escape_append {a b : List Char} (h : escape a ++ '"' :: x = escape b ++ '"' :: y) :
    a = b ∧ x = y := by
  induction a generalizing b with
  | nil =>
    cases b with
    | nil => simpa [escape] using h
    | cons c b =>
      simp only [escape, List.flatMap_nil, List.nil_append, List.flatMap_cons,
        List.append_assoc] at h
      exact absurd h.symm (escapeChar_head c _ _)
  | cons c a ih =>
    cases b with
    | nil =>
      simp only [escape, List.flatMap_nil, List.nil_append, List.flatMap_cons,
        List.append_assoc] at h
      exact absurd h (escapeChar_head c _ _)
    | cons d b =>
      simp only [escape, List.flatMap_cons, List.append_assoc] at h
      have hread := escapeChar_append h
      have hrest := ih hread.2
      exact ⟨by rw [hread.1, hrest.1], hrest.2⟩

theorem quoted_append {s t : String} (h : quoted s ++ x = quoted t ++ y) : s = t ∧ x = y := by
  simp only [quoted, List.cons_append, List.append_assoc, List.nil_append, List.cons.injEq,
    true_and] at h
  have hread := escape_append h
  exact ⟨String.toList_inj.mp hread.1, hread.2⟩

/-! ## Scalars -/

def isNumberChar (c : Char) : Bool := c.isDigit || c ∈ ['+', '-', '.', 'e', 'E']

/-- The text of a finite number. -/
structure NumberText where
  text : String
  nonempty : text.toList ≠ []
  plain : text.toList.all isNumberChar = true
  deriving DecidableEq

inductive Scalar where
  | null
  | bool (b : Bool)
  | number (n : NumberText)
  | text (s : String)
  deriving DecidableEq

def Scalar.json : Scalar → List Char
  | .null => ['n', 'u', 'l', 'l']
  | .bool true => ['t', 'r', 'u', 'e']
  | .bool false => ['f', 'a', 'l', 's', 'e']
  | .number n => n.text.toList
  | .text s => quoted s

def Ends (x : List Char) : Prop := ∃ c rest, x = c :: rest ∧ (c = ',' ∨ c = '}')

theorem NumberText.head (n : NumberText) :
    ∃ c rest, n.text.toList = c :: rest ∧ isNumberChar c = true := by
  cases hlist : n.text.toList with
  | nil => exact absurd hlist n.nonempty
  | cons c rest =>
    have hall := n.plain
    rw [hlist, List.all_cons, Bool.and_eq_true] at hall
    exact ⟨c, rest, rfl, hall.1⟩

theorem Ends.takeWhile (h : Ends x) : x.takeWhile isNumberChar = [] := by
  cases h with
  | intro c h =>
    cases h with
    | intro rest h =>
      cases h.2 with
      | inl hc => simp [h.1, hc, isNumberChar]
      | inr hc => simp [h.1, hc, isNumberChar]

theorem NumberText.append {n m : NumberText} (hx : Ends x) (hy : Ends y)
    (h : n.text.toList ++ x = m.text.toList ++ y) : n = m ∧ x = y := by
  have hn : (n.text.toList ++ x).takeWhile isNumberChar = n.text.toList := by
    rw [List.takeWhile_append_of_pos (List.all_eq_true.mp n.plain), hx.takeWhile, List.append_nil]
  have hm : (m.text.toList ++ y).takeWhile isNumberChar = m.text.toList := by
    rw [List.takeWhile_append_of_pos (List.all_eq_true.mp m.plain), hy.takeWhile, List.append_nil]
  have hlist : n.text.toList = m.text.toList := by rw [← hn, h, hm]
  rw [hlist] at h
  constructor
  · cases n
    cases m
    simpa using String.toList_inj.mp hlist
  · exact List.append_cancel_left h

theorem Scalar.json_append {v w : Scalar} (hx : Ends x) (hy : Ends y)
    (h : v.json ++ x = w.json ++ y) : v = w ∧ x = y := by
  -- a number begins with none of the characters that begin the other scalars
  have hhead : ∀ (n : NumberText) (c : Char) (z rest : List Char), isNumberChar c = false →
      n.text.toList ++ z ≠ c :: rest := by
    intro n c z rest hc heq
    cases n.head with
    | intro d hd =>
      cases hd with
      | intro tail hd =>
        rw [hd.1, List.cons_append, List.cons.injEq] at heq
        rw [heq.1, hc] at hd
        cases hd.2
  match v, w with
  | .null, .null => simpa [json] using h
  | .null, .bool true => simp [json] at h
  | .null, .bool false => simp [json] at h
  | .null, .number n => exact absurd h.symm (hhead n 'n' _ _ (by decide))
  | .null, .text s => simp [json, quoted] at h
  | .bool true, .null => simp [json] at h
  | .bool true, .bool true => simpa [json] using h
  | .bool true, .bool false => simp [json] at h
  | .bool true, .number n => exact absurd h.symm (hhead n 't' _ _ (by decide))
  | .bool true, .text s => simp [json, quoted] at h
  | .bool false, .null => simp [json] at h
  | .bool false, .bool true => simp [json] at h
  | .bool false, .bool false => simpa [json] using h
  | .bool false, .number n => exact absurd h.symm (hhead n 'f' _ _ (by decide))
  | .bool false, .text s => simp [json, quoted] at h
  | .number n, .null => exact absurd h (hhead n 'n' _ _ (by decide))
  | .number n, .bool true => exact absurd h (hhead n 't' _ _ (by decide))
  | .number n, .bool false => exact absurd h (hhead n 'f' _ _ (by decide))
  | .number n, .number m =>
    have hread := NumberText.append hx hy h
    exact ⟨by rw [hread.1], hread.2⟩
  | .number n, .text s => exact absurd h (hhead n '"' _ _ (by decide))
  | .text s, .null => simp [json, quoted] at h
  | .text s, .bool true => simp [json, quoted] at h
  | .text s, .bool false => simp [json, quoted] at h
  | .text s, .number n => exact absurd h.symm (hhead n '"' _ _ (by decide))
  | .text s, .text t =>
    have hread := quoted_append h
    exact ⟨by rw [hread.1], hread.2⟩

/-! ## Objects -/

/-- An object whose keys are sorted. -/
structure Object where
  fields : List (String × Scalar)
  sorted : fields.Pairwise (fun a b => a.1 < b.1)
  deriving DecidableEq

/-- The value of a key, where a missing one is null. -/
def Object.get (object : Object) (key : String) : Scalar :=
  (object.fields.lookup key).getD .null

def Object.without (object : Object) (keys : List String) : Object where
  fields := object.fields.filter (fun field => !keys.contains field.1)
  sorted := object.sorted.sublist List.filter_sublist

theorem Object.get_without (object : Object) {keys : List String} {key : String}
    (h : key ∉ keys) : (object.without keys).get key = object.get key := by
  have hlookup : ∀ fields : List (String × Scalar),
      (fields.filter (fun field => !keys.contains field.1)).lookup key = fields.lookup key := by
    intro fields
    induction fields with
    | nil => rfl
    | cons field fields ih =>
      cases field with
      | mk name value =>
        by_cases hkey : key = name
        · rw [List.filter_cons_of_pos (by simpa [← hkey] using h)]
          simp [hkey]
        · have hskip : (key == name) = false := by simpa using hkey
          rw [List.filter_cons]
          split_ifs
          · simp only [List.lookup_cons, hskip, ih]
          · simp only [List.lookup_cons, hskip, ih]
  rw [get, get, without, hlookup]

def fieldText (field : String × Scalar) : List Char := quoted field.1 ++ ':' :: field.2.json

/-- The fields after the first one, and the brace. -/
def restText : List (String × Scalar) → List Char
  | [] => ['}']
  | field :: fields => ',' :: fieldText field ++ restText fields

def fieldsText : List (String × Scalar) → List Char
  | [] => ['{', '}']
  | field :: fields => '{' :: fieldText field ++ restText fields

def Object.json (object : Object) : String := String.ofList (fieldsText object.fields)

theorem ends_restText (fields : List (String × Scalar)) : Ends (restText fields) := by
  cases fields with
  | nil => exact ⟨'}', [], rfl, .inr rfl⟩
  | cons field fields => exact ⟨',', _, rfl, .inl rfl⟩

theorem fieldText_append {f g : String × Scalar} (hx : Ends x) (hy : Ends y)
    (h : fieldText f ++ x = fieldText g ++ y) : f = g ∧ x = y := by
  simp only [fieldText, List.append_assoc, List.cons_append] at h
  have hkey := quoted_append h
  have hrest := hkey.2
  simp only [List.cons.injEq, true_and] at hrest
  have hvalue := Scalar.json_append hx hy hrest
  exact ⟨Prod.ext hkey.1 hvalue.1, hvalue.2⟩

theorem restText_injective {a b : List (String × Scalar)} (h : restText a = restText b) :
    a = b := by
  induction a generalizing b with
  | nil =>
    cases b with
    | nil => rfl
    | cons g b => simp [restText] at h
  | cons f a ih =>
    cases b with
    | nil => simp [restText] at h
    | cons g b =>
      simp only [restText, List.cons_append, List.cons.injEq, true_and] at h
      have hread := fieldText_append (ends_restText a) (ends_restText b) h
      rw [hread.1, ih hread.2]

theorem Object.json_injective : Function.Injective Object.json := by
  intro a b h
  have hlist := String.ofList_injective h
  have hfields : a.fields = b.fields := by
    cases hafields : a.fields with
    | nil =>
      cases hbfields : b.fields with
      | nil => rfl
      | cons g rest => simp [hafields, hbfields, fieldsText, fieldText, quoted] at hlist
    | cons f afields =>
      cases hbfields : b.fields with
      | nil => simp [hafields, hbfields, fieldsText, fieldText, quoted] at hlist
      | cons g bfields =>
        simp only [hafields, hbfields, fieldsText, List.cons_append, List.cons.injEq,
          true_and] at hlist
        have hread := fieldText_append (ends_restText _) (ends_restText _) hlist
        rw [hread.1, restText_injective hread.2]
  cases a
  cases b
  simpa using hfields

end LocalPlatform.JsonText
