import Mathlib.Data.List.Basic

/-!
# UTF-8 with replacement characters

* `encode` is the encoding of a text, and `decode` reads bytes that may be ill-formed: where no
  character starts, `faultyLength` bytes are replaced by one `U+FFFD`.
* `decode_encode_append`: what was encoded is read back, whatever follows.
* `firstBytes_le_length` and `firstBytes_lt_length`: a decoded text is not shorter than there are
  first bytes of characters, and longer if the bytes start inside of a character.
-/

namespace LocalPlatform.Utf8

/-! ## Encoding and decoding -/

def encode (text : List Char) : List UInt8 := text.flatMap String.utf8EncodeChar

def decodeChar (bytes : List UInt8) : Option Char := bytes.toByteArray.utf8DecodeChar? 0

/-- How many bytes the first byte of a character announces. -/
def announced (first : UInt8) : ℕ :=
  if 0xC2 ≤ first ∧ first ≤ 0xDF then 2
  else if 0xE0 ≤ first ∧ first ≤ 0xEF then 3
  else if 0xF0 ≤ first ∧ first ≤ 0xF4 then 4
  else 1

def isContinuation (byte : UInt8) : Bool := 0x80 ≤ byte && byte ≤ 0xBF

/-- The second byte of a character, without overlong forms, surrogates and too large numbers. -/
def secondFits (first second : UInt8) : Bool :=
  if first = 0xE0 then 0xA0 ≤ second && second ≤ 0xBF
  else if first = 0xED then 0x80 ≤ second && second ≤ 0x9F
  else if first = 0xF0 then 0x90 ≤ second && second ≤ 0xBF
  else if first = 0xF4 then 0x80 ≤ second && second ≤ 0x8F
  else isContinuation second

/-- The bytes that are replaced together: as many as could still have become a character. -/
def faultyLength : List UInt8 → ℕ
  | first :: second :: rest =>
    if 3 ≤ announced first ∧ secondFits first second = true then
      if announced first = 4 ∧ (rest.head?.any isContinuation) = true then 3 else 2
    else 1
  | _ => 1

/-- The text of some bytes, of which at most as many characters are read as there is fuel. -/
def decodeFrom : ℕ → List UInt8 → List Char
  | 0, _ => []
  | _, [] => []
  | fuel + 1, first :: rest =>
    match decodeChar (first :: rest) with
    | some c => c :: decodeFrom fuel ((first :: rest).drop c.utf8Size)
    | none => '\uFFFD' :: decodeFrom fuel ((first :: rest).drop (faultyLength (first :: rest)))

/-- `bytes.decode("utf-8", errors="replace")` -/
def decode (bytes : List UInt8) : List Char := decodeFrom bytes.length bytes

/-! ## Reading back -/

theorem faultyLength_pos (bytes : List UInt8) : 0 < faultyLength bytes := by
  unfold faultyLength
  split
  · split_ifs <;> omega
  · omega

variable {bytes : List UInt8}

theorem decodeFrom_eq {fuel : ℕ} (h : bytes.length ≤ fuel) :
    decodeFrom fuel bytes = decode bytes := by
  have hsame : ∀ (a b : ℕ) (bytes : List UInt8), bytes.length ≤ a → bytes.length ≤ b →
      decodeFrom a bytes = decodeFrom b bytes := by
    intro a
    induction a with
    | zero =>
      intro b bytes ha _
      obtain rfl := List.length_eq_zero_iff.mp (Nat.le_zero.mp ha)
      cases b <;> rfl
    | succ a ih =>
      intro b bytes ha hb
      cases bytes with
      | nil => cases b <;> rfl
      | cons first rest =>
        cases b with
        | zero => simp at hb
        | succ b =>
          have hdrop : ∀ n, 0 < n → ((first :: rest).drop n).length ≤ a ∧
              ((first :: rest).drop n).length ≤ b := by
            intro n hn
            simp only [List.length_drop, List.length_cons] at ha hb ⊢
            omega
          unfold decodeFrom
          cases decodeChar (first :: rest) with
          | some c =>
            dsimp only
            rw [ih b _ (hdrop _ c.utf8Size_pos).1 (hdrop _ c.utf8Size_pos).2]
          | none =>
            dsimp only
            rw [ih b _ (hdrop _ (faultyLength_pos _)).1 (hdrop _ (faultyLength_pos _)).2]
  exact hsame _ _ _ h (Nat.le_refl _)

@[simp] theorem decode_nil : decode [] = [] := rfl

theorem decode_some {c : Char} (h : decodeChar bytes = some c) :
    decode bytes = c :: decode (bytes.drop c.utf8Size) := by
  cases bytes with
  | nil => cases h
  | cons first rest =>
    have hpos := c.utf8Size_pos
    have hlength : ((first :: rest).drop c.utf8Size).length ≤ rest.length := by
      simp only [List.length_drop, List.length_cons]
      omega
    rw [← decodeFrom_eq hlength]
    show decodeFrom (rest.length + 1) (first :: rest) = _
    conv_lhs => unfold decodeFrom
    rw [h]

theorem decode_none (hne : bytes ≠ []) (h : decodeChar bytes = none) :
    decode bytes = '\uFFFD' :: decode (bytes.drop (faultyLength bytes)) := by
  cases bytes with
  | nil => exact absurd rfl hne
  | cons first rest =>
    have hpos := faultyLength_pos (first :: rest)
    have hlength : ((first :: rest).drop (faultyLength (first :: rest))).length ≤ rest.length := by
      simp only [List.length_drop, List.length_cons]
      omega
    rw [← decodeFrom_eq hlength]
    show decodeFrom (rest.length + 1) (first :: rest) = _
    conv_lhs => unfold decodeFrom
    rw [h]

theorem decodeChar_append (c : Char) (rest : List UInt8) :
    decodeChar (String.utf8EncodeChar c ++ rest) = some c := by
  unfold decodeChar
  rw [List.toByteArray_append]
  exact ByteArray.utf8DecodeChar?_utf8EncodeChar_append

theorem decode_encode_append (text : List Char) (rest : List UInt8) :
    decode (encode text ++ rest) = text ++ decode rest := by
  induction text with
  | nil => rfl
  | cons c text ih =>
    have hsplit : encode (c :: text) ++ rest =
        String.utf8EncodeChar c ++ (encode text ++ rest) := by
      simp [encode]
    rw [hsplit, decode_some (decodeChar_append c _), List.cons_append, ← ih,
      ← String.length_utf8EncodeChar, List.drop_left]

theorem decode_encode (text : List Char) : decode (encode text) = text := by
  have h := decode_encode_append text []
  rwa [List.append_nil, decode_nil, List.append_nil] at h

theorem encode_injective : Function.Injective encode := by
  intro s t h
  rw [← decode_encode s, h, decode_encode]

/-! ## First bytes -/

/-- How many bytes are the first one of a character. -/
def firstBytes (bytes : List UInt8) : ℕ := bytes.countP (fun byte => byte.IsUTF8FirstByte)

theorem firstBytes_append (a b : List UInt8) : firstBytes (a ++ b) = firstBytes a + firstBytes b :=
  List.countP_append

theorem decodeChar_some {c : Char} (h : decodeChar bytes = some c) :
    bytes = String.utf8EncodeChar c ++ bytes.drop c.utf8Size := by
  obtain ⟨rest, hrest⟩ := ByteArray.exists_of_utf8DecodeChar?_eq_some h
  have hlist : rest = rest.data.toList.toByteArray := ByteArray.ext (by simp)
  rw [hlist, ← List.toByteArray_append, List.toByteArray_inj] at hrest
  have hdrop : bytes.drop c.utf8Size = rest.data.toList := by
    rw [hrest, ← String.length_utf8EncodeChar, List.drop_left]
  rw [hdrop]
  exact hrest

theorem firstBytes_char (c : Char) : firstBytes (String.utf8EncodeChar c) = 1 := by
  have hpos : 0 < (String.utf8EncodeChar c).length := by
    rw [String.length_utf8EncodeChar]
    exact c.utf8Size_pos
  cases hbytes : String.utf8EncodeChar c with
  | nil =>
    rw [hbytes] at hpos
    cases hpos
  | cons first rest =>
    have hread : ∀ (i : ℕ) (hi : i < (first :: rest).length),
        (first :: rest)[i].IsUTF8FirstByte ↔ i = 0 := by
      rw [← hbytes]
      exact fun i hi => UInt8.isUTF8FirstByte_getElem_utf8EncodeChar
    have hfirst : first.IsUTF8FirstByte := (hread 0 (by simp)).mpr rfl
    have hrest : rest.countP (fun byte => byte.IsUTF8FirstByte) = 0 := by
      rw [List.countP_eq_zero]
      intro byte hbyte hmem
      obtain ⟨i, hi, rfl⟩ := List.mem_iff_getElem.mp hbyte
      have hzero := (hread (i + 1) (by simpa using hi)).mp (by simpa using hmem)
      omega
    unfold firstBytes
    rw [List.countP_cons, hrest]
    simp [hfirst]

theorem firstBytes_encode (text : List Char) : firstBytes (encode text) = text.length := by
  induction text with
  | nil => rfl
  | cons c text ih =>
    show firstBytes (String.utf8EncodeChar c ++ encode text) = _
    rw [firstBytes_append, firstBytes_char, ih, List.length_cons, Nat.add_comm]

theorem forall_byte {P : UInt8 → Prop} (h : ∀ n < 256, P (UInt8.ofNat n)) (byte : UInt8) :
    P byte := by
  have hbyte := h byte.toNat byte.toNat_lt
  rwa [UInt8.ofNat_toNat] at hbyte

theorem not_first_of_continuation (byte : UInt8) :
    isContinuation byte = true → ¬ byte.IsUTF8FirstByte := by
  revert byte
  exact forall_byte (by decide +kernel)

theorem continuation_of_fits {first second : UInt8} (h : secondFits first second = true) :
    isContinuation second = true := by
  unfold secondFits at h
  unfold isContinuation at h ⊢
  simp only [Bool.and_eq_true, decide_eq_true_eq, UInt8.le_iff_toNat_le] at h ⊢
  have h80 : (0x80 : UInt8).toNat = 128 := rfl
  have h8F : (0x8F : UInt8).toNat = 143 := rfl
  have h90 : (0x90 : UInt8).toNat = 144 := rfl
  have h9F : (0x9F : UInt8).toNat = 159 := rfl
  have hA0 : (0xA0 : UInt8).toNat = 160 := rfl
  have hBF : (0xBF : UInt8).toNat = 191 := rfl
  split_ifs at h <;> simp only [Bool.and_eq_true, decide_eq_true_eq] at h <;> omega

theorem firstBytes_faulty (first : UInt8) (rest : List UInt8) :
    firstBytes ((first :: rest).take (faultyLength (first :: rest))) ≤
      if first.IsUTF8FirstByte then 1 else 0 := by
  have hone : firstBytes [first] ≤ if first.IsUTF8FirstByte then 1 else 0 := by
    unfold firstBytes
    split_ifs with hfirst <;> simp [hfirst]
  have hcontinuation : ∀ byte : UInt8, isContinuation byte = true → firstBytes [byte] = 0 := by
    intro byte hbyte
    have hnot := not_first_of_continuation byte hbyte
    simp [firstBytes, hnot]
  cases rest with
  | nil => exact hone
  | cons second rest =>
    have hsecond : secondFits first second = true → firstBytes [second] = 0 :=
      fun hfits => hcontinuation second (continuation_of_fits hfits)
    generalize (if first.IsUTF8FirstByte then 1 else 0) = bound at hone ⊢
    dsimp only [faultyLength]
    split_ifs with hfits hthird
    · cases rest with
      | nil => simp at hthird
      | cons third rest =>
        have hbyte : isContinuation third = true := by simpa using hthird.2
        have hsum : firstBytes ([first] ++ [second] ++ [third]) =
            firstBytes [first] + firstBytes [second] + firstBytes [third] := by
          rw [firstBytes_append, firstBytes_append]
        show firstBytes ([first] ++ [second] ++ [third]) ≤ _
        rw [hsum, hsecond hfits.2, hcontinuation third hbyte]
        exact hone
    · have hsum : firstBytes ([first] ++ [second]) = firstBytes [first] + firstBytes [second] :=
        firstBytes_append _ _
      show firstBytes ([first] ++ [second]) ≤ _
      rw [hsum, hsecond hfits.2]
      exact hone
    · exact hone

theorem firstBytes_drop_faulty (first : UInt8) (rest : List UInt8) :
    firstBytes (first :: rest) ≤ (if first.IsUTF8FirstByte then 1 else 0) +
      firstBytes ((first :: rest).drop (faultyLength (first :: rest))) := by
  have hsplit := List.take_append_drop (faultyLength (first :: rest)) (first :: rest)
  have hfaulty := firstBytes_faulty first rest
  calc firstBytes (first :: rest)
      = firstBytes ((first :: rest).take (faultyLength (first :: rest))) +
          firstBytes ((first :: rest).drop (faultyLength (first :: rest))) := by
        rw [← firstBytes_append, hsplit]
    _ ≤ _ := Nat.add_le_add_right hfaulty _

theorem firstBytes_le_length (bytes : List UInt8) : firstBytes bytes ≤ (decode bytes).length := by
  have hall : ∀ (n : ℕ) (bytes : List UInt8), bytes.length ≤ n →
      firstBytes bytes ≤ (decode bytes).length := by
    intro n
    induction n with
    | zero =>
      intro bytes h
      obtain rfl := List.length_eq_zero_iff.mp (Nat.le_zero.mp h)
      exact Nat.le_refl _
    | succ n ih =>
      intro bytes h
      cases bytes with
      | nil => exact Nat.le_refl _
      | cons first rest =>
        have hshort : ∀ m, 0 < m → ((first :: rest).drop m).length ≤ n := by
          intro m hm
          simp only [List.length_drop, List.length_cons] at h ⊢
          omega
        cases hchar : decodeChar (first :: rest) with
        | some c =>
          have hrest := ih _ (hshort _ c.utf8Size_pos)
          have hbytes : firstBytes (first :: rest) =
              1 + firstBytes ((first :: rest).drop c.utf8Size) := by
            conv_lhs => rw [decodeChar_some hchar]
            rw [firstBytes_append, firstBytes_char]
          rw [decode_some hchar, List.length_cons, hbytes]
          omega
        | none =>
          have hrest := ih _ (hshort _ (faultyLength_pos (first :: rest)))
          have hbytes := firstBytes_drop_faulty first rest
          rw [decode_none (List.cons_ne_nil _ _) hchar, List.length_cons]
          split_ifs at hbytes <;> omega
  exact hall _ bytes (Nat.le_refl _)

theorem decodeChar_inside {first : UInt8} {rest : List UInt8} (h : ¬ first.IsUTF8FirstByte) :
    decodeChar (first :: rest) = none := by
  cases hchar : decodeChar (first :: rest) with
  | none => rfl
  | some c =>
    have hsome : ((first :: rest).toByteArray.utf8DecodeChar? 0).isSome := by
      rw [show (first :: rest).toByteArray.utf8DecodeChar? 0 = some c from hchar]
      rfl
    have hfirst := ByteArray.isUTF8FirstByte_of_isSome_utf8DecodeChar? hsome
    rw [List.getElem_toByteArray] at hfirst
    exact absurd hfirst h

theorem firstBytes_lt_length {first : UInt8} {rest : List UInt8} (h : ¬ first.IsUTF8FirstByte) :
    firstBytes (first :: rest) < (decode (first :: rest)).length := by
  have hbytes := firstBytes_drop_faulty first rest
  have hrest := firstBytes_le_length ((first :: rest).drop (faultyLength (first :: rest)))
  rw [if_neg h] at hbytes
  rw [decode_none (List.cons_ne_nil _ _) (decodeChar_inside h), List.length_cons]
  omega

/-! ## Positions in an encoded text -/

/-- A position at which a character starts, or the text ends. -/
def Between (bytes : List UInt8) (position : ℕ) : Prop :=
  ∀ byte ∈ bytes[position]?, byte.IsUTF8FirstByte

instance (bytes : List UInt8) (position : ℕ) : Decidable (Between bytes position) :=
  inferInstanceAs (Decidable (∀ byte ∈ bytes[position]?, byte.IsUTF8FirstByte))

theorem exists_of_between {text : List Char} {position : ℕ}
    (h : Between (encode text) position) : ∃ front back, text = front ++ back ∧
      (encode text).take position = encode front ∧ (encode text).drop position = encode back := by
  induction text generalizing position with
  | nil => exact ⟨[], [], rfl, by simp [encode], by simp [encode]⟩
  | cons c text ih =>
    have hsplit : encode (c :: text) = String.utf8EncodeChar c ++ encode text := rfl
    have hlength := String.length_utf8EncodeChar c
    by_cases hzero : position = 0
    · exact ⟨[], c :: text, rfl, by rw [hzero]; rfl, by rw [hzero]; rfl⟩
    · by_cases hinside : position < c.utf8Size
      · exfalso
        have hin : position < (String.utf8EncodeChar c).length := by omega
        have hbyte := h (String.utf8EncodeChar c)[position] (by
          rw [hsplit, List.getElem?_append_left hin, List.getElem?_eq_getElem hin]
          rfl)
        exact hzero (UInt8.isUTF8FirstByte_getElem_utf8EncodeChar.mp hbyte)
      · have hle : (String.utf8EncodeChar c).length ≤ position := by omega
        have hrest : Between (encode text) (position - c.utf8Size) := by
          intro byte hbyte
          refine h byte ?_
          rw [hsplit, List.getElem?_append_right hle, hlength]
          exact hbyte
        obtain ⟨front, back, htext, htake, hdrop⟩ := ih hrest
        refine ⟨c :: front, back, by rw [htext]; rfl, ?_, ?_⟩
        · rw [hsplit, List.take_append, List.take_of_length_le hle, hlength, htake]
          rfl
        · rw [hsplit, List.drop_append, List.drop_of_length_le hle, hlength, hdrop]
          rfl

end LocalPlatform.Utf8
