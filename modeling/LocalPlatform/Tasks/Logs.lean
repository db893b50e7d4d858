import LocalPlatform.Lib.Utf8
import Mathlib.Data.Int.Basic

/-!
# Paging through a task log

* `logWindow` is one page of a log file: some bytes of it, decoded by themselves.
* `follow` asks for page after page at `nextCursor`, with a limit for each page, while text is
  appended to the file between the requests.
* `log_paging` says that this ends, and that the pages are the decoded file exactly if no page
  starts inside of a character.

The text of a cursor and its number are not told apart.
-/

namespace LocalPlatform.Tasks

open Utf8

/-! ## One page -/

structure Window where
  logs : List Char
  offset : ℕ
  nextOffset : ℕ
  cursor : ℕ
  nextCursor : Option ℕ
  limit : ℕ
  total : ℕ
  hasMore : Bool
  deriving DecidableEq

/-- `bounded_limit` -/
def boundedLimit (limit : ℤ) : ℕ := (max 1 (min limit 1000000)).toNat

/-- `requested_offset` -/
def requestedOffset (total : ℕ) (offset cursor : Option ℤ) (limit : ℤ) : ℤ :=
  match cursor, offset with
  | some cursor, _ => cursor
  | none, some offset => offset
  | none, none => max 0 (total - boundedLimit limit)

/-- `log_window` -/
def logWindow (file : Option (List UInt8)) (offset cursor : Option ℤ) (limit : ℤ) :
    Except String Window :=
  match file with
  | none => .ok ⟨[], 0, 0, 0, none, boundedLimit limit, 0, false⟩
  | some bytes =>
    let total := bytes.length
    let requested := requestedOffset total offset cursor limit
    if requested < 0 then .error "offset must be non-negative."
    else
      let start := min requested.toNat total
      let raw := (bytes.drop start).take (boundedLimit limit)
      let nextOffset := start + raw.length
      let hasMore := decide (nextOffset < total)
      .ok { logs := decode raw
            offset := start
            nextOffset := nextOffset
            cursor := start
            nextCursor := if hasMore then some nextOffset else none
            limit := boundedLimit limit
            total := total
            hasMore := hasMore }

/-! ## Page after page -/

/-- A request for a page, and the text that is appended to the file after it. -/
structure Request where
  limit : ℤ
  appended : List Char
  deriving DecidableEq

/-- The text of the pages, the cursor of the next one, and the file. -/
structure Followed where
  logs : List Char
  nextCursor : Option ℕ
  file : List UInt8
  deriving DecidableEq

/-- The pages from a cursor on, until there is no next one. -/
def follow : List UInt8 → ℕ → List Request → Followed
  | file, cursor, [] => ⟨[], some cursor, file⟩
  | file, cursor, request :: requests =>
    match logWindow (some file) none (some cursor) request.limit with
    | .error _ => ⟨[], some cursor, file⟩
    | .ok window =>
      match window.nextCursor with
      | none => ⟨window.logs, none, file⟩
      | some next =>
        let rest := follow (file ++ encode request.appended) next requests
        { rest with logs := window.logs ++ rest.logs }

def pageStarts : ℕ → List Request → List ℕ
  | _, [] => []
  | cursor, request :: requests =>
    cursor :: pageStarts (cursor + boundedLimit request.limit) requests

/-! ## What the pages are -/

variable {file : List UInt8} {cursor : ℕ} {request : Request} {requests : List Request}

theorem boundedLimit_pos (limit : ℤ) : 0 < boundedLimit limit := by
  unfold boundedLimit
  omega

theorem logWindow_cursor (hcursor : cursor ≤ file.length) (limit : ℤ) :
    ∃ window, logWindow (some file) none (some cursor) limit = .ok window ∧
      window.logs = decode ((file.drop cursor).take (boundedLimit limit)) ∧
      window.nextCursor = if cursor + boundedLimit limit < file.length then
        some (cursor + boundedLimit limit) else none := by
  have hmin : min cursor file.length = cursor := by omega
  have hstart : (min (cursor : ℤ).toNat file.length) = cursor := by omega
  have hsign : ¬ (cursor : ℤ) < 0 := by omega
  unfold logWindow requestedOffset
  dsimp only
  rw [if_neg hsign, hstart]
  refine ⟨_, rfl, rfl, ?_⟩
  have hlength : ((file.drop cursor).take (boundedLimit limit)).length =
      min (boundedLimit limit) (file.length - cursor) := by
    rw [List.length_take, List.length_drop]
  dsimp only
  rw [hlength]
  by_cases hmore : cursor + boundedLimit limit < file.length
  · have hlimit : min (boundedLimit limit) (file.length - cursor) = boundedLimit limit := by omega
    simp [hlimit, hmore]
  · have hend : ¬ cursor + min (boundedLimit limit) (file.length - cursor) < file.length := by omega
    simp only [hend, hmore, decide_false, Bool.false_eq_true, if_false]

theorem follow_last (hcursor : cursor ≤ file.length)
    (h : file.length ≤ cursor + boundedLimit request.limit) :
    follow file cursor (request :: requests) = ⟨decode (file.drop cursor), none, file⟩ := by
  obtain ⟨window, hwindow, hlogs, hnext⟩ := logWindow_cursor hcursor request.limit
  have htake : (file.drop cursor).take (boundedLimit request.limit) = file.drop cursor := by
    refine List.take_of_length_le ?_
    rw [List.length_drop]
    omega
  rw [if_neg (by omega)] at hnext
  unfold follow
  rw [hwindow]
  dsimp only
  rw [hnext, hlogs, htake]

theorem follow_more (h : cursor + boundedLimit request.limit < file.length) :
    follow file cursor (request :: requests) =
      { follow (file ++ encode request.appended) (cursor + boundedLimit request.limit) requests with
        logs := decode ((file.drop cursor).take (boundedLimit request.limit)) ++
          (follow (file ++ encode request.appended) (cursor + boundedLimit request.limit)
            requests).logs } := by
  have hcursor : cursor ≤ file.length := by omega
  obtain ⟨window, hwindow, hlogs, hnext⟩ := logWindow_cursor hcursor request.limit
  rw [if_pos h] at hnext
  conv_lhs => unfold follow
  rw [hwindow]
  dsimp only
  rw [hnext, hlogs]

theorem follow_cases (file : List UInt8) (cursor : ℕ) (request : Request) :
    file.length ≤ cursor + boundedLimit request.limit ∨
      (cursor + boundedLimit request.limit < file.length ∧
        cursor + boundedLimit request.limit ≤ (file ++ encode request.appended).length) := by
  rw [List.length_append]
  omega

theorem follow_file : ∀ (requests : List Request) (file : List UInt8) (cursor : ℕ),
    cursor ≤ file.length → ∃ more, (follow file cursor requests).file = file ++ encode more := by
  intro requests
  induction requests with
  | nil => exact fun file cursor _ => ⟨[], by simp [follow, encode]⟩
  | cons request requests ih =>
    intro file cursor hcursor
    cases follow_cases file cursor request with
    | inl hlast => exact ⟨[], by simp [follow_last hcursor hlast, encode]⟩
    | inr hmore =>
      obtain ⟨more, hfile⟩ := ih _ _ hmore.2
      refine ⟨request.appended ++ more, ?_⟩
      rw [follow_more hmore.1]
      dsimp only
      rw [hfile, List.append_assoc]
      simp [encode]

/-- The bytes that are appended between the requests. -/
def appendedBytes (requests : List Request) : ℕ :=
  (requests.flatMap fun request => encode request.appended).length

theorem follow_ends : ∀ (requests : List Request) (file : List UInt8) (cursor : ℕ),
    cursor ≤ file.length → file.length + appendedBytes requests < cursor + requests.length →
      (follow file cursor requests).nextCursor = none := by
  intro requests
  induction requests with
  | nil =>
    intro file cursor hcursor hlength
    simp at hlength
    omega
  | cons request requests ih =>
    intro file cursor hcursor hlength
    cases follow_cases file cursor request with
    | inl hlast => rw [follow_last hcursor hlast]
    | inr hmore =>
      have hpos := boundedLimit_pos request.limit
      have hbytes : appendedBytes (request :: requests) =
          (encode request.appended).length + appendedBytes requests := by simp [appendedBytes]
      rw [follow_more hmore.1]
      refine ih _ _ hmore.2 ?_
      rw [List.length_cons, hbytes] at hlength
      rw [List.length_append]
      omega

theorem drop_page {final : List UInt8} {count : ℕ} (hstart : file <+: final)
    (h : cursor + count < file.length) :
    final.drop cursor = (file.drop cursor).take count ++ final.drop (cursor + count) := by
  obtain ⟨more, rfl⟩ := hstart
  rw [List.drop_append_of_le_length (by omega), List.drop_append_of_le_length (by omega),
    ← List.append_assoc, ← List.drop_drop, List.take_append_drop]

theorem between_append {more : List UInt8} {position : ℕ} (h : position < file.length) :
    Between (file ++ more) position ↔ Between file position := by
  unfold Between
  rw [List.getElem?_append_left h]

theorem between_end {position : ℕ} (h : file.length ≤ position) : Between file position := by
  intro byte hbyte
  rw [List.getElem?_eq_none h] at hbyte
  cases hbyte

theorem le_of_mem_pageStarts : ∀ {requests : List Request} {cursor position : ℕ},
    position ∈ pageStarts cursor requests → cursor ≤ position := by
  intro requests
  induction requests with
  | nil =>
    intro cursor position h
    cases h
  | cons request requests ih =>
    intro cursor position h
    cases List.mem_cons.mp h with
    | inl heq => omega
    | inr hmem =>
      have hle := ih hmem
      omega

theorem drop_inside {position : ℕ} (h : ¬ Between file position) :
    firstBytes (file.drop position) < (decode (file.drop position)).length := by
  unfold Between at h
  push Not at h
  obtain ⟨byte, hbyte, hinside⟩ := h
  obtain ⟨hlt, hget⟩ := List.getElem?_eq_some_iff.mp hbyte
  rw [List.drop_eq_getElem_cons hlt, hget]
  exact firstBytes_lt_length hinside

/-- The pages are not shorter than the file has first bytes, and longer if one of them starts inside
of a character. -/
theorem length_follow : ∀ (requests : List Request) (file : List UInt8) (cursor : ℕ),
    cursor ≤ file.length → (follow file cursor requests).nextCursor = none →
      firstBytes ((follow file cursor requests).file.drop cursor) ≤
          (follow file cursor requests).logs.length ∧
        ((∃ position ∈ pageStarts cursor requests,
            ¬ Between (follow file cursor requests).file position) →
          firstBytes ((follow file cursor requests).file.drop cursor) <
            (follow file cursor requests).logs.length) := by
  intro requests
  induction requests with
  | nil =>
    intro file cursor _ hnone
    cases hnone
  | cons request requests ih =>
    intro file cursor hcursor hnone
    cases follow_cases file cursor request with
    | inl hlast =>
      rw [follow_last hcursor hlast]
      refine ⟨firstBytes_le_length _, ?_⟩
      rintro ⟨position, hposition, hinside⟩
      cases List.mem_cons.mp hposition with
      | inl heq =>
        rw [heq] at hinside
        exact drop_inside hinside
      | inr hmem =>
        have hle := le_of_mem_pageStarts hmem
        have hend : Between file position := between_end (by omega)
        exact absurd hend hinside
    | inr hmore =>
      rw [follow_more hmore.1] at hnone ⊢
      dsimp only at hnone ⊢
      obtain ⟨more, hfile⟩ := follow_file requests _ _ hmore.2
      obtain ⟨hle, hlt⟩ := ih _ _ hmore.2 hnone
      generalize hrest : follow (file ++ encode request.appended)
        (cursor + boundedLimit request.limit) requests = rest at hfile hle hlt ⊢
      have hstart : file <+: rest.file := by
        rw [hfile, List.append_assoc]
        exact List.prefix_append _ _
      rw [drop_page hstart hmore.1, firstBytes_append, List.length_append]
      have hpage := firstBytes_le_length ((file.drop cursor).take (boundedLimit request.limit))
      refine ⟨by omega, ?_⟩
      rintro ⟨position, hposition, hinside⟩
      cases List.mem_cons.mp hposition with
      | inl heq =>
        have hinside' : ¬ Between file cursor := by
          obtain ⟨tail, htail⟩ := hstart
          rw [heq, ← htail, between_append (by omega)] at hinside
          exact hinside
        unfold Between at hinside'
        push Not at hinside'
        obtain ⟨byte, hbyte, hnot⟩ := hinside'
        obtain ⟨hcursor', hget⟩ := List.getElem?_eq_some_iff.mp hbyte
        have hcons : (file.drop cursor).take (boundedLimit request.limit) =
            byte :: (file.drop (cursor + 1)).take (boundedLimit request.limit - 1) := by
          have hpos := boundedLimit_pos request.limit
          rw [List.drop_eq_getElem_cons hcursor', hget, List.take_cons hpos]
        have hpage' : firstBytes ((file.drop cursor).take (boundedLimit request.limit)) <
            (decode ((file.drop cursor).take (boundedLimit request.limit))).length := by
          rw [hcons]
          exact firstBytes_lt_length hnot
        omega
      | inr hmem =>
        have hrest' := hlt ⟨position, hmem, hinside⟩
        omega

theorem follow_between : ∀ (requests : List Request) (file : List UInt8) (cursor : ℕ),
    cursor ≤ file.length → (follow file cursor requests).nextCursor = none →
      (∀ position ∈ pageStarts cursor requests,
        Between (follow file cursor requests).file position) →
      (∃ text, (follow file cursor requests).file.drop cursor = encode text) →
        (follow file cursor requests).logs =
          decode ((follow file cursor requests).file.drop cursor) := by
  intro requests
  induction requests with
  | nil =>
    intro file cursor _ hnone
    cases hnone
  | cons request requests ih =>
    intro file cursor hcursor hnone hbetween htext
    cases follow_cases file cursor request with
    | inl hlast => rw [follow_last hcursor hlast]
    | inr hmore =>
      rw [follow_more hmore.1] at hnone hbetween htext ⊢
      dsimp only at hnone hbetween htext ⊢
      obtain ⟨more, hfile⟩ := follow_file requests _ _ hmore.2
      have hrestLogs := ih _ _ hmore.2 hnone
        (fun position hposition => hbetween position (List.mem_cons_of_mem _ hposition))
      generalize hrest : follow (file ++ encode request.appended)
        (cursor + boundedLimit request.limit) requests = rest at *
      have hstart : file <+: rest.file := by
        rw [hfile, List.append_assoc]
        exact List.prefix_append _ _
      have hpage := drop_page hstart hmore.1
      obtain ⟨text, htext⟩ := htext
      have hlength : ((file.drop cursor).take (boundedLimit request.limit)).length =
          boundedLimit request.limit := by
        rw [List.length_take, List.length_drop]
        omega
      have hcut : Between (encode text) (boundedLimit request.limit) := by
        cases requests with
        | nil =>
          rw [← hrest] at hnone
          cases hnone
        | cons second requests =>
          have hstart := hbetween (cursor + boundedLimit request.limit)
            (List.mem_cons_of_mem _ List.mem_cons_self)
          unfold Between at hstart ⊢
          rw [← htext, List.getElem?_drop]
          exact hstart
      obtain ⟨front, back, -, htake, hdrop⟩ := exists_of_between hcut
      have hfront : (file.drop cursor).take (boundedLimit request.limit) = encode front := by
        rw [← htake, ← htext, hpage, List.take_left' hlength]
      have hback : rest.file.drop (cursor + boundedLimit request.limit) = encode back := by
        rw [← hdrop, ← htext, hpage, List.drop_left' hlength]
      rw [hrestLogs ⟨back, hback⟩, hpage, hfront, decode_encode_append, decode_encode]

/-- Paging ends, if there are more requests than bytes in the file and in what is appended.  When it
has ended, its pages are the decoded file exactly if no page starts inside of a character. -/
theorem log_paging (text : List Char) (requests : List Request) :
    ((encode text).length + appendedBytes requests < requests.length →
      (follow (encode text) 0 requests).nextCursor = none) ∧
    ((follow (encode text) 0 requests).nextCursor = none →
      ((follow (encode text) 0 requests).logs = decode (follow (encode text) 0 requests).file ↔
        ∀ position ∈ pageStarts 0 requests,
          Between (follow (encode text) 0 requests).file position)) := by
  refine ⟨fun hlength => ?_, fun hnone => ?_⟩
  · exact follow_ends requests _ 0 (Nat.zero_le _) (by omega)
  · obtain ⟨more, hfile⟩ := follow_file requests (encode text) 0 (Nat.zero_le _)
    have hencoded : (follow (encode text) 0 requests).file = encode (text ++ more) := by
      rw [hfile]
      simp [encode]
    constructor
    · intro hlogs position hposition
      by_contra hinside
      have hlonger := (length_follow requests _ 0 (Nat.zero_le _) hnone).2
        ⟨position, hposition, hinside⟩
      rw [List.drop_zero, hlogs, hencoded, firstBytes_encode, decode_encode] at hlonger
      omega
    · intro hbetween
      have htext := follow_between requests _ 0 (Nat.zero_le _) hnone hbetween
        ⟨text ++ more, by rw [List.drop_zero, hencoded]⟩
      rw [List.drop_zero] at htext
      exact htext

/-- A file that grows while it is read. -/
def growingRequests : List Request := [⟨1, []⟩, ⟨2, ['c']⟩, ⟨1, []⟩, ⟨1, []⟩, ⟨5, []⟩, ⟨1, []⟩]

theorem log_paging_sample :
    (follow (encode ['a', 'é', 'b']) 0 growingRequests).logs =
      decode (follow (encode ['a', 'é', 'b']) 0 growingRequests).file :=
  have hpaging := log_paging ['a', 'é', 'b'] growingRequests
  (hpaging.2 (hpaging.1 (by decide +kernel))).mpr (by decide +kernel)

/-- A character of two bytes is lost between two pages of one byte. -/
theorem split_character_lost : ¬ ∀ (text : List Char) (requests : List Request),
    (follow (encode text) 0 requests).nextCursor = none →
      (follow (encode text) 0 requests).logs = decode (follow (encode text) 0 requests).file := by
  intro h
  have hlogs := h ['é'] [⟨1, []⟩, ⟨1, []⟩] (by decide +kernel)
  exact absurd hlogs (by decide +kernel)

end LocalPlatform.Tasks
