import LocalPlatform.Lib.DecimalTexts
import LocalPlatform.Lib.IsoDates
import LocalPlatform.Lib.Joined
import LocalPlatform.Lib.Results

/-!
# Contract ids of instruments

* `instrumentContractId` joins the market, the venue, the token of the subtype, the symbol and, for
  a derivative, the expiry, the strike and the right by dots.
* `SameInstrument` is what an id is to stand for: the keys agree, the expiries are one day, the
  strikes one number.
* `contractId_iff`: for two accepted requests, the ids agree exactly for one instrument if one
  instrument is spelled alike, no two subtypes share a token and no dot moves from one field to
  another; and only then.
* The case maps and the trimming of texts are parameters, since they depend on the tables of the
  characters.
-/

namespace LocalPlatform.Instruments

open Dates IsoDates DecimalTexts Joined
open Results

/-! ## Requests -/

/-- `str.strip`, `str.upper` and `str.lower` -/
structure Texts where
  strip : String → String
  upper : String → String
  lower : String → String

/-- The arguments of a contract id.  A strike is the text of its value. -/
structure Request where
  market : String
  venue : String
  subtype : String
  canonicalSymbol : String
  identityKind : String := "instrument"
  expiry : Option String := none
  strike : Option String := none
  right : Option String := none
  deriving DecidableEq

structure InstrumentContractError where
  code : String
  message : String
  deriving DecidableEq

abbrev Checked := Except InstrumentContractError

/-! ## Checks of single fields -/

variable (texts : Texts)

/-- `_required_text` -/
def requiredText (value fieldName : String) : Checked String := do
  let text := texts.strip value
  require (text ≠ "") ⟨"missing_field", fieldName ++ " is required"⟩
  return text

/-- `_positive_decimal` -/
def positiveDecimal (value fieldName : String) : Checked Decimal :=
  match readDecimal value.toList with
  | none => .error ⟨"invalid_decimal", fieldName ++ " must be a decimal value"⟩
  | some (.finite false decimal) =>
    if 0 < decimal.coefficient then .ok decimal
    else .error ⟨"invalid_decimal", fieldName ++ " must be finite and positive"⟩
  | some _ => .error ⟨"invalid_decimal", fieldName ++ " must be finite and positive"⟩

/-- `_iso_date` -/
def isoDate (value : Option String) (fieldName : String) : Checked (Option String) :=
  match value with
  | none => .ok none
  | some text =>
    if text = "" then .ok none
    else if (fromIsoFormat text.toList).isSome then .ok (some text)
    else .error ⟨"invalid_date", fieldName ++ " must be an ISO date"⟩

/-! ## The id -/

def tokenBySubtype : List (String × String) :=
  [("common_stock", "EQUITY"), ("etf", "ETF"), ("index", "INDEX"), ("future_contract", "FUTURE"),
    ("future_root", "FUTURE_ROOT"), ("future_continuous", "FUTURE_CONTINUOUS"),
    ("option", "OPTION"), ("convertible_bond", "CONVERTIBLE_BOND")]

def tokenOf (subtypeKey : String) : String :=
  (tokenBySubtype.lookup subtypeKey).getD (texts.upper subtypeKey)

/-- The subtypes whose instruments have an expiry. -/
def Dated (subtypeKey : String) : Prop := subtypeKey = "future_contract" ∨ subtypeKey = "option"

instance (subtypeKey : String) : Decidable (Dated subtypeKey) :=
  inferInstanceAs (Decidable (_ ∨ _))

/-- The part of the expiry. -/
def expiryParts (subtypeKey : String) (request : Request) : Checked (List String) :=
  if Dated subtypeKey then do
    let expiry ← isoDate request.expiry "expiry"
    let key ← orThrow expiry ⟨"missing_field", "expiry is required in derivative identity"⟩
    return [String.ofList (compact key.toList)]
  else .ok []

/-- The parts of the strike and of the right. -/
def optionParts (subtypeKey : String) (request : Request) : Checked (List String) :=
  if subtypeKey = "option" then do
    let missing : InstrumentContractError :=
      ⟨"missing_field", "option strike and right are identity dimensions"⟩
    let strike ← orThrow request.strike missing
    let right ← orThrow request.right missing
    let decimal ← positiveDecimal strike "strike"
    let rightKey := texts.upper (texts.strip right)
    require (rightKey = "CALL" ∨ rightKey = "PUT")
      ⟨"invalid_option_right", "option right must be call or put"⟩
    return [String.ofList decimal.plainText, rightKey]
  else .ok []

/-- `instrument_contract_id` -/
def instrumentContractId (request : Request) : Checked String := do
  let market ← requiredText texts request.market "market"
  let venue ← requiredText texts request.venue "venue"
  let subtype ← requiredText texts request.subtype "subtype"
  let symbol ← requiredText texts request.canonicalSymbol "canonical_symbol"
  let kind ← requiredText texts request.identityKind "identity_kind"
  let subtypeKey := texts.lower subtype
  require (¬ (texts.lower kind = "continuous" ∧ subtypeKey ≠ "future_continuous"))
    ⟨"identity_kind_mismatch", "continuous identity requires future_continuous subtype"⟩
  let expiry ← expiryParts subtypeKey request
  let option ← optionParts texts subtypeKey request
  return ".".intercalate
    ([texts.upper market, texts.upper venue, tokenOf texts subtypeKey, texts.upper symbol] ++
      expiry ++ option)

/-! ## What an id stands for -/

namespace Request

def marketKey (request : Request) : String := texts.upper (texts.strip request.market)

def venueKey (request : Request) : String := texts.upper (texts.strip request.venue)

def subtypeKey (request : Request) : String := texts.lower (texts.strip request.subtype)

def symbolKey (request : Request) : String := texts.upper (texts.strip request.canonicalSymbol)

def rightKey (request : Request) : String := texts.upper (texts.strip (request.right.getD ""))

def day (request : Request) : Option Date :=
  request.expiry.bind (fun text => fromIsoFormat text.toList)

/-- The strike, with the places that it is written with. -/
def decimal (request : Request) : Option Decimal :=
  request.strike.bind (fun text =>
    match readDecimal text.toList with
    | some (.finite _ decimal) => some decimal
    | _ => none)

/-- The fields of the id, as letters. -/
def fields (request : Request) : List (List Char) :=
  [request.marketKey texts, request.venueKey texts, tokenOf texts (request.subtypeKey texts),
      request.symbolKey texts].map String.toList ++
    (if Dated (request.subtypeKey texts) then [compact (request.expiry.getD "").toList] else []) ++
    (if request.subtypeKey texts = "option" then
      [(request.decimal.map Decimal.plainText).getD [], (request.rightKey texts).toList]
    else [])

end Request

/-- Two requests denote one instrument. -/
structure SameInstrument (a b : Request) : Prop where
  market : a.marketKey texts = b.marketKey texts
  venue : a.venueKey texts = b.venueKey texts
  subtype : a.subtypeKey texts = b.subtypeKey texts
  symbol : a.symbolKey texts = b.symbolKey texts
  expiry : Dated (a.subtypeKey texts) → a.day = b.day
  strike : a.subtypeKey texts = "option" →
    a.decimal.map Decimal.value = b.decimal.map Decimal.value
  right : a.subtypeKey texts = "option" → a.rightKey texts = b.rightKey texts

/-- The expiries are one text without their dashes, and the strikes have equally many places. -/
structure SpelledAlike (a b : Request) : Prop where
  expiry : Dated (a.subtypeKey texts) →
    compact (a.expiry.getD "").toList = compact (b.expiry.getD "").toList
  strike : a.subtypeKey texts = "option" →
    a.decimal.map Decimal.places = b.decimal.map Decimal.places

/-- Two subtypes without an expiry share a token, and the other keys agree. -/
structure TokensClash (a b : Request) : Prop where
  market : a.marketKey texts = b.marketKey texts
  venue : a.venueKey texts = b.venueKey texts
  subtype : a.subtypeKey texts ≠ b.subtypeKey texts
  token : tokenOf texts (a.subtypeKey texts) = tokenOf texts (b.subtypeKey texts)
  symbol : a.symbolKey texts = b.symbolKey texts
  undated : ¬ Dated (a.subtypeKey texts) ∧ ¬ Dated (b.subtypeKey texts)

/-- The parts of an accepted request that its id is made of. -/
structure Reads (request : Request) (id : String) : Prop where
  text : id.toList = join '.' (request.fields texts)
  expiry : Dated (request.subtypeKey texts) → ∃ day, request.day = some day
  strike : request.subtypeKey texts = "option" → ∃ decimal, request.decimal = some decimal
  right : request.subtypeKey texts = "option" →
    request.rightKey texts = "CALL" ∨ request.rightKey texts = "PUT"

variable {texts}

theorem dated_option {subtypeKey : String} (h : subtypeKey = "option") : Dated subtypeKey := .inr h

theorem dated_future {subtypeKey : String} (h : subtypeKey = "future_contract") :
    Dated subtypeKey := .inl h

theorem requiredText_ok {value fieldName text : String}
    (h : requiredText texts value fieldName = .ok text) : text = texts.strip value := by
  obtain ⟨_, _, hrest⟩ := bind_ok h
  exact (Except.ok.inj hrest).symm

variable {request : Request}

theorem expiryParts_ok {parts : List String}
    (h : expiryParts (request.subtypeKey texts) request = .ok parts) :
    parts.map String.toList = (if Dated (request.subtypeKey texts) then
        [compact (request.expiry.getD "").toList] else []) ∧
      (Dated (request.subtypeKey texts) → ∃ day, request.day = some day) := by
  unfold expiryParts at h
  by_cases hdated : Dated (request.subtypeKey texts)
  · rw [if_pos hdated] at h ⊢
    obtain ⟨expiry, hexpiry, h⟩ := bind_ok h
    obtain ⟨key, hkey, h⟩ := bind_ok h
    rw [← Except.ok.inj h]
    rw [orThrow_ok.mp hkey] at hexpiry
    unfold isoDate at hexpiry
    split at hexpiry
    · cases hexpiry
    · rename_i text htext
      split at hexpiry
      · cases hexpiry
      · split at hexpiry
        · rename_i hsome
          obtain rfl : text = key := Option.some.inj (Except.ok.inj hexpiry)
          refine ⟨by simp [htext], fun _ => ?_⟩
          unfold Request.day
          rw [htext]
          exact Option.isSome_iff_exists.mp hsome
        · cases hexpiry
  · rw [if_neg hdated] at h ⊢
    rw [← Except.ok.inj h]
    exact ⟨rfl, fun hin => absurd hin hdated⟩

theorem positiveDecimal_ok {value fieldName : String} {decimal : Decimal}
    (h : positiveDecimal value fieldName = .ok decimal) :
    readDecimal value.toList = some (.finite false decimal) := by
  unfold positiveDecimal at h
  split at h
  · cases h
  · rename_i hread
    split at h
    · rw [← Except.ok.inj h]
      exact hread
    · cases h
  · cases h

theorem optionParts_ok {parts : List String}
    (h : optionParts texts (request.subtypeKey texts) request = .ok parts) :
    parts.map String.toList = (if request.subtypeKey texts = "option" then
        [(request.decimal.map Decimal.plainText).getD [], (request.rightKey texts).toList]
      else []) ∧
      (request.subtypeKey texts = "option" → ∃ decimal, request.decimal = some decimal) ∧
      (request.subtypeKey texts = "option" →
        request.rightKey texts = "CALL" ∨ request.rightKey texts = "PUT") := by
  unfold optionParts at h
  by_cases hoption : request.subtypeKey texts = "option"
  · rw [if_pos hoption] at h ⊢
    obtain ⟨strike, hstrike, h⟩ := bind_ok h
    obtain ⟨right, hright, h⟩ := bind_ok h
    obtain ⟨decimal, hdecimal, h⟩ := bind_ok h
    obtain ⟨_, hcall, h⟩ := bind_ok h
    rw [← Except.ok.inj h]
    have hread : request.decimal = some decimal := by
      unfold Request.decimal
      rw [orThrow_ok.mp hstrike]
      show (match readDecimal strike.toList with
        | some (.finite _ decimal) => some decimal
        | _ => none) = _
      rw [positiveDecimal_ok hdecimal]
    have hkey : request.rightKey texts = texts.upper (texts.strip right) := by
      unfold Request.rightKey
      rw [orThrow_ok.mp hright]
      rfl
    rw [hread, hkey]
    refine ⟨?_, fun _ => ⟨decimal, rfl⟩, fun _ => require_ok.mp hcall⟩
    simp
  · rw [if_neg hoption] at h ⊢
    rw [← Except.ok.inj h]
    exact ⟨rfl, fun hin => absurd hin hoption, fun hin => absurd hin hoption⟩

theorem reads_of_ok {id : String} (h : instrumentContractId texts request = .ok id) :
    Reads texts request id := by
  obtain ⟨market, hmarket, h⟩ := bind_ok h
  obtain ⟨venue, hvenue, h⟩ := bind_ok h
  obtain ⟨subtype, hsubtype, h⟩ := bind_ok h
  obtain ⟨symbol, hsymbol, h⟩ := bind_ok h
  obtain ⟨kind, _, h⟩ := bind_ok h
  obtain ⟨_, _, h⟩ := bind_ok h
  obtain ⟨expiry, hexpiry, h⟩ := bind_ok h
  obtain ⟨option, hoption, h⟩ := bind_ok h
  rw [requiredText_ok hsubtype] at hexpiry hoption h
  have hdated := @expiryParts_ok texts _ _ hexpiry
  have hright := optionParts_ok hoption
  refine ⟨?_, hdated.2, hright.2.1, hright.2.2⟩
  rw [← Except.ok.inj h, String.toList_intercalate, requiredText_ok hmarket, requiredText_ok hvenue,
    requiredText_ok hsymbol, List.map_append, List.map_append, hdated.1, hright.1]
  rfl

/-! ## Fields -/

/-- The market, the venue, the token and the symbol. -/
def Request.base (texts : Texts) (request : Request) : List (List Char) :=
  [request.marketKey texts, request.venueKey texts, tokenOf texts (request.subtypeKey texts),
    request.symbolKey texts].map String.toList

/-- The expiry, the strike and the right. -/
def Request.tail (texts : Texts) (request : Request) : List (List Char) :=
  (if Dated (request.subtypeKey texts) then [compact (request.expiry.getD "").toList] else []) ++
    (if request.subtypeKey texts = "option" then
      [(request.decimal.map Decimal.plainText).getD [], (request.rightKey texts).toList]
    else [])

theorem fields_eq (request : Request) :
    request.fields texts = request.base texts ++ request.tail texts := List.append_assoc ..

theorem fields_ne_nil (request : Request) : request.fields texts ≠ [] :=
  List.cons_ne_nil _ _

theorem tail_option {decimal : Decimal} (h : request.subtypeKey texts = "option")
    (hdecimal : request.decimal = some decimal) :
    request.tail texts =
      [compact (request.expiry.getD "").toList, decimal.plainText,
        (request.rightKey texts).toList] := by
  unfold Request.tail
  rw [if_pos (dated_option h), if_pos h, hdecimal]
  rfl

theorem tail_future (h : request.subtypeKey texts = "future_contract") :
    request.tail texts = [compact (request.expiry.getD "").toList] := by
  unfold Request.tail
  rw [if_pos (dated_future h), if_neg (by rw [h]; decide)]
  rfl

theorem tail_undated (h : ¬ Dated (request.subtypeKey texts)) : request.tail texts = [] := by
  unfold Request.tail
  rw [if_neg h, if_neg (fun hoption => h (Or.inr hoption))]
  rfl

theorem dot_notMem_expiry {day : Date} (h : request.day = some day) :
    '.' ∉ compact (request.expiry.getD "").toList := by
  obtain ⟨text, htext, hday⟩ := Option.bind_eq_some_iff.mp h
  rw [htext]
  intro hmem
  rcases letter_of_iso hday (List.mem_of_mem_filter hmem) with hdigit | hdash | hweek
  · exact absurd hdigit (by decide)
  · exact absurd hdash (by decide)
  · exact absurd hweek (by decide)

theorem base_of_same {a b : Request} (h : SameInstrument texts a b) :
    a.base texts = b.base texts := by
  unfold Request.base
  rw [h.market, h.venue, h.subtype, h.symbol]

theorem fields_of_same {a b : Request} {idA idB : String} (ha : Reads texts a idA)
    (hb : Reads texts b idB) (h : SameInstrument texts a b) (halike : SpelledAlike texts a b) :
    a.fields texts = b.fields texts := by
  rw [fields_eq, fields_eq, base_of_same h]
  congr 1
  by_cases hdated : Dated (a.subtypeKey texts)
  · have hexpiry := halike.expiry hdated
    rcases hdated with hfuture | hoption
    · rw [tail_future hfuture, tail_future (h.subtype ▸ hfuture), hexpiry]
    · obtain ⟨x, hx⟩ := ha.strike hoption
      obtain ⟨y, hy⟩ := hb.strike (h.subtype ▸ hoption)
      have hvalue := h.strike hoption
      have hplaces := halike.strike hoption
      rw [hx, hy] at hvalue hplaces
      have htext : x.plainText = y.plainText :=
        Decimal.plainText_inj.mpr ⟨Option.some.inj hvalue, Option.some.inj hplaces⟩
      rw [tail_option hoption hx, tail_option (h.subtype ▸ hoption) hy, hexpiry, htext,
        h.right hoption]
  · rw [tail_undated hdated, tail_undated (h.subtype ▸ hdated)]

theorem alike_of_same {a b : Request} {idA idB : String} (ha : Reads texts a idA)
    (hb : Reads texts b idB) (h : SameInstrument texts a b) (hid : idA = idB) :
    SpelledAlike texts a b := by
  have htail : pieces '.' (a.tail texts) = pieces '.' (b.tail texts) := by
    have hjoin : join '.' (a.fields texts) = join '.' (b.fields texts) := by
      rw [← ha.text, ← hb.text, hid]
    rw [join_eq_iff_pieces (fields_ne_nil a) (fields_ne_nil b), fields_eq, fields_eq,
      base_of_same h] at hjoin
    exact pieces_append_cancel hjoin
  by_cases hdated : Dated (a.subtypeKey texts)
  · rcases hdated with hfuture | hoption
    · rw [tail_future hfuture, tail_future (h.subtype ▸ hfuture)] at htail
      exact ⟨fun _ => pieces_singleton_inj htail,
        fun hoption => absurd (hfuture.symm.trans hoption) (by decide)⟩
    · obtain ⟨x, hx⟩ := ha.strike hoption
      obtain ⟨y, hy⟩ := hb.strike (h.subtype ▸ hoption)
      obtain ⟨dayA, hdayA⟩ := ha.expiry (Or.inr hoption)
      obtain ⟨dayB, hdayB⟩ := hb.expiry (Or.inr (h.subtype ▸ hoption))
      rw [tail_option hoption hx, tail_option (h.subtype ▸ hoption) hy, h.right hoption] at htail
      unfold pieces at htail
      simp only [List.flatMap_cons, List.splitOn_eq_singleton (dot_notMem_expiry hdayA),
        List.splitOn_eq_singleton (dot_notMem_expiry hdayB)] at htail
      obtain ⟨hexpiry, hrest⟩ := List.cons.inj htail
      have hstrike : x.plainText = y.plainText := by
        have hsingle : pieces '.' [x.plainText] = pieces '.' [y.plainText] := by
          unfold pieces
          simpa using List.append_cancel_right hrest
        exact pieces_singleton_inj hsingle
      refine ⟨fun _ => hexpiry, fun _ => ?_⟩
      rw [hx, hy]
      exact congrArg some (Decimal.plainText_inj.mp hstrike).2
  · exact ⟨fun hin => absurd hin hdated, fun hoption => absurd (Or.inr hoption) hdated⟩

theorem length_base (request : Request) : (request.base texts).length = 4 := rfl

/-- Equal fields are those of one instrument, unless two subtypes share a token. -/
theorem same_of_fields {a b : Request} {idA idB : String} (ha : Reads texts a idA)
    (hb : Reads texts b idB) (h : a.fields texts = b.fields texts) :
    SameInstrument texts a b ∨ TokensClash texts a b := by
  rw [fields_eq, fields_eq] at h
  obtain ⟨hbase, htail⟩ := List.append_inj h (by rw [length_base, length_base])
  unfold Request.base at hbase
  rw [List.map_inj_right (fun _ _ => String.toList_inj.mp)] at hbase
  simp only [List.cons.injEq, and_true] at hbase
  obtain ⟨hmarket, hvenue, htoken, hsymbol⟩ := hbase
  by_cases hsubtype : a.subtypeKey texts = b.subtypeKey texts
  · left
    by_cases hdated : Dated (a.subtypeKey texts)
    · obtain ⟨dayA, hdayA⟩ := ha.expiry hdated
      obtain ⟨dayB, hdayB⟩ := hb.expiry (hsubtype ▸ hdated)
      have hdays : compact (a.expiry.getD "").toList = compact (b.expiry.getD "").toList →
          a.day = b.day := by
        intro hcompact
        obtain ⟨textA, htextA, hreadA⟩ := Option.bind_eq_some_iff.mp hdayA
        obtain ⟨textB, htextB, hreadB⟩ := Option.bind_eq_some_iff.mp hdayB
        rw [htextA, htextB] at hcompact
        rw [hdayA, hdayB, eq_of_compact hreadA hreadB hcompact]
      rcases hdated with hfuture | hoption
      · rw [tail_future hfuture, tail_future (hsubtype ▸ hfuture)] at htail
        have hnot : a.subtypeKey texts ≠ "option" := by
          rw [hfuture]
          decide
        exact ⟨hmarket, hvenue, hsubtype, hsymbol, fun _ => hdays (List.cons.inj htail).1,
          fun hin => absurd hin hnot, fun hin => absurd hin hnot⟩
      · obtain ⟨x, hx⟩ := ha.strike hoption
        obtain ⟨y, hy⟩ := hb.strike (hsubtype ▸ hoption)
        rw [tail_option hoption hx, tail_option (hsubtype ▸ hoption) hy] at htail
        simp only [List.cons.injEq, and_true] at htail
        obtain ⟨hexpiry, hstrike, hright⟩ := htail
        refine ⟨hmarket, hvenue, hsubtype, hsymbol, fun _ => hdays hexpiry, fun _ => ?_,
          fun _ => String.toList_inj.mp hright⟩
        rw [hx, hy]
        exact congrArg some (Decimal.plainText_inj.mp hstrike).1
    · exact ⟨hmarket, hvenue, hsubtype, hsymbol, fun hin => absurd hin hdated,
        fun hin => absurd (Or.inr hin) hdated, fun hin => absurd (Or.inr hin) hdated⟩
  · right
    -- the number of the fields tells the two dated subtypes from all others
    have hlength : ∀ {request : Request} {id : String}, Reads texts request id →
        (request.tail texts).length =
          if request.subtypeKey texts = "option" then 3
          else if request.subtypeKey texts = "future_contract" then 1 else 0 := by
      intro request id hreads
      by_cases hoption : request.subtypeKey texts = "option"
      · obtain ⟨x, hx⟩ := hreads.strike hoption
        rw [if_pos hoption, tail_option hoption hx]
        rfl
      · rw [if_neg hoption]
        by_cases hfuture : request.subtypeKey texts = "future_contract"
        · rw [if_pos hfuture, tail_future hfuture]
          rfl
        · rw [if_neg hfuture, tail_undated (not_or.mpr ⟨hfuture, hoption⟩)]
          rfl
    have heq := congrArg List.length htail
    rw [hlength ha, hlength hb] at heq
    refine ⟨hmarket, hvenue, hsubtype, htoken, hsymbol, ?_⟩
    unfold Dated
    grind

/-! ## When ids stand for instruments -/

/-- Two accepted requests have one id exactly if they denote one instrument, provided that one
instrument is spelled alike, that no two subtypes share a token, and that no dot moves from one
field to another; and only then. -/
theorem contractId_iff (texts : Texts) {a b : Request} {idA idB : String}
    (ha : instrumentContractId texts a = .ok idA) (hb : instrumentContractId texts b = .ok idB) :
    (idA = idB ↔ SameInstrument texts a b) ↔
      (SameInstrument texts a b → SpelledAlike texts a b) ∧ ¬ TokensClash texts a b ∧
        ¬ Regrouped '.' (a.fields texts) (b.fields texts) := by
  have hreadsA := reads_of_ok ha
  have hreadsB := reads_of_ok hb
  have hid : idA = idB ↔
      a.fields texts = b.fields texts ∨ Regrouped '.' (a.fields texts) (b.fields texts) := by
    rw [← join_eq_join_iff (fields_ne_nil a) (fields_ne_nil b), ← hreadsA.text, ← hreadsB.text]
    exact String.toList_inj.symm
  constructor
  · intro h
    refine ⟨fun hsame => alike_of_same hreadsA hreadsB hsame (h.mpr hsame), fun hclash => ?_,
      fun hregrouped => ?_⟩
    · have hfields : a.fields texts = b.fields texts := by
        rw [fields_eq, fields_eq, tail_undated hclash.undated.1, tail_undated hclash.undated.2]
        unfold Request.base
        rw [hclash.market, hclash.venue, hclash.token, hclash.symbol]
      exact hclash.subtype (h.mp (hid.mpr (.inl hfields))).subtype
    · have hboth := hid.mpr (.inr hregrouped)
      have hsame := h.mp hboth
      exact hregrouped.1
        (fields_of_same hreadsA hreadsB hsame (alike_of_same hreadsA hreadsB hsame hboth))
  · rintro ⟨halike, hclash, hregrouped⟩
    constructor
    · intro hboth
      rcases hid.mp hboth with hfields | hmoved
      · exact (same_of_fields hreadsA hreadsB hfields).resolve_right hclash
      · exact absurd hmoved hregrouped
    · intro hsame
      exact hid.mpr (.inl (fields_of_same hreadsA hreadsB hsame (halike hsame)))

/-- The texts that the samples are read with: their letters are ASCII letters. -/
def asciiTexts : Texts :=
  ⟨fun text => String.ofList (Decimals.strip text.toList),
    fun text => String.ofList (text.toList.map Char.toUpper),
    fun text => String.ofList (text.toList.map Char.toLower)⟩

def sampleOption (expiry strike : String) : Request :=
  { market := "CN", venue := "CFFEX", subtype := "option", canonicalSymbol := "IO2612",
    expiry := some expiry, strike := some strike, right := some "call" }

theorem contractId_iff_sample :
    ("CN.CFFEX.OPTION.IO2612.20261218.4000.CALL" = "CN.CFFEX.OPTION.IO2612.20261218.4000.CALL" ↔
        SameInstrument asciiTexts (sampleOption "2026-12-18" "4000")
          (sampleOption "20261218" "4E+3")) ↔
      (SameInstrument asciiTexts (sampleOption "2026-12-18" "4000")
          (sampleOption "20261218" "4E+3") →
        SpelledAlike asciiTexts (sampleOption "2026-12-18" "4000")
          (sampleOption "20261218" "4E+3")) ∧
      ¬ TokensClash asciiTexts (sampleOption "2026-12-18" "4000")
          (sampleOption "20261218" "4E+3") ∧
        ¬ Regrouped '.' ((sampleOption "2026-12-18" "4000").fields asciiTexts)
          ((sampleOption "20261218" "4E+3").fields asciiTexts) :=
  contractId_iff asciiTexts (by decide +kernel) (by decide +kernel)

def sampleShare (market venue subtype : String) : Request :=
  { market := market, venue := venue, subtype := subtype, canonicalSymbol := "600000" }

/-- A strike of `3.5` and one of `3.50` give different ids, and so do a date and its week date; a
common stock and an instrument of the subtype `equity` share one, and so do a venue with a dot and
a market with one. -/
theorem ids_miss_instruments :
    (instrumentContractId asciiTexts (sampleOption "2026-12-18" "3.5") =
        .ok "CN.CFFEX.OPTION.IO2612.20261218.3.5.CALL" ∧
      instrumentContractId asciiTexts (sampleOption "2026-W51-5" "3.50") =
        .ok "CN.CFFEX.OPTION.IO2612.2026W515.3.50.CALL" ∧
      SameInstrument asciiTexts (sampleOption "2026-12-18" "3.5")
        (sampleOption "2026-W51-5" "3.50")) ∧
    (instrumentContractId asciiTexts (sampleShare "CN" "XSHG" "common_stock") =
        .ok "CN.XSHG.EQUITY.600000" ∧
      instrumentContractId asciiTexts (sampleShare "CN" "XSHG" "equity") =
        .ok "CN.XSHG.EQUITY.600000" ∧
      ¬ SameInstrument asciiTexts (sampleShare "CN" "XSHG" "common_stock")
        (sampleShare "CN" "XSHG" "equity")) ∧
    (instrumentContractId asciiTexts (sampleShare "CN.A" "B" "etf") = .ok "CN.A.B.ETF.600000" ∧
      instrumentContractId asciiTexts (sampleShare "CN" "A.B" "etf") = .ok "CN.A.B.ETF.600000" ∧
      ¬ SameInstrument asciiTexts (sampleShare "CN.A" "B" "etf")
        (sampleShare "CN" "A.B" "etf")) := by
  refine ⟨⟨by decide +kernel, by decide +kernel, ?_⟩, ⟨by decide +kernel, by decide +kernel, ?_⟩,
    by decide +kernel, by decide +kernel, ?_⟩
  · exact ⟨by decide +kernel, by decide +kernel, by decide +kernel, by decide +kernel,
      fun _ => by decide +kernel, fun _ => by decide +kernel, fun _ => by decide +kernel⟩
  · intro hsame
    exact absurd hsame.subtype (by decide +kernel)
  · intro hsame
    exact absurd hsame.market (by decide +kernel)

end LocalPlatform.Instruments
