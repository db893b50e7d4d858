import LocalPlatform.Lib.Results
import LocalPlatform.Lib.Rows
import LocalPlatform.Paper.Values
import LocalPlatform.Research.CappedWeights

/-!
# Factor portfolios

* `constructFactorPortfolio` takes the best names of some scores, and for `long_short` the worst ones
  as well.  The weights of a side are shared out by `cappedWeights`.
* `portfolio_sound`: the weights of an accepted call make up the exposure of each side, stay under
  the cap and follow the scores, up to the tolerance of the loop.  Only `long_short` has a short side.
* `long_only_and_tolerance`: the other methods leave the short side out, and the tolerance lets a
  weight above the cap through.
-/

namespace LocalPlatform.Research.Factors

open Paper Results Tables

variable {K : Type} [Field K] [LinearOrder K]

/-! ## Records -/

/-- A value of a record. -/
inductive Cell (K : Type) where
  | notNumeric
  | notFinite
  | number (value : K)
  deriving DecidableEq

/-- A record.  A field can be missing. -/
structure Record (K : Type) where
  symbol : String
  score : Option (Cell K)
  value : Option (Cell K)
  deriving DecidableEq

/-- `_finite` -/
def finite (cell : Option (Cell K)) (field : String) : Except String K :=
  match cell with
  | some (.number value) => .ok value
  | some .notFinite => .error (field ++ " must be finite.")
  | _ => .error (field ++ " must be numeric.")

def scoreOf (record : Record K) : Except String (Entry String K) :=
  (finite (record.score.or record.value) "score").map
    (fun score => (upper (strip record.symbol), score))

inductive Method where
  | equalTop
  | scoreWeighted
  | rankWeighted
  | longShort
  deriving DecidableEq

def methodOf (name : String) : Option Method :=
  [("equal_top", Method.equalTop), ("score_weighted", .scoreWeighted),
    ("rank_weighted", .rankWeighted), ("long_short", .longShort)].lookup name

structure Settings (K : Type) where
  method : String
  topN : ℤ
  bottomN : ℤ
  grossExposure : K
  netExposure : K
  maxWeight : K
  deriving DecidableEq

/-! ## The sides -/

/-- `_capped_weights`, in the order of the raw weights -/
def cappedWeights (raw : List (Entry String K)) (target maximum : K) :
    Except String (List (Entry String K)) :=
  if target ≤ tiny then .ok (raw.map (fun entry => (entry.1, 0)))
  else if raw.length * maximum + tolerance < target then
    .error "maxWeight is too small for the selected holdings and target exposure."
  else
    let assigned := (fill maximum raw.length raw target).get
      (fill_isSome maximum raw.length raw target le_rfl)
    .ok (raw.map (fun entry =>
      (entry.1, ((assigned.find? (fun other => other.1.1 = entry.1)).map Prod.snd).getD 0)))

def byScore (scored : List (Entry String K)) : List (Entry String K) :=
  orderBy (fun entry => OrderDual.toDual entry.2) scored

def longCount (method : Method) (topN : ℤ) (count : ℕ) : ℕ :=
  (max 1 (min topN (if method = .longShort then count / 2 else count))).toNat

def shortCount (bottomN : ℤ) (count longs : ℕ) : ℕ :=
  (max 1 (min bottomN ((count : ℤ) - longs))).toNat

def floorOf (scores : List K) : K := (scores.min?).getD 0

def aboveFloor (entries : List (Entry String K)) : List (Entry String K) :=
  let floor := floorOf (entries.map Prod.snd)
  entries.map (fun entry => (entry.1, max (entry.2 - floor) 0))

/-- The raw weights of the long names. -/
def longRaw (method : Method) (selected : List (Entry String K)) : List (Entry String K) :=
  match method with
  | .equalTop => selected.map (fun entry => (entry.1, 1))
  | .rankWeighted =>
    selected.zipIdx.map (fun entry => (entry.1.1, (selected.length : K) - entry.2))
  | _ => aboveFloor selected

/-- The raw weights of the short names, the worst one first. -/
def shortRaw (selected : List (Entry String K)) : List (Entry String K) :=
  aboveFloor (selected.reverse.map (fun entry => (entry.1, -entry.2)))

/-- The weights of both sides. -/
def sideWeights (settings : Settings K) (method : Method) (scored : List (Entry String K)) :
    Except String (List (Entry String K) × List (Entry String K)) := do
  let longTarget := (settings.grossExposure + settings.netExposure) / 2
  let shortTarget := (settings.grossExposure - settings.netExposure) / 2
  require (¬ (method = .longShort ∧ scored.length < 2))
    "long_short construction requires at least two symbols."
  let selectedLongs := scored.take (longCount method settings.topN scored.length)
  let longs ← cappedWeights (longRaw method selectedLongs) longTarget settings.maxWeight
  if method = .longShort ∧ 0 < shortTarget then
    let count := shortCount settings.bottomN scored.length selectedLongs.length
    let shorts ← cappedWeights (shortRaw (lastOf count scored)) shortTarget settings.maxWeight
    return (longs, shorts.map (fun entry => (entry.1, -entry.2)))
  else return (longs, [])

/-! ## The portfolio -/

structure Portfolio (K : Type) where
  method : String
  grossExposure : K
  netExposure : K
  maxWeight : K
  count : ℕ
  weights : List (Entry String K)
  deriving DecidableEq

/-- The scores of the records, the best one first. -/
def scoredRecords (records : List (Record K)) : Except String (List (Entry String K)) := do
  let scored ← records.mapM scoreOf
  require ((∀ entry ∈ scored, entry.1 ≠ "") ∧ (scored.map Prod.fst).Nodup)
    "Portfolio records require unique, non-empty symbols."
  return byScore scored

/-- `construct_factor_portfolio` -/
def constructFactorPortfolio (records : List (Record K)) (settings : Settings K) :
    Except String (Portfolio K) := do
  let method ← orThrow (methodOf settings.method)
    ("Unknown portfolio construction method: " ++ settings.method ++ ".")
  require (records ≠ []) "At least one scored factor record is required."
  require (0 < settings.grossExposure ∧ |settings.netExposure| ≤ settings.grossExposure)
    "grossExposure must be positive and abs(netExposure) cannot exceed it."
  require (0 < settings.maxWeight ∧ settings.maxWeight ≤ settings.grossExposure)
    "maxWeight must be positive and no greater than grossExposure."
  let scored ← scoredRecords records
  let sides ← sideWeights settings method scored
  let ordered := byScore (sides.1 ++ sides.2)
  let kept := ordered.filter (fun entry => tiny < |entry.2|)
  return {
    method := settings.method
    grossExposure := (ordered.map (fun entry => |entry.2|)).sum
    netExposure := (ordered.map Prod.snd).sum
    maxWeight := settings.maxWeight
    count := kept.length
    weights := kept }

/-! ## One side -/

section Sides

variable [IsStrictOrderedRing K] {raw weights scored selected : List (Entry String K)}
  {target maximum : K} {method : Method}

/-- What the weights of a side promise. -/
structure Side (raw : List (Entry String K)) (target maximum : K)
    (weights : List (Entry String K)) : Prop where
  names : weights.map Prod.fst = raw.map Prod.fst
  total : |(weights.map Prod.snd).sum - target| ≤ tolerance
  bounds : ∀ entry ∈ weights, 0 ≤ entry.2 ∧ entry.2 ≤ maximum + tolerance
  ordered : ∀ better ∈ raw, ∀ worse ∈ raw, worse.2 ≤ better.2 →
    ∀ v w, (better.1, v) ∈ weights → (worse.1, w) ∈ weights → w ≤ v + tolerance

theorem tiny_le_tolerance : (tiny : K) ≤ tolerance := by
  unfold tiny tolerance
  apply one_div_le_one_div_of_le (by positivity)
  exact pow_le_pow_right₀ (by norm_num) (by norm_num)

omit [LinearOrder K] [IsStrictOrderedRing K] in
theorem find_assigned {assigned : List (Assigned String K)}
    (hnodup : (assigned.map (fun x => x.1.1)).Nodup) {x : Assigned String K} (hx : x ∈ assigned) :
    ((assigned.find? (fun other => other.1.1 = x.1.1)).map Prod.snd).getD 0 = x.2 := by
  have hunique : Tables.Unique (fun x : Assigned String K => x.1.1) assigned := hnodup
  have hfind := hunique.find_of_mem hx
  have hsame : assigned.find? (fun other => other.1.1 = x.1.1) = some x := by
    rw [← hfind]
    unfold find
    congr 1
  rw [hsame]
  rfl

omit [IsStrictOrderedRing K] in
theorem side_of_filled (hnodup : (raw.map Prod.fst).Nodup) {assigned : List (Assigned String K)}
    (h : Filled maximum raw target assigned) :
    Side raw target maximum (raw.map (fun entry =>
      (entry.1, ((assigned.find? (fun other => other.1.1 = entry.1)).map Prod.snd).getD 0))) := by
  have hkeys : (assigned.map (fun x => x.1.1)).Nodup := by
    have hperm := h.names.map Prod.fst
    rw [List.map_map] at hperm
    exact hperm.nodup_iff.mpr hnodup
  -- the assigned names in the order of the raw weights
  have hperm : (raw.map (fun entry => (entry.1,
      ((assigned.find? (fun other => other.1.1 = entry.1)).map Prod.snd).getD 0))).Perm
      (assigned.map (fun x => (x.1.1, x.2))) := by
    refine (h.names.symm.map _).trans ?_
    rw [List.map_map]
    apply List.Perm.of_eq
    apply List.map_congr_left
    intro x hx
    exact congrArg (fun w => (x.1.1, w)) (find_assigned hkeys hx)
  have hmem : ∀ {name : String} {w : K}, (name, w) ∈ raw.map (fun entry => (entry.1,
      ((assigned.find? (fun other => other.1.1 = entry.1)).map Prod.snd).getD 0)) →
      ∃ x ∈ assigned, x.1.1 = name ∧ x.2 = w := by
    intro name w hin
    obtain ⟨x, hx, heq⟩ := List.mem_map.mp (hperm.mem_iff.mp hin)
    exact ⟨x, hx, (Prod.mk.inj heq).1, (Prod.mk.inj heq).2⟩
  refine ⟨by simp [Function.comp_def], ?_, ?_, ?_⟩
  · rw [(hperm.map Prod.snd).sum_eq, List.map_map]
    exact h.total
  · rintro ⟨name, w⟩ hin
    obtain ⟨x, hx, _, rfl⟩ := hmem hin
    exact h.bounds x hx
  · intro better hbetter worse hworse hraw v w hv hw
    obtain ⟨x, hx, hxname, rfl⟩ := hmem hv
    obtain ⟨y, hy, hyname, rfl⟩ := hmem hw
    have hunique : Tables.Unique Prod.fst raw := hnodup
    have hxraw : x.1 = better :=
      hunique.eq (h.names.mem_iff.mp (List.mem_map_of_mem hx)) hbetter hxname
    have hyraw : y.1 = worse :=
      hunique.eq (h.names.mem_iff.mp (List.mem_map_of_mem hy)) hworse hyname
    exact h.ordered x hx y hy (by rw [hxraw, hyraw]; exact hraw)

theorem side_of_ok (hnodup : (raw.map Prod.fst).Nodup) (hmax : 0 ≤ maximum) (htarget : 0 ≤ target)
    (h : cappedWeights raw target maximum = .ok weights) : Side raw target maximum weights := by
  have htolerance : 0 < (tolerance : K) := tolerance_pos
  unfold cappedWeights at h
  split_ifs at h with hsmall hroom
  · rw [← Except.ok.inj h]
    have hzero : ∀ entry ∈ raw.map (fun entry => (entry.1, (0 : K))), entry.2 = 0 := by
      intro entry hentry
      obtain ⟨_, _, rfl⟩ := List.mem_map.mp hentry
      rfl
    refine ⟨by simp [Function.comp_def], ?_, ?_, ?_⟩
    · have hsum : ((raw.map (fun entry => (entry.1, (0 : K)))).map Prod.snd).sum = 0 := by
        simp [Function.comp_def]
      rw [hsum, zero_sub, abs_neg, abs_of_nonneg htarget]
      exact hsmall.trans tiny_le_tolerance
    · intro entry hentry
      rw [hzero entry hentry]
      exact ⟨le_rfl, by linarith⟩
    · intro better _ worse _ _ v w hv hw
      have hv' := hzero _ hv
      have hw' := hzero _ hw
      dsimp only at hv' hw'
      linarith
  · rw [← Except.ok.inj h]
    obtain ⟨assigned, hassigned⟩ := Option.isSome_iff_exists.mp
      (fill_isSome maximum raw.length raw target le_rfl)
    have hfilled := filled_of_fill hmax raw.length htarget (not_lt.mp hroom) hassigned
    simp only [hassigned, Option.get_some]
    exact side_of_filled hnodup hfilled

theorem sum_kept (h : Side raw target maximum weights) :
    |((weights.filter (fun entry => tiny < entry.2)).map Prod.snd).sum - target| ≤
      tolerance + weights.length * tiny := by
  have htiny : 0 < (tiny : K) := tiny_pos
  have hsplit : ((weights.filter (fun entry => tiny < entry.2)).map Prod.snd).sum +
      ((weights.filter (fun entry => ¬ tiny < entry.2)).map Prod.snd).sum =
      (weights.map Prod.snd).sum := by
    rw [← List.sum_append, ← List.map_append]
    apply List.Perm.sum_eq
    apply List.Perm.map
    simp only [decide_not]
    exact List.filter_append_perm _ weights
  have hlow : 0 ≤ ((weights.filter (fun entry => ¬ tiny < entry.2)).map Prod.snd).sum := by
    apply List.sum_nonneg
    intro x hx
    obtain ⟨entry, hentry, rfl⟩ := List.mem_map.mp hx
    exact (h.bounds entry (List.mem_filter.mp hentry).1).1
  have hhigh : ((weights.filter (fun entry => ¬ tiny < entry.2)).map Prod.snd).sum ≤
      weights.length * tiny := by
    have hle := List.sum_le_card_nsmul
      ((weights.filter (fun entry => ¬ tiny < entry.2)).map Prod.snd) tiny (by
        intro x hx
        obtain ⟨entry, hentry, rfl⟩ := List.mem_map.mp hx
        exact not_lt.mp (of_decide_eq_true (List.mem_filter.mp hentry).2))
    rw [List.length_map, nsmul_eq_mul] at hle
    have hlength : ((weights.filter (fun entry => ¬ tiny < entry.2)).length : K) ≤
        weights.length := by
      exact_mod_cast List.length_filter_le _ weights
    have hmul := mul_le_mul_of_nonneg_right hlength htiny.le
    linarith
  have htotal := h.total
  rw [abs_le] at htotal ⊢
  constructor <;> linarith

/-! ### Raw weights -/

omit [IsStrictOrderedRing K] in
theorem mem_aboveFloor {entry : Entry String K} (h : entry ∈ aboveFloor selected) :
    ∃ score, (entry.1, score) ∈ selected ∧
      entry.2 = max (score - floorOf (selected.map Prod.snd)) 0 := by
  obtain ⟨original, horiginal, rfl⟩ := List.mem_map.mp h
  exact ⟨original.2, horiginal, rfl⟩

theorem aboveFloor_mono (hnodup : (selected.map Prod.fst).Nodup) {x y : Entry String K}
    (hx : x ∈ aboveFloor selected) (hy : y ∈ aboveFloor selected) {s t : K}
    (hs : (x.1, s) ∈ selected) (ht : (y.1, t) ∈ selected) (hle : t ≤ s) : y.2 ≤ x.2 := by
  have hunique : Tables.Unique Prod.fst selected := hnodup
  obtain ⟨s', hs', hx'⟩ := mem_aboveFloor hx
  obtain ⟨t', ht', hy'⟩ := mem_aboveFloor hy
  have hss : s' = s := congrArg Prod.snd (hunique.eq hs' hs rfl)
  have htt : t' = t := congrArg Prod.snd (hunique.eq ht' ht rfl)
  rw [hx', hy', hss, htt]
  exact max_le_max (sub_le_sub_right hle _) le_rfl

omit [IsStrictOrderedRing K] in
theorem names_aboveFloor (selected : List (Entry String K)) :
    (aboveFloor selected).map Prod.fst = selected.map Prod.fst := by
  unfold aboveFloor
  simp [Function.comp_def]

omit [IsStrictOrderedRing K] in
theorem names_longRaw (method : Method) (selected : List (Entry String K)) :
    (longRaw method selected).map Prod.fst = selected.map Prod.fst := by
  unfold longRaw
  cases method with
  | equalTop => simp [Function.comp_def]
  | scoreWeighted => exact names_aboveFloor selected
  | longShort => exact names_aboveFloor selected
  | rankWeighted =>
    dsimp only
    have hzip : (selected.zipIdx.map Prod.fst).map Prod.fst = selected.map Prod.fst := by
      rw [List.zipIdx_map_fst]
    rw [List.map_map] at hzip ⊢
    exact hzip

theorem longRaw_mono (hnodup : (selected.map Prod.fst).Nodup)
    (hsorted : selected.Pairwise (fun a b => b.2 ≤ a.2)) {x y : Entry String K}
    (hx : x ∈ longRaw method selected) (hy : y ∈ longRaw method selected) {s t : K}
    (hs : (x.1, s) ∈ selected) (ht : (y.1, t) ∈ selected) (hlt : t < s) : y.2 ≤ x.2 := by
  have hunique : Tables.Unique Prod.fst selected := hnodup
  unfold longRaw at hx hy
  cases method with
  | equalTop =>
    obtain ⟨_, _, rfl⟩ := List.mem_map.mp hx
    obtain ⟨_, _, rfl⟩ := List.mem_map.mp hy
    exact le_rfl
  | scoreWeighted => exact aboveFloor_mono hnodup hx hy hs ht hlt.le
  | longShort => exact aboveFloor_mono hnodup hx hy hs ht hlt.le
  | rankWeighted =>
    obtain ⟨⟨a, i⟩, ha, rfl⟩ := List.mem_map.mp hx
    obtain ⟨⟨b, j⟩, hb, rfl⟩ := List.mem_map.mp hy
    have hi := List.mem_zipIdx_iff_getElem?.mp ha
    have hj := List.mem_zipIdx_iff_getElem?.mp hb
    have has : a = (a.1, s) := hunique.eq (List.mem_of_getElem? hi) hs rfl
    have hbt : b = (b.1, t) := hunique.eq (List.mem_of_getElem? hj) ht rfl
    have hij : i ≤ j := by
      by_contra hgt
      obtain ⟨hi', hi''⟩ := List.getElem?_eq_some_iff.mp hi
      obtain ⟨hj', hj''⟩ := List.getElem?_eq_some_iff.mp hj
      have hpair := List.pairwise_iff_getElem.mp hsorted j i hj' hi' (by omega)
      dsimp only at hi'' hj''
      rw [hi'', hj'', has, hbt] at hpair
      exact absurd hlt hpair.not_gt
    have hcast : (i : K) ≤ j := by exact_mod_cast hij
    dsimp only
    linarith

omit [IsStrictOrderedRing K] in
theorem names_shortRaw (selected : List (Entry String K)) :
    (shortRaw selected).map Prod.fst = (selected.map Prod.fst).reverse := by
  unfold shortRaw
  rw [names_aboveFloor]
  simp [Function.comp_def, List.map_reverse]

theorem shortRaw_mono (hnodup : (selected.map Prod.fst).Nodup) {x y : Entry String K}
    (hx : x ∈ shortRaw selected) (hy : y ∈ shortRaw selected) {s t : K}
    (hs : (x.1, s) ∈ selected) (ht : (y.1, t) ∈ selected) (hlt : t < s) : x.2 ≤ y.2 := by
  have hnegated : ((selected.reverse.map (fun entry => (entry.1, -entry.2))).map Prod.fst).Nodup := by
    simpa [Function.comp_def, List.map_reverse] using hnodup
  have hmem : ∀ {name : String} {score : K}, (name, score) ∈ selected →
      (name, -score) ∈ selected.reverse.map (fun entry => (entry.1, -entry.2)) := by
    intro name score h
    exact List.mem_map.mpr ⟨(name, score), List.mem_reverse.mpr h, rfl⟩
  exact aboveFloor_mono hnegated hy hx (hmem ht) (hmem hs) (neg_le_neg hlt.le)

/-! ### Both sides -/

omit [Field K] [IsStrictOrderedRing K] in
theorem byScore_sorted (scored : List (Entry String K)) :
    (byScore scored).Pairwise (fun a b => b.2 ≤ a.2) :=
  orderBy_sorted (fun entry : Entry String K => OrderDual.toDual entry.2) scored

omit [Field K] [IsStrictOrderedRing K] in
theorem mem_take_of_lt (hsorted : scored.Pairwise (fun a b => b.2 ≤ a.2)) {count : ℕ}
    {better worse : Entry String K} (hbetter : better ∈ scored) (hworse : worse ∈ scored.take count)
    (hlt : worse.2 < better.2) : better ∈ scored.take count := by
  rw [← List.take_append_drop count scored] at hsorted hbetter
  rcases List.mem_append.mp hbetter with htake | hdrop
  · exact htake
  · have hle := (List.pairwise_append.mp hsorted).2.2 worse hworse better hdrop
    exact absurd hlt hle.not_gt

omit [Field K] [IsStrictOrderedRing K] in
theorem mem_lastOf_of_lt (hsorted : scored.Pairwise (fun a b => b.2 ≤ a.2)) {count : ℕ}
    {better worse : Entry String K} (hbetter : better ∈ lastOf count scored) (hworse : worse ∈ scored)
    (hlt : worse.2 < better.2) : worse ∈ lastOf count scored := by
  unfold lastOf at hbetter ⊢
  rw [← List.take_append_drop (scored.length - count) scored] at hsorted hworse
  rcases List.mem_append.mp hworse with htake | hdrop
  · have hle := (List.pairwise_append.mp hsorted).2.2 worse htake better hbetter
    exact absurd hlt hle.not_gt
  · exact hdrop

/-- The two sides of a portfolio, with the weights of the short one before their sign is changed. -/
structure Parts (settings : Settings K) (method : Method) (scored : List (Entry String K))
    (bottom : ℕ) (longs shorts : List (Entry String K)) : Prop where
  long : Side (longRaw method (scored.take (longCount method settings.topN scored.length)))
    ((settings.grossExposure + settings.netExposure) / 2) settings.maxWeight longs
  short : Side (shortRaw (lastOf bottom scored))
    (if method = .longShort then (settings.grossExposure - settings.netExposure) / 2 else 0)
    settings.maxWeight shorts
  apart : longCount method settings.topN scored.length + bottom ≤ scored.length
  longOnly : method ≠ .longShort → bottom = 0

omit [Field K] [LinearOrder K] [IsStrictOrderedRing K] in
theorem nodup_take (hnodup : (scored.map Prod.fst).Nodup) (count : ℕ) :
    ((scored.take count).map Prod.fst).Nodup :=
  hnodup.sublist ((List.take_sublist count scored).map Prod.fst)

omit [Field K] [LinearOrder K] [IsStrictOrderedRing K] in
theorem nodup_lastOf (hnodup : (scored.map Prod.fst).Nodup) (count : ℕ) :
    ((lastOf count scored).map Prod.fst).Nodup :=
  hnodup.sublist ((List.drop_sublist _ scored).map Prod.fst)

theorem side_nil (htarget : target = 0) : Side (shortRaw (lastOf 0 scored)) target maximum [] := by
  have hnone : lastOf 0 scored = [] := by
    unfold lastOf
    simp
  refine ⟨by simp [hnone, shortRaw, aboveFloor], ?_, by simp, by simp⟩
  rw [htarget]
  simpa using tolerance_pos.le

theorem parts_of_ok {settings : Settings K} {sides : List (Entry String K) × List (Entry String K)}
    (hnodup : (scored.map Prod.fst).Nodup) (hne : scored ≠ [])
    (hnet : |settings.netExposure| ≤ settings.grossExposure) (hmax : 0 < settings.maxWeight)
    (h : sideWeights settings method scored = .ok sides) :
    ∃ bottom shorts, sides.2 = shorts.map (fun entry => (entry.1, -entry.2)) ∧
      Parts settings method scored bottom sides.1 shorts := by
  have hlength := List.length_pos_iff.mpr hne
  rw [abs_le] at hnet
  unfold sideWeights at h
  obtain ⟨_, hlong, h⟩ := bind_ok h
  rw [require_ok] at hlong
  obtain ⟨longs, hlongs, h⟩ := bind_ok h
  have hlongSide := side_of_ok (by rw [names_longRaw]; exact nodup_take hnodup _) hmax.le
    (by linarith) hlongs
  split_ifs at h with hboth
  · obtain ⟨shorts, hshorts, h⟩ := bind_ok h
    rw [← Except.ok.inj h]
    have hshortSide := side_of_ok
      (by rw [names_shortRaw, List.nodup_reverse]; exact nodup_lastOf hnodup _) hmax.le hboth.2.le
      hshorts
    refine ⟨shortCount settings.bottomN scored.length
      (scored.take (longCount method settings.topN scored.length)).length, shorts, rfl, hlongSide, 
      ?_, ?_, fun hother => absurd hboth.1 hother⟩
    · rw [if_pos hboth.1]
      exact hshortSide
    · have htwo : 2 ≤ scored.length := by
        by_contra hless
        exact hlong ⟨hboth.1, by omega⟩
      rw [List.length_take]
      unfold longCount shortCount
      rw [if_pos hboth.1]
      omega
  · rw [← Except.ok.inj h]
    refine ⟨0, [], rfl, hlongSide, side_nil ?_, ?_, fun _ => rfl⟩
    · split_ifs with hmethod
      · have hzero : ¬ 0 < (settings.grossExposure - settings.netExposure) / 2 :=
          fun hpositive => hboth ⟨hmethod, hpositive⟩
        linarith
      · rfl
    · unfold longCount
      split_ifs with hmethod
      · have htwo : 2 ≤ scored.length := by
          by_contra hless
          exact hlong ⟨hmethod, by omega⟩
        omega
      · omega

def kept (longs shorts : List (Entry String K)) : List (Entry String K) :=
  (byScore (longs ++ shorts.map (fun entry => (entry.1, -entry.2)))).filter
    (fun entry => tiny < |entry.2|)

/-- The weight of a name, nothing if it is not held. -/
def weightOf (weights : List (Entry String K)) (name : String) : K :=
  ((find Prod.fst weights name).map Prod.snd).getD 0

section Parts

variable {settings : Settings K} {bottom : ℕ} {longs shorts : List (Entry String K)}

omit [IsStrictOrderedRing K] in
theorem kept_perm (longs shorts : List (Entry String K)) :
    (kept longs shorts).Perm (longs.filter (fun entry => tiny < |entry.2|) ++
      (shorts.map (fun entry => (entry.1, -entry.2))).filter (fun entry => tiny < |entry.2|)) := by
  unfold kept byScore
  rw [← List.filter_append]
  exact (orderBy_perm _ _).filter _

variable {entry : Entry String K}

omit [IsStrictOrderedRing K] in
theorem mem_of_kept (h : entry ∈ kept longs shorts) :
    (entry ∈ longs ∨ ∃ short ∈ shorts, entry = (short.1, -short.2)) ∧ tiny < |entry.2| := by
  rcases List.mem_append.mp ((kept_perm longs shorts).mem_iff.mp h) with hlong | hshort
  · exact ⟨.inl (List.mem_filter.mp hlong).1, of_decide_eq_true (List.mem_filter.mp hlong).2⟩
  · obtain ⟨short, hin, heq⟩ := List.mem_map.mp (List.mem_filter.mp hshort).1
    exact ⟨.inr ⟨short, hin, heq.symm⟩, of_decide_eq_true (List.mem_filter.mp hshort).2⟩

theorem positive_kept (hlongs : ∀ entry ∈ longs, 0 ≤ entry.2) (hshorts : ∀ entry ∈ shorts, 0 ≤ entry.2) :
    ((kept longs shorts).filter (fun entry => 0 < entry.2)).Perm
      (longs.filter (fun entry => tiny < entry.2)) := by
  have htiny : 0 < (tiny : K) := tiny_pos
  refine ((kept_perm longs shorts).filter _).trans (List.Perm.of_eq ?_)
  have hnone : ((shorts.map (fun entry => (entry.1, -entry.2))).filter
      (fun entry => tiny < |entry.2|)).filter (fun entry => 0 < entry.2) = [] := by
    rw [List.filter_eq_nil_iff]
    intro entry hentry
    obtain ⟨original, horiginal, rfl⟩ := List.mem_map.mp (List.mem_filter.mp hentry).1
    have hnonneg := hshorts original horiginal
    simpa using hnonneg
  rw [List.filter_append, hnone, List.append_nil, List.filter_filter]
  apply List.filter_congr
  intro entry hentry
  have hnonneg := hlongs entry hentry
  rw [abs_of_nonneg hnonneg, Bool.eq_iff_iff]
  simp only [Bool.and_eq_true, decide_eq_true_eq]
  exact ⟨fun h => h.2, fun h => ⟨htiny.trans h, h⟩⟩

theorem negative_kept (hlongs : ∀ entry ∈ longs, 0 ≤ entry.2) (hshorts : ∀ entry ∈ shorts, 0 ≤ entry.2) :
    (((kept longs shorts).filter (fun entry => entry.2 < 0)).map (fun entry => -entry.2)).Perm
      ((shorts.filter (fun entry => tiny < entry.2)).map Prod.snd) := by
  have htiny : 0 < (tiny : K) := tiny_pos
  refine (((kept_perm longs shorts).filter _).map _).trans (List.Perm.of_eq ?_)
  have hnone : (longs.filter (fun entry => tiny < |entry.2|)).filter (fun entry => entry.2 < 0) =
      [] := by
    rw [List.filter_eq_nil_iff]
    intro entry hentry
    have hnonneg := hlongs entry (List.mem_filter.mp hentry).1
    simpa using hnonneg
  rw [List.filter_append, hnone, List.nil_append, List.filter_filter, List.filter_map, List.map_map]
  have hfilter : shorts.filter ((fun entry : Entry String K =>
      decide (entry.2 < 0) && decide (tiny < |entry.2|)) ∘ fun entry => (entry.1, -entry.2)) =
      shorts.filter (fun entry => tiny < entry.2) := by
    apply List.filter_congr
    intro entry hentry
    have hnonneg := hshorts entry hentry
    rw [Bool.eq_iff_iff]
    simp only [Function.comp_apply, Bool.and_eq_true, decide_eq_true_eq, abs_neg,
      abs_of_nonneg hnonneg, neg_lt_zero]
    exact ⟨fun h => h.2, fun h => ⟨htiny.trans h, h⟩⟩
  rw [hfilter]
  apply List.map_congr_left
  intro entry _
  simp

omit [IsStrictOrderedRing K] in
theorem nodup_names (h : Parts settings method scored bottom longs shorts)
    (hnodup : (scored.map Prod.fst).Nodup) :
    ((longs ++ shorts.map (fun entry => (entry.1, -entry.2))).map Prod.fst).Nodup := by
  have hshorts : (shorts.map (fun entry => (entry.1, -entry.2))).map Prod.fst =
      shorts.map Prod.fst := by
    simp [Function.comp_def]
  rw [List.map_append, hshorts, h.long.names, h.short.names, names_longRaw, names_shortRaw]
  have happart := h.apart
  set count := longCount method settings.topN scored.length with hcount
  -- the first and the last names, with what is between them
  have hsublist : (scored.take count ++ lastOf bottom scored).Sublist scored := by
    nth_rewrite 3 [← List.take_append_drop count scored]
    apply List.Sublist.append_left
    unfold lastOf
    exact List.drop_sublist_drop_left scored (by omega)
  have hboth := hnodup.sublist (hsublist.map Prod.fst)
  rw [List.map_append] at hboth
  exact ((List.reverse_perm _).append_left _).nodup_iff.mpr hboth

omit [IsStrictOrderedRing K] in
theorem nodup_kept
    (hnodup : ((longs ++ shorts.map (fun entry => (entry.1, -entry.2))).map Prod.fst).Nodup) :
    ((kept longs shorts).map Prod.fst).Nodup := by
  unfold kept byScore
  have hperm := (orderBy_perm (fun entry : Entry String K => OrderDual.toDual entry.2)
    (longs ++ shorts.map (fun entry => (entry.1, -entry.2)))).map Prod.fst
  exact (hperm.nodup_iff.mpr hnodup).sublist ((List.filter_sublist).map Prod.fst)

/-- The weight of a name before the small ones are dropped. -/
def Assigns (longs shorts : List (Entry String K)) (name : String) (w : K) : Prop :=
  (name, w) ∈ longs ++ shorts.map (fun entry => (entry.1, -entry.2)) ∨
    w = 0 ∧ name ∉ (longs ++ shorts.map (fun entry => (entry.1, -entry.2))).map Prod.fst

variable {name : String}

theorem weightOf_kept
    (hnodup : ((longs ++ shorts.map (fun entry => (entry.1, -entry.2))).map Prod.fst).Nodup) {w : K}
    (h : Assigns longs shorts name w) :
    weightOf (kept longs shorts) name = if tiny < |w| then w else 0 := by
  have htiny : 0 < (tiny : K) := tiny_pos
  have hmem : ∀ {entry : Entry String K}, entry ∈ kept longs shorts ↔
      entry ∈ longs ++ shorts.map (fun entry => (entry.1, -entry.2)) ∧ tiny < |entry.2| := by
    intro entry
    unfold kept byScore
    rw [List.mem_filter, mem_orderBy, decide_eq_true_eq]
  have hunique : Tables.Unique Prod.fst (kept longs shorts) := nodup_kept hnodup
  have hnone : (∀ w', (name, w') ∈ kept longs shorts → False) →
      weightOf (kept longs shorts) name = 0 := by
    intro hfresh
    unfold weightOf
    rw [find_eq_none_iff.mpr]
    · rfl
    · intro hin
      obtain ⟨⟨other, w'⟩, hentry, heq⟩ := List.mem_map.mp hin
      exact hfresh w' (heq ▸ hentry)
  rcases h with hin | ⟨rfl, hout⟩
  · split_ifs with hlarge
    · unfold weightOf
      rw [hunique.find_of_mem (hmem.mpr ⟨hin, hlarge⟩)]
      rfl
    · apply hnone
      intro w' hw'
      obtain ⟨hin', hlarge'⟩ := hmem.mp hw'
      have hboth : Tables.Unique Prod.fst
          (longs ++ shorts.map (fun entry => (entry.1, -entry.2))) := hnodup
      have heq : w' = w := congrArg Prod.snd (hboth.eq hin' hin rfl)
      exact hlarge (heq ▸ hlarge')
  · rw [ite_self]
    apply hnone
    intro w' hw'
    exact hout (List.mem_map_of_mem (f := Prod.fst) (hmem.mp hw').1)

theorem kept_le {v w : K} (h : w ≤ v + tolerance) :
    (if tiny < |w| then w else 0) ≤ (if tiny < |v| then v else 0) + tolerance + tiny := by
  have htolerance : 0 < (tolerance : K) := tolerance_pos
  have htiny : 0 < (tiny : K) := tiny_pos
  have hw : (if tiny < |w| then w else 0) ≤ w + (if tiny < |w| then 0 else tiny) := by
    split_ifs with hlarge
    · linarith
    · have hle := neg_abs_le w
      linarith
  have hv : v ≤ (if tiny < |v| then v else 0) + (if tiny < |v| then 0 else tiny) := by
    split_ifs with hlarge
    · linarith
    · have hle := le_abs_self v
      linarith
  split_ifs at hw hv ⊢ <;> linarith

omit [LinearOrder K] [IsStrictOrderedRing K] in
theorem assigns_eq
    (hnodup : ((longs ++ shorts.map (fun entry => (entry.1, -entry.2))).map Prod.fst).Nodup)
    {v w : K} (hw : Assigns longs shorts name w)
    (hv : (name, v) ∈ longs ++ shorts.map (fun entry => (entry.1, -entry.2))) : v = w := by
  rcases hw with hin | ⟨_, hout⟩
  · have hboth : Tables.Unique Prod.fst
        (longs ++ shorts.map (fun entry => (entry.1, -entry.2))) := hnodup
    exact congrArg Prod.snd (hboth.eq hv hin rfl)
  · exact absurd (List.mem_map_of_mem (f := Prod.fst) hv) hout

omit [IsStrictOrderedRing K] in
theorem long_of_assigns (h : Parts settings method scored bottom longs shorts)
    (hnodup : (scored.map Prod.fst).Nodup)
    (hentry : entry ∈ scored.take (longCount method settings.topN scored.length)) {w : K}
    (hw : Assigns longs shorts entry.1 w) :
    (entry.1, w) ∈ longs ∧ ∃ raw, (entry.1, raw) ∈
      longRaw method (scored.take (longCount method settings.topN scored.length)) := by
  have hraw : entry.1 ∈ (longRaw method
      (scored.take (longCount method settings.topN scored.length))).map Prod.fst := by
    rw [names_longRaw]
    exact List.mem_map_of_mem hentry
  have hname := hraw
  rw [← h.long.names] at hname
  obtain ⟨⟨name, long⟩, hlong, rfl⟩ := List.mem_map.mp hname
  obtain ⟨⟨name, raw⟩, hentryRaw, rfl⟩ := List.mem_map.mp hraw
  have heq := assigns_eq (nodup_names h hnodup) hw (List.mem_append_left _ hlong)
  exact ⟨heq ▸ hlong, raw, hentryRaw⟩

omit [IsStrictOrderedRing K] in
theorem short_of_assigns (h : Parts settings method scored bottom longs shorts)
    (hnodup : (scored.map Prod.fst).Nodup) (hentry : entry ∈ lastOf bottom scored) {w : K}
    (hw : Assigns longs shorts entry.1 w) :
    (entry.1, -w) ∈ shorts ∧ ∃ raw, (entry.1, raw) ∈ shortRaw (lastOf bottom scored) := by
  have hraw : entry.1 ∈ (shortRaw (lastOf bottom scored)).map Prod.fst := by
    rw [names_shortRaw, List.mem_reverse]
    exact List.mem_map_of_mem hentry
  have hname := hraw
  rw [← h.short.names] at hname
  obtain ⟨⟨name, short⟩, hshort, hnameEq⟩ := List.mem_map.mp hname
  obtain ⟨⟨name', raw⟩, hentryRaw, hrawEq⟩ := List.mem_map.mp hraw
  dsimp only at hnameEq hrawEq
  rw [hnameEq] at hshort
  rw [hrawEq] at hentryRaw
  have heq := assigns_eq (nodup_names h hnodup) hw
    (List.mem_append_right _ (List.mem_map.mpr ⟨(entry.1, short), hshort, rfl⟩))
  rw [← heq, neg_neg]
  exact ⟨hshort, raw, hentryRaw⟩

theorem assigns_nonpos (h : Parts settings method scored bottom longs shorts)
    (hout : name ∉ (scored.take (longCount method settings.topN scored.length)).map Prod.fst)
    {w : K} (hw : Assigns longs shorts name w) : w ≤ 0 := by
  rcases hw with hin | ⟨hzero, _⟩
  · rcases List.mem_append.mp hin with hlong | hshort
    · have hname := List.mem_map_of_mem (f := Prod.fst) hlong
      rw [h.long.names, names_longRaw] at hname
      exact absurd hname hout
    · obtain ⟨short, hshort, heq⟩ := List.mem_map.mp hshort
      have hnonneg := (h.short.bounds short hshort).1
      rw [← (Prod.mk.inj heq).2]
      exact neg_nonpos.mpr hnonneg
  · exact hzero.le

omit [IsStrictOrderedRing K] in
theorem assigns_nonneg (h : Parts settings method scored bottom longs shorts)
    (hout : name ∉ (lastOf bottom scored).map Prod.fst) {v : K} (hv : Assigns longs shorts name v) :
    0 ≤ v := by
  rcases hv with hin | ⟨hzero, _⟩
  · rcases List.mem_append.mp hin with hlong | hshort
    · exact (h.long.bounds _ hlong).1
    · obtain ⟨short, hshort, heq⟩ := List.mem_map.mp hshort
      have hname := List.mem_map_of_mem (f := Prod.fst) hshort
      rw [h.short.names, names_shortRaw, List.mem_reverse, (Prod.mk.inj heq).1] at hname
      exact absurd hname hout
  · exact hzero.ge

theorem assigns_le (h : Parts settings method scored bottom longs shorts)
    (hnodup : (scored.map Prod.fst).Nodup) (hsorted : scored.Pairwise (fun a b => b.2 ≤ a.2))
    {better worse : Entry String K} (hbetter : better ∈ scored) (hworse : worse ∈ scored)
    (hlt : worse.2 < better.2) {v w : K} (hv : Assigns longs shorts better.1 v)
    (hw : Assigns longs shorts worse.1 w) : w ≤ v + tolerance := by
  have htolerance : 0 < (tolerance : K) := tolerance_pos
  have hunique : Tables.Unique Prod.fst scored := hnodup
  by_cases hshort : better ∈ lastOf bottom scored
  · -- both are on the short side
    have hshort' := mem_lastOf_of_lt hsorted hshort hworse hlt
    obtain ⟨hv', raw, hraw⟩ := short_of_assigns h hnodup hshort hv
    obtain ⟨hw', raw', hraw'⟩ := short_of_assigns h hnodup hshort' hw
    have hmono := shortRaw_mono (nodup_lastOf hnodup bottom) hraw hraw' hshort hshort' hlt
    have hle := h.short.ordered _ hraw' _ hraw hmono _ _ hw' hv'
    linarith
  · have hnonneg : 0 ≤ v := by
      apply assigns_nonneg h _ hv
      intro hname
      obtain ⟨other, hother, heq⟩ := List.mem_map.mp hname
      exact hshort (hunique.eq (mem_of_lastOf hother) hbetter heq ▸ hother)
    by_cases hlong : worse ∈ scored.take (longCount method settings.topN scored.length)
    · -- both are on the long side
      have hlong' := mem_take_of_lt hsorted hbetter hlong hlt
      obtain ⟨hv', raw, hraw⟩ := long_of_assigns h hnodup hlong' hv
      obtain ⟨hw', raw', hraw'⟩ := long_of_assigns h hnodup hlong hw
      have hmono := longRaw_mono (nodup_take hnodup _)
        (hsorted.sublist (List.take_sublist _ _)) hraw hraw' hlong' hlong hlt
      exact h.long.ordered _ hraw _ hraw' hmono _ _ hv' hw'
    · have hnonpos : w ≤ 0 := by
        apply assigns_nonpos h _ hw
        intro hname
        obtain ⟨other, hother, heq⟩ := List.mem_map.mp hname
        exact hlong (hunique.eq (List.mem_of_mem_take hother) hworse heq ▸ hother)
      linarith

end Parts

/-! ## The exposures -/

/-- What the sums of a portfolio of some names can miss. -/
def slack (count : ℕ) : K := tolerance + count * tiny

/-- The weights realise the exposures that were asked for. -/
structure Sound (settings : Settings K) (scored weights : List (Entry String K)) : Prop where
  longs : |((weights.filter (fun entry => 0 < entry.2)).map Prod.snd).sum -
    (settings.grossExposure + settings.netExposure) / 2| ≤ slack scored.length
  shorts : settings.method = "long_short" →
    |((weights.filter (fun entry => entry.2 < 0)).map (fun entry => -entry.2)).sum -
      (settings.grossExposure - settings.netExposure) / 2| ≤ slack scored.length
  longOnly : settings.method ≠ "long_short" → ∀ entry ∈ weights, 0 < entry.2
  capped : ∀ entry ∈ weights, |entry.2| ≤ settings.maxWeight + tolerance
  distinct : (weights.map Prod.fst).Nodup
  scores : ∀ entry ∈ weights, entry.1 ∈ scored.map Prod.fst
  ordered : ∀ better ∈ scored, ∀ worse ∈ scored, worse.2 < better.2 →
    weightOf weights worse.1 ≤ weightOf weights better.1 + tolerance + tiny

omit [Field K] [LinearOrder K] [IsStrictOrderedRing K] in
theorem methodOf_longShort {name : String} (h : methodOf name = some method) :
    method = .longShort ↔ name = "long_short" := by
  unfold methodOf at h
  simp only [List.lookup_cons, List.lookup_nil] at h
  split at h
  · rename_i hname
    rw [← Option.some.inj h, eq_of_beq hname]
    decide
  · split at h
    · rename_i hname
      rw [← Option.some.inj h, eq_of_beq hname]
      decide
    · split at h
      · rename_i hname
        rw [← Option.some.inj h, eq_of_beq hname]
        decide
      · split at h
        · rename_i hname
          rw [← Option.some.inj h, eq_of_beq hname]
          decide
        · cases h

variable {settings : Settings K} {bottom : ℕ} {longs shorts : List (Entry String K)}

theorem slack_mono {few many : ℕ} (h : few ≤ many) : (slack few : K) ≤ slack many := by
  have htiny : 0 < (tiny : K) := tiny_pos
  unfold slack
  gcongr

omit [LinearOrder K] [IsStrictOrderedRing K] in
theorem exists_assigns (longs shorts : List (Entry String K)) (name : String) :
    ∃ w, Assigns longs shorts name w := by
  by_cases hin : name ∈ (longs ++ shorts.map (fun entry => (entry.1, -entry.2))).map Prod.fst
  · obtain ⟨entry, hentry, rfl⟩ := List.mem_map.mp hin
    exact ⟨entry.2, .inl hentry⟩
  · exact ⟨0, .inr ⟨rfl, hin⟩⟩

theorem sound_of_parts (hmethod : methodOf settings.method = some method)
    (hnodup : (scored.map Prod.fst).Nodup) (hsorted : scored.Pairwise (fun a b => b.2 ≤ a.2))
    (h : Parts settings method scored bottom longs shorts) :
    Sound settings scored (kept longs shorts) := by
  have htiny : 0 < (tiny : K) := tiny_pos
  have hlongs : ∀ entry ∈ longs, 0 ≤ entry.2 := fun entry hentry => (h.long.bounds entry hentry).1
  have hshorts : ∀ entry ∈ shorts, 0 ≤ entry.2 := fun entry hentry =>
    (h.short.bounds entry hentry).1
  have happart := h.apart
  have hlongLength : longs.length ≤ scored.length := by
    have hnames := congrArg List.length h.long.names
    rw [names_longRaw] at hnames
    simp only [List.length_map, List.length_take] at hnames
    omega
  have hshortLength : shorts.length ≤ scored.length := by
    have hnames := congrArg List.length h.short.names
    rw [names_shortRaw] at hnames
    simp only [List.length_map, List.length_reverse, lastOf, List.length_drop] at hnames
    omega
  refine ⟨?_, ?_, ?_, ?_, nodup_kept (nodup_names h hnodup), ?_, ?_⟩
  · rw [((positive_kept hlongs hshorts).map Prod.snd).sum_eq]
    exact (sum_kept h.long).trans (slack_mono hlongLength)
  · intro hname
    have hsum := sum_kept h.short
    rw [if_pos ((methodOf_longShort hmethod).mpr hname)] at hsum
    rw [(negative_kept hlongs hshorts).sum_eq]
    exact hsum.trans (slack_mono hshortLength)
  · intro hname entry hentry
    have hnone : shorts = [] := by
      have hnames := h.short.names
      rw [h.longOnly (fun hlong => hname ((methodOf_longShort hmethod).mp hlong)),
        names_shortRaw] at hnames
      simpa [lastOf] using hnames
    obtain ⟨hlong | ⟨short, hshort, _⟩, hlarge⟩ := mem_of_kept hentry
    · rw [abs_of_nonneg (hlongs entry hlong)] at hlarge
      exact htiny.trans hlarge
    · rw [hnone] at hshort
      cases hshort
  · intro entry hentry
    obtain ⟨hlong | ⟨short, hshort, rfl⟩, _⟩ := mem_of_kept hentry
    · rw [abs_of_nonneg (hlongs entry hlong)]
      exact (h.long.bounds entry hlong).2
    · rw [abs_neg, abs_of_nonneg (hshorts short hshort)]
      exact (h.short.bounds short hshort).2
  · intro entry hentry
    obtain ⟨hlong | ⟨short, hshort, rfl⟩, _⟩ := mem_of_kept hentry
    · have hname := List.mem_map_of_mem (f := Prod.fst) hlong
      rw [h.long.names, names_longRaw] at hname
      exact ((List.take_sublist _ _).map Prod.fst).subset hname
    · have hname := List.mem_map_of_mem (f := Prod.fst) hshort
      rw [h.short.names, names_shortRaw, List.mem_reverse] at hname
      exact ((List.drop_sublist _ _).map Prod.fst).subset hname
  · intro better hbetter worse hworse hlt
    obtain ⟨v, hv⟩ := exists_assigns longs shorts better.1
    obtain ⟨w, hw⟩ := exists_assigns longs shorts worse.1
    have hnames := nodup_names h hnodup
    rw [weightOf_kept hnames hv, weightOf_kept hnames hw]
    exact kept_le (assigns_le h hnodup hsorted hbetter hworse hlt hv hw)

omit [IsStrictOrderedRing K] in
theorem Sound.perm {others weights : List (Entry String K)} (h : Sound settings scored weights)
    (hperm : scored.Perm others) : Sound settings others weights := by
  refine ⟨?_, ?_, h.longOnly, h.capped, h.distinct, ?_, ?_⟩
  · rw [← hperm.length_eq]
    exact h.longs
  · rw [← hperm.length_eq]
    exact h.shorts
  · intro entry hentry
    exact (hperm.map Prod.fst).mem_iff.mp (h.scores entry hentry)
  · intro better hbetter worse hworse
    exact h.ordered better (hperm.mem_iff.mpr hbetter) worse (hperm.mem_iff.mpr hworse)

end Sides

/-- Three names, with the best one of them last. -/
def sampleRecords : List (Record ℚ) :=
  [⟨" aapl", some (.number 2), none⟩, ⟨"MSFT", none, some (.number 1)⟩,
    ⟨"nvda ", some (.number 5), none⟩]

def sampleSettings : Settings ℚ :=
  { method := "long_short", topN := 1, bottomN := 1, grossExposure := 1, netExposure := 0,
    maxWeight := 1 }

/-- The weights of an accepted call realise the exposures that were asked for. -/
theorem portfolio_sound [IsStrictOrderedRing K] (records : List (Record K)) (settings : Settings K)
    {portfolio : Portfolio K} (h : constructFactorPortfolio records settings = .ok portfolio) :
    ∃ scored, records.mapM scoreOf = .ok scored ∧ Sound settings scored portfolio.weights := by
  unfold constructFactorPortfolio at h
  obtain ⟨method, hmethod, h⟩ := bind_ok h
  rw [orThrow_ok] at hmethod
  obtain ⟨_, hrecords, h⟩ := bind_ok h
  obtain ⟨_, hexposure, h⟩ := bind_ok h
  obtain ⟨_, hweight, h⟩ := bind_ok h
  rw [require_ok] at hrecords hexposure hweight
  obtain ⟨ordered, hscored, h⟩ := bind_ok h
  obtain ⟨sides, hsides, h⟩ := bind_ok h
  unfold scoredRecords at hscored
  obtain ⟨scored, hread, hscored⟩ := bind_ok hscored
  obtain ⟨_, hnames, hscored⟩ := bind_ok hscored
  rw [require_ok] at hnames
  have hordered : byScore scored = ordered := Except.ok.inj hscored
  rw [← hordered] at hsides
  have hperm : (byScore scored).Perm scored := orderBy_perm _ scored
  have hnodup : ((byScore scored).map Prod.fst).Nodup :=
    (hperm.map Prod.fst).nodup_iff.mpr hnames.2
  have hne : byScore scored ≠ [] := by
    intro hnil
    have hlength := (forall₂_of_mapM hread).length_eq
    rw [hnil] at hperm
    rw [hperm.nil_eq.symm] at hlength
    exact hrecords (List.eq_nil_of_length_eq_zero hlength)
  obtain ⟨bottom, shorts, hshorts, hparts⟩ := parts_of_ok hnodup hne hexposure.2 hweight.1 hsides
  have hsound := sound_of_parts hmethod hnodup (byScore_sorted scored) hparts
  have hweights : portfolio.weights = kept sides.1 shorts := by
    rw [← Except.ok.inj h, hshorts]
    rfl
  rw [hweights]
  exact ⟨scored, hread, hsound.perm hperm⟩

/-- Two of three names, the middle one and the best one long and the worst one short. -/
theorem portfolio_sound_sample :
    ∃ portfolio, constructFactorPortfolio sampleRecords sampleSettings = .ok portfolio ∧
      ∃ scored, sampleRecords.mapM scoreOf = .ok scored ∧
        Sound sampleSettings scored portfolio.weights := by
  obtain ⟨portfolio, h⟩ := exists_of_isOk (show (constructFactorPortfolio sampleRecords
    sampleSettings).isOk = true by decide +kernel)
  exact ⟨portfolio, h, portfolio_sound sampleRecords sampleSettings h⟩

/-- A portfolio of the best names has no short side, whatever its exposures, and the tolerance of the
loop leaves weights above the cap. -/
theorem long_only_and_tolerance :
    OnOk (fun portfolio => ((portfolio.weights.filter (fun entry => entry.2 < 0)).map
        (fun entry => -entry.2)).sum = 0 ∧ tolerance < |0 - ((1 : ℚ) - 0) / 2|)
      (constructFactorPortfolio sampleRecords
        { method := "equal_top", topN := 2, bottomN := 1, grossExposure := 1, netExposure := 0,
          maxWeight := 1 }) ∧
    OnOk (fun portfolio => portfolio.weights ≠ [] ∧ ∀ entry ∈ portfolio.weights, 1 / 3 < |entry.2|)
      (constructFactorPortfolio sampleRecords
        { method := "equal_top", topN := 3, bottomN := 1, grossExposure := 1 + 1 / 10 ^ 12,
          netExposure := 1 + 1 / 10 ^ 12, maxWeight := 1 / 3 }) ∧
    (constructFactorPortfolio sampleRecords
      { method := "equal_top", topN := 2, bottomN := 1, grossExposure := 1, netExposure := 0,
        maxWeight := 1 }).isOk ∧
    (constructFactorPortfolio sampleRecords
      { method := "equal_top", topN := 3, bottomN := 1, grossExposure := 1 + 1 / 10 ^ 12,
        netExposure := 1 + 1 / 10 ^ 12, maxWeight := 1 / 3 }).isOk := by
  decide +kernel

end LocalPlatform.Research.Factors
