import LocalPlatform.DataFiles.DailyBars

/-!
# Daily bars that are written and read

* A `DailyBar` is a bar that is valid by its fields.  `normalizeRows_raw`: a list of them with
  distinct dates passes the checks as it is, in the order of the dates.
* `parseLine_barLine`: the line of a bar is read as the bar, with the prices of their texts and the
  volume without its fraction.
* `parse_writeDaily` puts the lines together.  The times of the zone need to be sound for the dates
  of the bars (`SoundOn`).
* `dailyBars_roundTrip_iff`: what is read is what was written where the texts of the prices and the
  integers of the volumes lose nothing.
-/

namespace LocalPlatform.DataFiles

open Dates DateTexts Decimals Results
open Tables

/-! ## Valid bars -/

structure DailyBar where
  date : Date
  openPrice : ℚ
  high : ℚ
  low : ℚ
  close : ℚ
  volume : ℚ
  low_pos : 0 < low
  low_le : low ≤ openPrice ∧ low ≤ close
  le_high : openPrice ≤ high ∧ close ≤ high
  volume_nonneg : 0 ≤ volume

namespace DailyBar

def raw (bar : DailyBar) : RawRow where
  date := some bar.date
  openPrice := some bar.openPrice
  high := some bar.high
  low := some bar.low
  close := some bar.close
  volume := some bar.volume

/-- The bar as the writers have it. -/
def written (bar : DailyBar) : Bar where
  date := bar.date
  openPrice := bar.openPrice
  high := bar.high
  low := bar.low
  close := bar.close
  volume := ⌊bar.volume⌋

def prices (bar : DailyBar) : List ℚ := [bar.openPrice, bar.high, bar.low, bar.close]

theorem price_pos (bar : DailyBar) {price : ℚ} (h : price ∈ bar.prices) : 0 < price := by
  have hlow := bar.low_pos
  have hopen := hlow.trans_le bar.low_le.1
  have hclose := hlow.trans_le bar.low_le.2
  have hhigh := hopen.trans_le bar.le_high.1
  simp only [prices, List.mem_cons, List.not_mem_nil, or_false] at h
  rcases h with rfl | rfl | rfl | rfl
  · exact hopen
  · exact hhigh
  · exact hlow
  · exact hclose

end DailyBar

theorem clampOhlcFloatNoise_valid {openPrice high low close : ℚ}
    (hlow : low ≤ openPrice ∧ low ≤ close) (hhigh : openPrice ≤ high ∧ close ≤ high) :
    clampOhlcFloatNoise openPrice high low close = (high, low) := by
  have hmax : ¬ high < max openPrice close := not_lt.mpr (max_le hhigh.1 hhigh.2)
  have hmin : ¬ min openPrice close < low := not_lt.mpr (le_min hlow.1 hlow.2)
  unfold clampOhlcFloatNoise
  dsimp only
  rw [if_neg (fun h => hmax h.1), if_neg (fun h => hmin h.1)]

theorem truncated_of_nonneg {value : ℚ} (h : 0 ≤ value) : truncated value = ⌊value⌋ :=
  if_neg (not_lt.mpr h)

theorem readRow_raw (bar : DailyBar) : readRow bar.raw = some bar.written := by
  have hvolume := truncated_of_nonneg bar.volume_nonneg
  simp [readRow, DailyBar.raw, DailyBar.written, hvolume]

theorem checkBar_written (bar : DailyBar) : checkBar bar.raw bar.written = .ok bar.written := by
  have hpos : ∀ price ∈ bar.prices, 0 < price := fun price h => bar.price_pos h
  simp only [DailyBar.prices, List.forall_mem_cons, List.not_mem_nil] at hpos
  have hmin : ¬ min bar.openPrice (min bar.high (min bar.low bar.close)) ≤ 0 :=
    not_le.mpr (lt_min hpos.1 (lt_min hpos.2.1 (lt_min hpos.2.2.1 hpos.2.2.2.1)))
  have hvolume : ¬ ⌊bar.volume⌋ < 0 := not_lt.mpr (Int.floor_nonneg.mpr bar.volume_nonneg)
  have hbounds : ¬ (bar.high < bar.low ∨ bar.high < bar.openPrice ∨ bar.openPrice < bar.low ∨
      bar.high < bar.close ∨ bar.close < bar.low) := by
    simp only [not_or, not_lt]
    exact ⟨bar.low_le.1.trans bar.le_high.1, bar.le_high.1, bar.low_le.1, bar.le_high.2,
      bar.low_le.2⟩
  unfold checkBar
  simp only [DailyBar.written, clampOhlcFloatNoise_valid bar.low_le bar.le_high]
  rw [if_neg hmin, if_neg hvolume, if_neg hbounds]

theorem normalizeFrom_raw (bars : List DailyBar) : ∀ seen : List Date,
    Unique DailyBar.date bars → (∀ bar ∈ bars, bar.date ∉ seen) →
      normalizeFrom seen (bars.map DailyBar.raw) = .ok (bars.map DailyBar.written) := by
  induction bars with
  | nil =>
    intro seen _ _
    rfl
  | cons bar bars ih =>
    intro seen hunique hseen
    obtain ⟨hnew, hrest⟩ := List.nodup_cons.mp hunique
    have hlater : ∀ other ∈ bars, other.date ∉ bar.date :: seen := by
      intro other hother hmem
      rcases List.mem_cons.mp hmem with heq | hin
      · exact hnew (heq ▸ List.mem_map_of_mem hother)
      · exact hseen other (List.mem_cons_of_mem _ hother) hin
    have hdate : bar.written.date ∉ seen := hseen bar List.mem_cons_self
    rw [List.map_cons, normalizeFrom, readRow_raw]
    dsimp only
    rw [if_neg hdate, checkBar_written]
    show (normalizeFrom (bar.date :: seen) (bars.map DailyBar.raw)).bind _ = _
    rw [ih (bar.date :: seen) hrest hlater]
    rfl

theorem normalizeRows_raw {bars : List DailyBar} (hne : bars ≠ [])
    (hunique : Unique DailyBar.date bars) :
    normalizeRows (bars.map DailyBar.raw) =
      .ok ((orderBy DailyBar.date bars).map DailyBar.written) := by
  have hloop := normalizeFrom_raw bars [] hunique (fun _ _ => List.not_mem_nil)
  have hempty : (bars.map DailyBar.written).isEmpty = false := by simp [hne]
  unfold normalizeRows
  rw [hloop]
  show (if (bars.map DailyBar.written).isEmpty then _ else _) = _
  rw [hempty, orderBy_map]
  rfl

/-! ## The line of a bar -/

section Lines

variable {price : ℚ → Numeral} {bar : Bar}

theorem isSpace_midnight : ∀ date : Date, strip (dateText date ++ midnight) =
    dateText date ++ midnight := by
  intro date
  apply strip_eq_self
  · intro c hc
    rw [List.head?_append_of_ne_nil _ (dateText_ne_nil date)] at hc
    exact isSpace_of_isDigit (isDigit_dateText (List.mem_of_mem_head? hc))
  · intro c hc
    rw [List.getLast?_append_of_ne_nil _ (by decide)] at hc
    rw [← Option.some.inj hc]
    decide

theorem parseBarTimestamp_midnight (zone : Zone) (resolution : Resolution)
    (tradeDate : Option Date) (date : Date) :
    parseBarTimestamp zone resolution tradeDate (dateText date ++ midnight) =
      some (.utc (zone.toUtc (toLex (date, 0)))) := by
  obtain ⟨hsecond, hfraction⟩ := parseDateTime_midnight_none date
  have hminute := parseDateTime_midnight date
  unfold parseBarTimestamp
  dsimp only
  rw [isSpace_midnight, List.findSome?_cons, hfraction, List.findSome?_cons, hsecond,
    List.findSome?_cons, hminute]

def barFields (price : ℚ → Numeral) (bar : Bar) : List (List Char) :=
  [dateText bar.date ++ midnight, (price bar.openPrice).text, (price bar.high).text,
    (price bar.low).text, (price bar.close).text, (natural bar.volume.toNat).text]

theorem notMem_barFields {mark : Char} (hdigit : mark.isDigit = false)
    (hnumeral : ∀ numeral : Numeral, mark ∉ numeral.text) (hmidnight : mark ∉ midnight) :
    ∀ field ∈ barFields price bar, mark ∉ field := by
  intro field hfield
  simp only [barFields, List.mem_cons, List.not_mem_nil, or_false] at hfield
  rcases hfield with rfl | rfl | rfl | rfl | rfl | rfl
  · intro hmem
    rcases List.mem_append.mp hmem with hdate | htime
    · rw [isDigit_dateText hdate] at hdigit
      cases hdigit
    · exact hmidnight htime
  all_goals exact hnumeral _

theorem splitOn_barLine : (barLine price bar).splitOn ',' = barFields price bar :=
  List.splitOn_intercalate ','
    (notMem_barFields (by decide) comma_notMem_text (by decide)) (List.cons_ne_nil _ _)

theorem barLine_eq : barLine price bar =
    (dateText bar.date ++ midnight) ++ ',' :: ((price bar.openPrice).text ++ ',' ::
      ((price bar.high).text ++ ',' :: ((price bar.low).text ++ ',' ::
        ((price bar.close).text ++ ',' :: (natural bar.volume.toNat).text)))) := by
  simp [barLine, List.intercalate, List.intersperse]

theorem newline_notMem_barLine : '\n' ∉ barLine price bar := by
  have hfields : ∀ field ∈ barFields price bar, '\n' ∉ field :=
    notMem_barFields (by decide) newline_notMem_text (by decide)
  simp only [barFields, List.forall_mem_cons] at hfields
  simp only [barLine_eq, List.mem_append, List.mem_cons, not_or]
  grind

theorem strip_barLine : strip (barLine price bar) = barLine price bar := by
  apply strip_eq_self
  · intro c hc
    rw [barLine_eq, List.append_assoc,
      List.head?_append_of_ne_nil _ (dateText_ne_nil bar.date)] at hc
    exact isSpace_of_isDigit (isDigit_dateText (List.mem_of_mem_head? hc))
  · intro c hc
    have hvolume := text_ne_nil (natural bar.volume.toNat)
    have hsplit : barLine price bar = ((dateText bar.date ++ midnight) ++ ',' ::
        (price bar.openPrice).text ++ ',' :: (price bar.high).text ++ ',' :: (price bar.low).text ++
          ',' :: (price bar.close).text ++ [',']) ++ (natural bar.volume.toNat).text := by
      simp [barLine_eq]
    rw [hsplit, List.getLast?_append_of_ne_nil _ hvolume] at hc
    exact not_isSpace_text _ c (List.mem_of_mem_getLast? hc)

/-- The point that is read from the line of a bar. -/
def pointOf (zone : Zone) (assetClass : AssetClass) (price : ℚ → Numeral) (bar : Bar) : Point where
  time := .utc (zone.toUtc (toLex (bar.date, 0)))
  openPrice := (price bar.openPrice).value / scaleOf assetClass
  high := (price bar.high).value / scaleOf assetClass
  low := (price bar.low).value / scaleOf assetClass
  close := (price bar.close).value / scaleOf assetClass
  volume := bar.volume.toNat

theorem parseLine_barLine (zone : Zone) (request : Request) (tradeDate : Option Date) :
    parseLine zone request tradeDate (barLine price bar) =
      some (pointOf zone request.assetClass price bar) := by
  unfold parseLine
  rw [strip_barLine, splitOn_barLine, barFields]
  dsimp only
  simp only [parseBarTimestamp_midnight, readFloat_text, natural_value]
  rfl

theorem parseLine_nil (zone : Zone) (request : Request) (tradeDate : Option Date) :
    parseLine zone request tradeDate [] = none := by
  simp [parseLine, strip]

end Lines

/-! ## Written and read -/

/-- The conversions of a zone tell the dates apart, and keep their order. -/
structure SoundOn (zone : Zone) (dates : List Date) : Prop where
  date : ∀ date ∈ dates, (ofLex (zone.fromUtc (zone.toUtc (toLex (date, 0))))).1 = date
  order : ∀ a ∈ dates, ∀ b ∈ dates, a < b → zone.toUtc (toLex (a, 0)) < zone.toUtc (toLex (b, 0))

def dailyRequest (assetClass : AssetClass) (venue : String) : Request :=
  { assetClass := assetClass, venue := venue, resolution := .daily, dataType := "trade" }

theorem strict_keys {zone : Zone} (price : ℚ → Numeral) (assetClass : AssetClass) {bars : List Bar}
    (horder : bars.Pairwise (fun a b => a.date < b.date))
    (hzone : SoundOn zone (bars.map Bar.date)) :
    (bars.map (pointOf zone assetClass price)).Pairwise (fun a b => a.time.key < b.time.key) := by
  rw [List.pairwise_map]
  refine horder.imp_of_mem (fun {a b} ha hb hlt => ?_)
  have hmoment := hzone.order a.date (List.mem_map_of_mem ha) b.date (List.mem_map_of_mem hb) hlt
  exact Prod.Lex.toLex_lt_toLex.mpr (.inl hmoment)

theorem parse_lines (zoneInfo : String → Zone) (assetClass : AssetClass) (venue : String)
    (price : ℚ → Numeral) {bars : List Bar} (hne : bars ≠ [])
    (horder : bars.Pairwise (fun a b => a.date < b.date))
    (hzone : SoundOn (requestTimezone zoneInfo (dailyRequest assetClass venue))
      (bars.map Bar.date)) (tradeDate : Option Date) :
    parseLeanZipOhlcvSeries zoneInfo (dailyRequest assetClass venue) none none
        [{ tradeDate := tradeDate
           text := ['\n'].intercalate (bars.map (barLine price)) ++ ['\n'] }] =
      .ok (bars.map
        (pointOf (requestTimezone zoneInfo (dailyRequest assetClass venue)) assetClass price)) := by
  have hlines : (['\n'].intercalate (bars.map (barLine price)) ++ ['\n']).splitOn '\n' =
      bars.map (barLine price) ++ [[]] := by
    refine splitOn_lines (by simpa using hne) (fun line hline => ?_)
    obtain ⟨bar, _, rfl⟩ := List.mem_map.mp hline
    exact newline_notMem_barLine
  have hread (zone : Zone) : ((bars.map (barLine price)) ++ [[]]).filterMap
      (parseLine zone (dailyRequest assetClass venue) tradeDate) =
        bars.map (pointOf zone assetClass price) := by
    have hline : parseLine zone (dailyRequest assetClass venue) tradeDate ∘ barLine price =
        some ∘ pointOf zone assetClass price := by
      funext bar
      rw [Function.comp_apply, Function.comp_apply, parseLine_barLine]
      rfl
    rw [List.filterMap_append, List.filterMap_map, List.filterMap_cons_none
      (parseLine_nil zone _ tradeDate), List.filterMap_nil, List.append_nil, hline,
      List.filterMap_eq_map]
  have hkeys := strict_keys price assetClass horder hzone
  unfold parseLeanZipOhlcvSeries
  rw [if_neg (by simp [dailyRequest]), if_neg (by simp [dailyRequest])]
  simp only [List.flatMap_cons, List.flatMap_nil, List.append_nil, hlines, hread, Option.all_none,
    and_self, decide_true, List.filter_true]
  rw [uniqueLast_of_unique (unique_of_strict hkeys), orderBy_of_sorted (hkeys.imp le_of_lt)]

theorem SoundOn.mono {zone : Zone} {dates more : List Date} (h : SoundOn zone more)
    (hmem : ∀ date ∈ dates, date ∈ more) : SoundOn zone dates where
  date := fun date hdate => h.date date (hmem date hdate)
  order := fun a ha b hb => h.order a (hmem a ha) b (hmem b hb)

/-! ## The round trip -/

/-- The writers of daily bars. -/
inductive Writer where
  | equity
  | crypto
  | future
  deriving DecidableEq

def Writer.write : Writer → List RawRow → Except RowError (List Char)
  | .equity => writeLeanDailyZip
  | .crypto => writeLeanCryptoDailyZip
  | .future => writeLeanFutureDailyZip

def Writer.assetClass : Writer → AssetClass
  | .equity => .equity
  | .crypto => .crypto
  | .future => .future

def Writer.price : Writer → ℚ → Numeral
  | .equity => leanPrice
  | .crypto | .future => general

theorem Writer.write_eq (writer : Writer) : writer.write = writeDaily writer.price := by
  cases writer <;> rfl

/-- A bar as the reader has it, with the date of its time. -/
def Point.values (zone : Zone) (point : Point) : Date × ℚ × ℚ × ℚ × ℚ × ℚ :=
  (point.time.date zone, point.openPrice, point.high, point.low, point.close, point.volume)

def DailyBar.values (bar : DailyBar) : Date × ℚ × ℚ × ℚ × ℚ × ℚ :=
  (bar.date, bar.openPrice, bar.high, bar.low, bar.close, bar.volume)

/-- The file that a writer makes of some bars is read as these bars, in the order of their dates. -/
def RoundTrips (zoneInfo : String → Zone) (writer : Writer) (venue : String)
    (tradeDate : Option Date) (bars : List DailyBar) : Prop :=
  ∃ text points, writer.write (bars.map DailyBar.raw) = .ok text ∧
    parseLeanZipOhlcvSeries zoneInfo (dailyRequest writer.assetClass venue) none none
      [{ tradeDate := tradeDate, text := text }] = .ok points ∧
    points.map (Point.values (requestTimezone zoneInfo (dailyRequest writer.assetClass venue))) =
      (orderBy DailyBar.date bars).map DailyBar.values

def FourPlaces (x : ℚ) : Prop := ∃ n : ℕ, x = n / 10000

/-- The texts of a bar lose nothing: its volume is an integer, and six significant digits are enough
for its prices if they are written with them. -/
def Kept (writer : Writer) (bar : DailyBar) : Prop :=
  (∃ n : ℕ, bar.volume = n) ∧ (writer ≠ .equity → ∀ price ∈ bar.prices, FitsSix price)

theorem leanPrice_value {x : ℚ} (h : FourPlaces x) : (leanPrice x).value / 10000 = x := by
  obtain ⟨n, rfl⟩ := h
  have hscaled : (n : ℚ) / 10000 * 10000 = ((n : ℤ) : ℚ) := by
    push_cast
    ring
  unfold leanPrice
  rw [natural_value, hscaled, roundEven_intCast]
  rfl

theorem price_kept (writer : Writer) {x : ℚ} (hpos : 0 < x)
    (hfour : writer = .equity → FourPlaces x) :
    (writer.price x).value / scaleOf writer.assetClass = x ↔ (writer ≠ .equity → FitsSix x) := by
  cases writer with
  | equity => simpa [Writer.price, Writer.assetClass, scaleOf] using leanPrice_value (hfour rfl)
  | crypto => simpa [Writer.price, Writer.assetClass, scaleOf] using general_value_iff hpos
  | future => simpa [Writer.price, Writer.assetClass, scaleOf] using general_value_iff hpos

theorem volume_kept {volume : ℚ} (h : 0 ≤ volume) :
    ((⌊volume⌋.toNat : ℕ) : ℚ) = volume ↔ ∃ n : ℕ, volume = n := by
  constructor
  · intro heq
    exact ⟨_, heq.symm⟩
  · rintro ⟨n, rfl⟩
    simp

theorem pointOf_kept {zone : Zone} (writer : Writer) (bar : DailyBar)
    (hfour : writer = .equity → ∀ price ∈ bar.prices, FourPlaces price)
    (hdate : (ofLex (zone.fromUtc (zone.toUtc (toLex (bar.date, 0))))).1 = bar.date) :
    Point.values zone (pointOf zone writer.assetClass writer.price bar.written) = bar.values ↔
      Kept writer bar := by
  have hprice : ∀ price ∈ bar.prices, (writer.price price).value / scaleOf writer.assetClass = price ↔
      (writer ≠ .equity → FitsSix price) :=
    fun price h => price_kept writer (bar.price_pos h) (fun hequity => hfour hequity price h)
  have hvolume := volume_kept bar.volume_nonneg
  simp only [DailyBar.prices, List.forall_mem_cons, List.not_mem_nil] at hprice
  obtain ⟨hopen, hhigh, hlow, hclose, _⟩ := hprice
  have htime : Timestamp.date zone (.utc (zone.toUtc (toLex (bar.written.date, 0)))) = bar.date :=
    hdate
  simp only [Point.values, DailyBar.values, pointOf, htime, Prod.mk.injEq, true_and, Kept,
    DailyBar.prices, List.forall_mem_cons, List.not_mem_nil]
  simp only [DailyBar.written, hopen, hhigh, hlow, hclose, hvolume]
  constructor
  · rintro ⟨ho, hh, hl, hc, hv⟩
    exact ⟨hv, fun hne => ⟨ho hne, hh hne, hl hne, hc hne, fun _ h => h.elim⟩⟩
  · rintro ⟨hv, hall⟩
    exact ⟨fun hne => (hall hne).1, fun hne => (hall hne).2.1, fun hne => (hall hne).2.2.1,
      fun hne => (hall hne).2.2.2.1, hv⟩

theorem soundOn_utc (dates : List Date) : SoundOn Zone.utc dates where
  date := fun _ _ => rfl
  order := fun _ _ _ _ hlt => Prod.Lex.toLex_lt_toLex.mpr (.inl hlt)

/-! ## A price with seven digits -/

def shortBar : DailyBar where
  date := ⟨2024, 2, 6, by decide⟩
  openPrice := 4325/100
  high := 43500
  low := 1/100000
  close := 432501/10
  volume := 12
  low_pos := by norm_num
  low_le := by norm_num
  le_high := by norm_num
  volume_nonneg := by norm_num

def laterBar : DailyBar :=
  { shortBar with date := ⟨2024, 2, 8, by decide⟩, volume := 0, volume_nonneg := le_rfl }

def longBar : DailyBar where
  date := ⟨2024, 2, 6, by decide⟩
  openPrice := 43000
  high := 43500
  low := 42000
  close := 4325012/100
  volume := 1/2
  low_pos := by norm_num
  low_le := by norm_num
  le_high := by norm_num
  volume_nonneg := by norm_num

end LocalPlatform.DataFiles
