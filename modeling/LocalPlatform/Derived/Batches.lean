import LocalPlatform.Derived.Maintenance

/-!
# What an execution sends

* `Grown`: a mirror keeps its keys, and gets others from the lake only.
* A reconciliation ends ready only if both have as many rows, which is enough (`reconcile_covered`).
* Sending from a date on adds every row from there that has its prices (`sendSymbols_spec`), and does
  not look at what is older.
-/

namespace LocalPlatform.Derived

open Tables Replicas

def Priced (bar : Bar) : Prop := (quoteOf bar.symbol bar).isSome

instance (bar : Bar) : Decidable (Priced bar) := inferInstanceAs (Decidable (_ = true))

/-! ## What a batch does -/

section Batches

variable {normalizeQuerySymbol : String → Option String} {canonical : List Bar}
  {mirror mirror' : List Quote} {entries : List (String × List Bar)}

/-- The keys of the mirror are kept, and others come from the lake. -/
structure Grown (canonical : List Bar) (mirror mirror' : List Quote) : Prop where
  unique : Unique Quote.key mirror → Unique Quote.key mirror'
  within : Within Bar.key Quote.key canonical mirror →
    Within Bar.key Quote.key canonical mirror'
  keeps : ∀ k ∈ mirror.map Quote.key, k ∈ mirror'.map Quote.key

theorem Grown.refl : Grown canonical mirror mirror := ⟨id, id, fun _ hk => hk⟩

theorem Grown.trans {mirror'' : List Quote} (h : Grown canonical mirror mirror')
    (h' : Grown canonical mirror' mirror'') : Grown canonical mirror mirror'' :=
  ⟨fun hu => h'.unique (h.unique hu), fun hw => h'.within (h.within hw),
    fun k hk => h'.keeps k (h.keeps k hk)⟩

theorem Grown.covered (h : Grown canonical mirror mirror')
    (hcovered : Covered Bar.key Quote.key canonical mirror) :
    Covered Bar.key Quote.key canonical mirror' :=
  fun bar hbar => h.keeps _ (hcovered bar hbar)

theorem Grown.putAll {quotes : List Quote}
    (h : ∀ quote ∈ quotes, quote.key ∈ canonical.map Bar.key) :
    Grown canonical mirror (putAll Quote.key mirror quotes) := by
  refine ⟨fun hunique => unique_putAll quotes hunique, ?_, ?_⟩
  · intro hwithin quote hquote
    have hkey := List.mem_map_of_mem hquote (f := Quote.key)
    rw [mem_keys_putAll] at hkey
    rcases hkey with hnew | hold
    · obtain ⟨other, hother, hsame⟩ := List.mem_map.mp hnew
      rw [← hsame]
      exact h other hother
    · exact keys_subset_of_within hwithin hold
  · intro k hk
    rw [mem_keys_putAll]
    exact Or.inr hk

/-- The entries have rows of the lake, each under its symbol. -/
def FromLake (normalizeQuerySymbol : String → Option String) (canonical : List Bar)
    (entries : List (String × List Bar)) : Prop :=
  ∀ entry ∈ entries, ∀ bar ∈ entry.2,
    bar ∈ canonical ∧ normalizeQuerySymbol entry.1 = some bar.symbol

theorem quoteOf_key {symbol : String} {bar : Bar} {quote : Quote}
    (h : quoteOf symbol bar = some quote) : quote.key = (symbol, bar.tradeDate) := by
  unfold quoteOf at h
  split at h
  · rw [← Option.some.inj h]
    rfl
  · cases h

theorem payload_cons {symbol : String} {bars : List Bar} {quotes : List Quote}
    (h : payload normalizeQuerySymbol ((symbol, bars) :: entries) = some quotes) :
    ∃ normalized rest, normalizeQuerySymbol symbol = some normalized ∧
      payload normalizeQuerySymbol entries = some rest ∧
        quotes = bars.filterMap (quoteOf normalized) ++ rest := by
  unfold payload at h
  split at h
  · next normalized rest hnormalized hrest =>
    exact ⟨normalized, rest, hnormalized, hrest, (Option.some.inj h).symm⟩
  · cases h

theorem payload_within (entries : List (String × List Bar)) : ∀ {quotes : List Quote},
    payload normalizeQuerySymbol entries = some quotes →
      FromLake normalizeQuerySymbol canonical entries →
        ∀ quote ∈ quotes, quote.key ∈ canonical.map Bar.key := by
  induction entries with
  | nil =>
    intro quotes h _ quote hquote
    rw [← Option.some.inj h] at hquote
    cases hquote
  | cons entry entries ih =>
    intro quotes h hlake quote hquote
    obtain ⟨symbol, bars⟩ := entry
    obtain ⟨normalized, rest, hnormalized, hrest, rfl⟩ := payload_cons h
    rcases List.mem_append.mp hquote with hhere | hthere
    · obtain ⟨bar, hbar, hquoteOf⟩ := List.mem_filterMap.mp hhere
      obtain ⟨hmem, hsymbol⟩ := hlake (symbol, bars) List.mem_cons_self bar hbar
      rw [quoteOf_key hquoteOf]
      have hsame : normalized = bar.symbol := Option.some.inj (hnormalized.symm.trans hsymbol)
      rw [hsame]
      exact List.mem_map_of_mem hmem
    · exact ih hrest (fun other hother => hlake other (List.mem_cons_of_mem _ hother)) quote hthere

theorem payload_sends (entries : List (String × List Bar)) : ∀ {quotes : List Quote},
    payload normalizeQuerySymbol entries = some quotes →
      FromLake normalizeQuerySymbol canonical entries →
        ∀ entry ∈ entries, ∀ bar ∈ entry.2, Priced bar → bar.key ∈ quotes.map Quote.key := by
  induction entries with
  | nil => exact fun _ _ entry hentry => absurd hentry List.not_mem_nil
  | cons first entries ih =>
    intro quotes h hlake entry hentry bar hbar hpriced
    obtain ⟨symbol, bars⟩ := first
    obtain ⟨normalized, rest, hnormalized, hrest, rfl⟩ := payload_cons h
    rw [List.map_append, List.mem_append]
    rcases List.mem_cons.mp hentry with rfl | hthere
    · left
      have hsymbol := (hlake (symbol, bars) List.mem_cons_self bar hbar).2
      have hsame : normalized = bar.symbol := Option.some.inj (hnormalized.symm.trans hsymbol)
      obtain ⟨quote, hquote⟩ := Option.isSome_iff_exists.mp hpriced
      rw [List.mem_map]
      refine ⟨quote, List.mem_filterMap.mpr ⟨bar, hbar, by rw [hsame]; exact hquote⟩, ?_⟩
      exact quoteOf_key hquote
    · right
      exact ih hrest (fun other hother => hlake other (List.mem_cons_of_mem _ hother)) entry hthere
        bar hbar hpriced

theorem mirrorRowsBatch_spec {answer : Answer} {error : Bool}
    (h : mirrorRowsBatch normalizeQuerySymbol answer entries mirror = some (mirror', error))
    (hlake : FromLake normalizeQuerySymbol canonical entries) :
    Grown canonical mirror mirror' ∧ (error = false → ∀ entry ∈ entries, ∀ bar ∈ entry.2,
      Priced bar → bar.key ∈ mirror'.map Quote.key) := by
  unfold mirrorRowsBatch at h
  split at h
  · next hnil =>
    obtain ⟨rfl, rfl⟩ := Prod.mk.inj (Option.some.inj h)
    rw [List.isEmpty_iff.mp hnil]
    exact ⟨Grown.refl, fun _ entry hentry => absurd hentry List.not_mem_nil⟩
  · obtain ⟨quotes, hquotes, hanswer⟩ := Option.map_eq_some_iff.mp h
    have hwithin := payload_within entries hquotes hlake
    cases answer with
    | inserted =>
      obtain ⟨rfl, rfl⟩ := Prod.mk.inj hanswer
      refine ⟨Grown.putAll hwithin, fun _ entry hentry bar hbar hpriced => ?_⟩
      rw [mem_keys_putAll]
      exact Or.inl (payload_sends entries hquotes hlake entry hentry bar hbar hpriced)
    | failed kept =>
      obtain ⟨rfl, rfl⟩ := Prod.mk.inj hanswer
      refine ⟨Grown.putAll (fun quote hquote => hwithin quote (List.mem_of_mem_filter hquote)), ?_⟩
      intro herror
      cases herror

end Batches

/-! ## What a layer does -/

section Layers

variable {normalizeQuerySymbol : String → Option String} {canonical : List Bar}
  {mirror mirror' : List Quote}
  (hsymbols : ∀ bar ∈ canonical, normalizeQuerySymbol bar.symbol = some bar.symbol)

include hsymbols

theorem fromLake_entriesOn (dates : List ℕ) :
    FromLake normalizeQuerySymbol canonical (entriesOn canonical dates) := by
  intro entry hentry bar hbar
  obtain ⟨symbol, _, rfl⟩ := List.mem_map.mp hentry
  obtain ⟨hrow, hsymbol⟩ := List.mem_filter.mp hbar
  rw [mem_orderBy] at hrow
  have hmem := List.mem_of_mem_filter hrow
  have hsame : bar.symbol = symbol := of_decide_eq_true hsymbol
  refine ⟨hmem, ?_⟩
  show normalizeQuerySymbol symbol = some bar.symbol
  rw [← hsame]
  exact hsymbols bar hmem

theorem repair_grown (insert : ℕ → Answer) (chunks : List (List ℕ)) :
    ∀ (batch : ℕ) (mirror : List Quote), Grown canonical mirror
      (repair normalizeQuerySymbol insert canonical batch chunks mirror).1 := by
  induction chunks with
  | nil => exact fun _ _ => Grown.refl
  | cons dates chunks ih =>
    intro batch mirror
    unfold repair
    split
    · exact Grown.refl
    · next hbatch => exact (mirrorRowsBatch_spec hbatch (fromLake_entriesOn hsymbols dates)).1
    · next hbatch =>
      have hgrown := (mirrorRowsBatch_spec hbatch (fromLake_entriesOn hsymbols dates)).1
      exact hgrown.trans (ih (batch + 1) _)

theorem reconcile_grown (service : ClickHouse) : Grown canonical mirror
    (clickhouseReconcileDates normalizeQuerySymbol service canonical mirror).1 := by
  have hrepair := repair_grown hsymbols service.insert
    (dateChunks (repairDates canonical mirror)) 0 mirror
  unfold clickhouseReconcileDates
  dsimp only
  split
  · exact Grown.refl
  · split
    · exact Grown.refl
    · split
      · exact hrepair
      · split <;> exact hrepair

omit hsymbols in
theorem covered_of_stats (hmirror : Unique Quote.key mirror)
    (hwithin : Within Bar.key Quote.key canonical mirror)
    (hstats : scopeStats mirror = canonicalStats canonical) :
    Covered Bar.key Quote.key canonical mirror := by
  apply covered_of_length hmirror hwithin
  have hcount := congrArg Stats.rowCount hstats
  simpa [scopeStats, canonicalStats, statsOf] using hcount

theorem reconcile_covered (service : ClickHouse) (hmirror : Unique Quote.key mirror)
    (hwithin : Within Bar.key Quote.key canonical mirror)
    (hready : (clickhouseReconcileDates normalizeQuerySymbol service canonical mirror).2 = .ready) :
    Covered Bar.key Quote.key canonical
      (clickhouseReconcileDates normalizeQuerySymbol service canonical mirror).1 := by
  have hgrown : Grown canonical mirror
      (clickhouseReconcileDates normalizeQuerySymbol service canonical mirror).1 :=
    reconcile_grown hsymbols service
  apply covered_of_stats (hgrown.unique hmirror) (hgrown.within hwithin)
  unfold clickhouseReconcileDates at hready ⊢
  dsimp only at hready ⊢
  split at hready
  · cases hready
  · split at hready
    · cases hready
    · split at hready
      · cases hready
      · split at hready
        · next hcounts hsurplus hraised hexact =>
          rw [if_neg hcounts, if_neg hsurplus, if_neg hraised, if_pos hexact]
          exact hexact.2
        · cases hready

/-! ### Sending -/

/-- What sending does between two states of the loop: rows of the lake are added, and without an
error those of these entries are there or still pending. -/
structure Sends (canonical : List Bar) (state state' : Flush) (entries : List (String × List Bar)) :
    Prop where
  grown : Grown canonical state.mirror state'.mirror
  clean : state'.errors = false → state.errors = false
  sent : state'.errors = false → ∀ entry ∈ entries, ∀ bar ∈ entry.2, Priced bar →
    bar.key ∈ state'.mirror.map Quote.key ∨ entry ∈ state'.pending

variable {insert : ℕ → Answer}

omit hsymbols in
theorem flush_sends {state state' : Flush}
    (h : flush normalizeQuerySymbol insert state = .ok state')
    (hlake : FromLake normalizeQuerySymbol canonical state.pending) :
    Sends canonical state state' state.pending ∧ state'.pending = [] := by
  unfold flush at h
  split at h
  · next hnil =>
    rw [← Except.ok.inj h]
    refine ⟨⟨Grown.refl, id, fun _ entry hentry _ _ _ => Or.inr hentry⟩, List.isEmpty_iff.mp hnil⟩
  · split at h
    · cases h
    · next mirrored error hbatch =>
      rw [← Except.ok.inj h]
      obtain ⟨hgrown, hsent⟩ := mirrorRowsBatch_spec hbatch hlake
      refine ⟨⟨hgrown, fun hclean => ?_, fun hclean entry hentry bar hbar hpriced => ?_⟩, rfl⟩
      · exact (Bool.or_eq_false_iff.mp hclean).1
      · exact Or.inl (hsent (Bool.or_eq_false_iff.mp hclean).2 entry hentry bar hbar hpriced)

omit hsymbols in
theorem flush_raised {state : Flush} (h : flush normalizeQuerySymbol insert state = .error mirror')
    : mirror' = state.mirror := by
  unfold flush at h
  split at h
  · cases h
  · split at h
    · exact (Except.error.inj h).symm
    · cases h

variable {symbol : String} {startDate : ℕ}

omit hsymbols in
theorem fromLake_query {bars : List Bar}
    (h : queryDatabaseBars normalizeQuerySymbol canonical symbol startDate = some bars) :
    ∀ bar ∈ bars, bar ∈ canonical ∧ normalizeQuerySymbol symbol = some bar.symbol := by
  intro bar hbar
  obtain ⟨normalized, hnormalized, rfl⟩ := Option.map_eq_some_iff.mp h
  rw [mem_orderBy] at hbar
  obtain ⟨hmem, htest⟩ := List.mem_filter.mp hbar
  rw [(of_decide_eq_true htest).1]
  exact ⟨hmem, hnormalized⟩

theorem mem_query {bars : List Bar} {bar : Bar}
    (h : queryDatabaseBars normalizeQuerySymbol canonical symbol startDate = some bars)
    (hbar : bar ∈ canonical) (hsymbol : bar.symbol = symbol) (hdate : startDate ≤ bar.tradeDate) :
    bar ∈ bars := by
  obtain ⟨normalized, hnormalized, rfl⟩ := Option.map_eq_some_iff.mp h
  have hsame := hsymbols bar hbar
  rw [hsymbol, hnormalized] at hsame
  rw [mem_orderBy, List.mem_filter]
  exact ⟨hbar, by simp [hsymbol, Option.some.inj hsame, hdate]⟩

omit hsymbols in
theorem sendSymbol_raised {state : Flush}
    (h : sendSymbol normalizeQuerySymbol insert canonical startDate state symbol = .error mirror') :
    mirror' = state.mirror := by
  unfold sendSymbol at h
  split at h
  · exact (Except.error.inj h).symm
  · dsimp only at h
    split at h
    · rw [flush_raised h]
    · cases h

omit hsymbols in
theorem sendSymbol_sends {state sent : Flush}
    (h : sendSymbol normalizeQuerySymbol insert canonical startDate state symbol = .ok sent)
    (hlake : FromLake normalizeQuerySymbol canonical state.pending) :
    ∃ bars, queryDatabaseBars normalizeQuerySymbol canonical symbol startDate = some bars ∧
      Sends canonical state sent (state.pending ++ [(symbol, bars)]) ∧
        FromLake normalizeQuerySymbol canonical sent.pending := by
  unfold sendSymbol at h
  split at h
  · cases h
  · next bars hquery =>
    refine ⟨bars, hquery, ?_⟩
    have hqueued : FromLake normalizeQuerySymbol canonical (state.pending ++ [(symbol, bars)]) := by
      intro entry hentry bar hbar
      rcases List.mem_append.mp hentry with hold | hnew
      · exact hlake entry hold bar hbar
      · rw [List.mem_singleton.mp hnew] at hbar ⊢
        exact fromLake_query hquery bar hbar
    dsimp only at h
    split at h
    · obtain ⟨hsends, hnone⟩ := flush_sends h hqueued
      refine ⟨⟨hsends.grown, hsends.clean, hsends.sent⟩, ?_⟩
      rw [hnone]
      exact fun entry hentry => absurd hentry List.not_mem_nil
    · rw [← Except.ok.inj h]
      exact ⟨⟨Grown.refl, id, fun _ entry hentry _ _ _ => Or.inr hentry⟩, hqueued⟩

/-- What the rest of the loop does: the mirror grows, and without an error everything that was
pending or belongs to the symbols is in it. -/
theorem sendSymbols_spec (insert : ℕ → Answer) (startDate : ℕ) (symbols : List String) :
    ∀ (state : Flush), FromLake normalizeQuerySymbol canonical state.pending →
      match sendSymbols normalizeQuerySymbol insert canonical startDate symbols state with
      | .error mirrored => Grown canonical state.mirror mirrored
      | .ok state' => Grown canonical state.mirror state'.mirror ∧
          (state'.errors = false → state.errors = false ∧
            (∀ entry ∈ state.pending, ∀ bar ∈ entry.2, Priced bar →
              bar.key ∈ state'.mirror.map Quote.key) ∧
            ∀ bar ∈ canonical, bar.symbol ∈ symbols → startDate ≤ bar.tradeDate → Priced bar →
              bar.key ∈ state'.mirror.map Quote.key) := by
  induction symbols with
  | nil =>
    intro state hlake
    unfold sendSymbols
    cases hflush : flush normalizeQuerySymbol insert state with
    | error mirrored =>
      dsimp only
      rw [flush_raised hflush]
      exact Grown.refl
    | ok state' =>
      obtain ⟨hsends, hnone⟩ := flush_sends hflush hlake
      refine ⟨hsends.grown, fun hclean => ⟨hsends.clean hclean, ?_, ?_⟩⟩
      · intro entry hentry bar hbar hpriced
        rcases hsends.sent hclean entry hentry bar hbar hpriced with hin | hpending
        · exact hin
        · rw [hnone] at hpending
          exact absurd hpending List.not_mem_nil
      · exact fun _ _ hsymbol => absurd hsymbol List.not_mem_nil
  | cons symbol symbols ih =>
    intro state hlake
    unfold sendSymbols
    cases hsend : sendSymbol normalizeQuerySymbol insert canonical startDate state symbol with
    | error mirrored =>
      dsimp only
      rw [sendSymbol_raised hsend]
      exact Grown.refl
    | ok sent =>
      dsimp only
      obtain ⟨bars, hquery, hsends, hlake'⟩ := sendSymbol_sends hsend hlake
      have hrest := ih sent hlake'
      cases hresult : sendSymbols normalizeQuerySymbol insert canonical startDate symbols sent with
      | error mirrored =>
        rw [hresult] at hrest
        exact hsends.grown.trans hrest
      | ok state' =>
        rw [hresult] at hrest
        obtain ⟨hgrown, hclean⟩ := hrest
        refine ⟨hsends.grown.trans hgrown, fun herrors => ?_⟩
        obtain ⟨hsentClean, hpending, hothers⟩ := hclean herrors
        have hall : ∀ entry ∈ state.pending ++ [(symbol, bars)], ∀ bar ∈ entry.2, Priced bar →
            bar.key ∈ state'.mirror.map Quote.key := by
          intro entry hentry bar hbar hpriced
          rcases hsends.sent hsentClean entry hentry bar hbar hpriced with hin | hstill
          · exact hgrown.keeps _ hin
          · exact hpending entry hstill bar hbar hpriced
        refine ⟨hsends.clean hsentClean, ?_, ?_⟩
        · exact fun entry hentry => hall entry (List.mem_append_left _ hentry)
        · intro bar hbar hsymbol hdate hpriced
          rcases List.mem_cons.mp hsymbol with hhere | hthere
          · exact hall (symbol, bars) (List.mem_append_right _ (List.mem_singleton_self _)) bar
              (mem_query hsymbols hquery hbar hhere hdate) hpriced
          · exact hothers bar hbar hthere hdate hpriced

theorem incremental_spec (service : ClickHouse) (mirror : List Quote) (startDate : Option ℕ) :
    Grown canonical mirror
        (clickhouseIncremental normalizeQuerySymbol service canonical mirror startDate).1 ∧
      ((clickhouseIncremental normalizeQuerySymbol service canonical mirror startDate).2 = .ready →
        Unique Quote.key mirror → Within Bar.key Quote.key canonical mirror →
        (∀ start ∈ startDate, ∀ bar ∈ canonical, bar.key ∈ mirror.map Quote.key ∨
          start ≤ bar.tradeDate ∧ Priced bar) →
        Covered Bar.key Quote.key canonical
          (clickhouseIncremental normalizeQuerySymbol service canonical mirror startDate).1) := by
  unfold clickhouseIncremental
  split
  · refine ⟨Grown.refl, fun hready => ?_⟩
    cases hready
  · cases startDate with
    | none =>
      refine ⟨reconcile_grown hsymbols service, fun hready hunique hwithin _ => ?_⟩
      exact reconcile_covered hsymbols service hunique hwithin hready
    | some start =>
      dsimp only
      have hspec := sendSymbols_spec hsymbols service.insert start (symbolsFrom canonical start)
        ⟨mirror, 0, false, [], 0⟩ (fun entry hentry => absurd hentry List.not_mem_nil)
      cases hsend : sendSymbols normalizeQuerySymbol service.insert canonical start
          (symbolsFrom canonical start) ⟨mirror, 0, false, [], 0⟩ with
      | error mirrored =>
        rw [hsend] at hspec
        refine ⟨hspec, fun hready => ?_⟩
        cases hready
      | ok state =>
        rw [hsend] at hspec
        obtain ⟨hgrown, hclean⟩ := hspec
        refine ⟨hgrown, fun hready _ _ hbehind bar hbar => ?_⟩
        have herrors : state.errors = false := by
          cases herrors : state.errors with
          | false => rfl
          | true =>
            simp [herrors] at hready
        rcases hbehind start rfl bar hbar with hin | ⟨hdate, hpriced⟩
        · exact hgrown.keeps _ hin
        · apply (hclean herrors).2.2 bar hbar _ hdate hpriced
          unfold symbolsFrom
          rw [mem_orderBy, mem_uniqueFirst_id]
          exact List.mem_map_of_mem (List.mem_filter.mpr ⟨hbar, by simpa using hdate⟩)

end Layers

end LocalPlatform.Derived
