import Mathlib.Data.List.Chain

/-!
# Following a candidate with delay

A loop is given one candidate a day and holds one of them.  It takes a new one when it is forced to,
or when the same candidate has come on enough days in a row.

* `Hold.next` is a turn of the loop, and `heldDays` what is held after each of the days.
* `Lasts n value seen`: the last `n` days all had this candidate (`seen` is latest first).
* `heldDays_changes`: what is held changes only when it is forced, or to a candidate that lasted.
-/

namespace LocalPlatform.Hysteresis

variable {δ κ : Type} [DecidableEq κ]

/-- What is held, and the candidate that may follow it. -/
structure Hold (κ : Type) where
  current : κ
  pending : Option κ
  pendingDays : ℕ
  deriving DecidableEq

def Hold.start (candidate : κ) : Hold κ :=
  { current := candidate, pending := none, pendingDays := 0 }

/-- A day with this candidate. -/
def Hold.next (minDays : ℕ) (forced : κ → Bool) (hold : Hold κ) (candidate : κ) : Hold κ :=
  if candidate = hold.current then { hold with pending := none, pendingDays := 0 }
  else
    let days := if hold.pending = some candidate then hold.pendingDays + 1 else 1
    if forced hold.current ∨ minDays ≤ days then Hold.start candidate
    else { hold with pending := some candidate, pendingDays := days }

def advance (minDays : ℕ) (forced : κ → Bool) (hold : Option (Hold κ)) (candidate : κ) : Hold κ :=
  match hold with
  | none => Hold.start candidate
  | some hold => hold.next minDays forced candidate

/-- What is held on each day. -/
def heldDays (minDays : ℕ) (forced : δ → κ → Bool) : Option (Hold κ) → List (δ × κ) → List (δ × κ)
  | _, [] => []
  | hold, day :: days =>
    let next := advance minDays (forced day.1) hold day.2
    (day.1, next.current) :: heldDays minDays forced (some next) days

/-- The last `n` of the days, which are given latest first, had this candidate. -/
def Lasts (n : ℕ) (value : κ) (seen : List (δ × κ)) : Prop :=
  n ≤ seen.length ∧ ∀ day ∈ seen.take n, day.2 = value

variable {minDays : ℕ} {forced : δ → κ → Bool} {value : κ} {seen : List (δ × κ)}

omit [DecidableEq κ] in
theorem Lasts.mono {n m : ℕ} (h : Lasts n value seen) (hle : m ≤ n) : Lasts m value seen := by
  refine ⟨hle.trans h.1, ?_⟩
  intro day hday
  exact h.2 day (List.take_subset_take_left seen hle hday)

omit [DecidableEq κ] in
theorem Lasts.cons {n : ℕ} (h : Lasts n value seen) (date : δ) :
    Lasts (n + 1) value ((date, value) :: seen) := by
  refine ⟨Nat.succ_le_succ h.1, ?_⟩
  intro day hday
  rw [List.take_succ_cons] at hday
  cases List.mem_cons.mp hday with
  | inl hhead => rw [hhead]
  | inr htail => exact h.2 day htail

omit [DecidableEq κ] in
theorem lasts_one (date : δ) (value : κ) (seen : List (δ × κ)) :
    Lasts 1 value ((date, value) :: seen) :=
  Lasts.cons ⟨Nat.zero_le _, by simp⟩ date

/-- A candidate that is waited for came on each of the days that are counted. -/
def Counted (hold : Hold κ) (seen : List (δ × κ)) : Prop :=
  ∀ value, hold.pending = some value → Lasts hold.pendingDays value seen

omit [DecidableEq κ] in
theorem counted_start (candidate : κ) (seen : List (δ × κ)) :
    Counted (Hold.start candidate) seen := by
  intro value hpending
  simp [Hold.start] at hpending

theorem Counted.days {hold : Hold κ} (h : Counted hold seen) (day : δ × κ) :
    Lasts (if hold.pending = some day.2 then hold.pendingDays + 1 else 1) day.2 (day :: seen) := by
  split_ifs with hpending
  · exact (h day.2 hpending).cons day.1
  · exact lasts_one day.1 day.2 seen

theorem Counted.next {hold : Hold κ} (h : Counted hold seen) (day : δ × κ) :
    Counted (hold.next minDays (forced day.1) day.2) (day :: seen) ∧
      ((hold.next minDays (forced day.1) day.2).current ≠ hold.current →
        (hold.next minDays (forced day.1) day.2).current = day.2 ∧
          (forced day.1 hold.current ∨ Lasts minDays day.2 (day :: seen))) := by
  have hdays := h.days day
  unfold Hold.next
  by_cases hsame : day.2 = hold.current
  · rw [if_pos hsame]
    refine ⟨?_, fun hne => absurd rfl hne⟩
    intro value hpending
    simp at hpending
  · rw [if_neg hsame]
    dsimp only
    by_cases hswitch : forced day.1 hold.current ∨
        minDays ≤ if hold.pending = some day.2 then hold.pendingDays + 1 else 1
    · rw [if_pos hswitch]
      refine ⟨counted_start _ _, fun _ => ⟨rfl, ?_⟩⟩
      cases hswitch with
      | inl hforced => exact .inl hforced
      | inr hlong => exact .inr (hdays.mono hlong)
    · rw [if_neg hswitch]
      refine ⟨?_, fun hne => absurd rfl hne⟩
      intro value hpending
      rw [← Option.some.inj hpending]
      exact hdays

/-- `reason` follows from a candidate that has lasted, on the days of a list. -/
def Reason (minDays : ℕ) (reason : δ → κ → Prop) (days : List (δ × κ)) : Prop :=
  ∀ seen day rest, days = seen.reverse ++ day :: rest → Lasts minDays day.2 (day :: seen) →
    reason day.1 day.2

/-- What is held changes only when it is forced, or to a candidate that has lasted. -/
def ChangesDue (forced : δ → κ → Bool) (reason : δ → κ → Prop) (a b : δ × κ) : Prop :=
  a.2 ≠ b.2 → forced b.1 a.2 ∨ reason b.1 b.2

theorem isChain_heldDays {reason : δ → κ → Prop} (days : List (δ × κ)) :
    ∀ {hold : Hold κ} {seen : List (δ × κ)} (date : δ), Counted hold seen →
      Reason minDays reason (seen.reverse ++ days) →
        ((date, hold.current) :: heldDays minDays forced (some hold) days).IsChain
          (ChangesDue forced reason) := by
  induction days with
  | nil =>
    intro hold seen date _ _
    exact List.isChain_singleton _
  | cons day days ih =>
    intro hold seen date hcounted hreason
    have hnext := @Counted.next _ _ _ minDays forced _ _ hcounted day
    have hshift : seen.reverse ++ day :: days = (day :: seen).reverse ++ days := by simp
    unfold heldDays
    dsimp only
    rw [List.isChain_cons_cons]
    constructor
    · intro hchange
      have hwhy := hnext.2 (Ne.symm hchange)
      show forced day.1 hold.current ∨
        reason day.1 (hold.next minDays (forced day.1) day.2).current
      rw [hwhy.1]
      cases hwhy.2 with
      | inl hforced => exact .inl hforced
      | inr hlasts => exact .inr (hreason seen day days rfl hlasts)
    · apply ih day.1 hnext.1
      rw [← hshift]
      exact hreason

theorem heldDays_changes {reason : δ → κ → Prop} {days : List (δ × κ)}
    (h : Reason minDays reason days) :
    (heldDays minDays forced none days).IsChain (ChangesDue forced reason) := by
  cases days with
  | nil => exact List.isChain_nil
  | cons day days => exact isChain_heldDays days day.1 (counted_start day.2 [day]) h

theorem heldDays_dates (days : List (δ × κ)) : ∀ hold : Option (Hold κ),
    (heldDays minDays forced hold days).map Prod.fst = days.map Prod.fst := by
  induction days with
  | nil => exact fun _ => rfl
  | cons day days ih =>
    intro hold
    unfold heldDays
    rw [List.map_cons, List.map_cons, ih]

theorem heldDays_append (days later : List (δ × κ)) : ∀ hold : Option (Hold κ),
    ∃ next, heldDays minDays forced hold (days ++ later) =
      heldDays minDays forced hold days ++ heldDays minDays forced next later := by
  induction days with
  | nil => exact fun hold => ⟨hold, rfl⟩
  | cons day days ih =>
    intro hold
    obtain ⟨next, hnext⟩ := ih (some (advance minDays (forced day.1) hold day.2))
    refine ⟨next, ?_⟩
    show (_, _) :: heldDays minDays forced _ (days ++ later) = _
    rw [hnext]
    rfl

theorem heldDays_congr {other : δ → κ → Bool} (days : List (δ × κ)) :
    ∀ hold : Option (Hold κ), (∀ day ∈ days, forced day.1 = other day.1) →
      heldDays minDays forced hold days = heldDays minDays other hold days := by
  induction days with
  | nil => exact fun _ _ => rfl
  | cons day days ih =>
    intro hold h
    unfold heldDays
    dsimp only
    rw [h day List.mem_cons_self, ih _ (fun later hlater => h later (List.mem_cons_of_mem _ hlater))]

theorem mem_heldDays {date : δ} (days : List (δ × κ)) :
    ∀ hold : Option (Hold κ), (date, value) ∈ heldDays minDays forced hold days →
      (date, value) ∈ days ∨ forced date value = false := by
  induction days with
  | nil =>
    intro hold h
    exact absurd h (by simp [heldDays])
  | cons day days ih =>
    intro hold h
    cases List.mem_cons.mp h with
    | inl hhead =>
      obtain ⟨hdate, hvalue⟩ := Prod.mk.inj hhead
      rw [hdate, hvalue]
      cases hold with
      | none => exact .inl List.mem_cons_self
      | some hold =>
        show (day.1, (hold.next minDays (forced day.1) day.2).current) ∈ day :: days ∨
          forced day.1 (hold.next minDays (forced day.1) day.2).current = false
        unfold Hold.next
        dsimp only
        by_cases hsame : day.2 = hold.current
        · rw [if_pos hsame]
          exact .inl (hsame ▸ List.mem_cons_self)
        · rw [if_neg hsame]
          by_cases hswitch : forced day.1 hold.current ∨
              minDays ≤ if hold.pending = some day.2 then hold.pendingDays + 1 else 1
          · rw [if_pos hswitch]
            exact .inl List.mem_cons_self
          · rw [if_neg hswitch]
            exact .inr (Bool.eq_false_iff.mpr (fun hforced => hswitch (.inl hforced)))
    | inr htail =>
      cases ih _ htail with
      | inl hmem => exact .inl (List.mem_cons_of_mem _ hmem)
      | inr hkept => exact .inr hkept

/-! ## Days without a candidate -/

omit [DecidableEq κ] in
theorem candidate_of_lasts {candidate : δ → Option κ} {n : ℕ} {next : δ} {older : List δ}
    (h : Lasts (n + 1) value
      ((next :: older).filterMap (fun date => (candidate date).map (date, ·))))
    (hgap : ∀ day ∈ older, candidate day = some value → candidate next ≠ none) :
    candidate next = some value := by
  cases hcandidate : candidate next with
  | none =>
    rw [List.filterMap_cons, hcandidate] at h
    cases hmore : older.filterMap (fun date => (candidate date).map (date, ·)) with
    | nil =>
      have hlength := h.1
      simp [hmore] at hlength
    | cons first others =>
      have hfirst := h.2 first (by simp [hmore])
      have hmem : first ∈ older.filterMap (fun date => (candidate date).map (date, ·)) := by
        simp [hmore]
      obtain ⟨day, hday, hmap⟩ := List.mem_filterMap.mp hmem
      obtain ⟨found, hfound, heq⟩ := Option.map_eq_some_iff.mp hmap
      have hvalue : candidate day = some value := by
        rw [hfound, ← hfirst, ← heq]
      exact absurd hcandidate (hgap day hday hvalue)
  | some found =>
    have hfound := h.2 (next, found) (by simp [hcandidate])
    exact congrArg some hfound

omit [DecidableEq κ] in
theorem lasts_filterMap {candidate : δ → Option κ} :
    ∀ {n : ℕ} {dates : List δ},
      (∀ a b c, [a, b, c].Sublist dates → candidate a = some value → candidate c = some value →
        candidate b ≠ none) →
      (∀ date ∈ dates.head?, candidate date = some value) →
      Lasts n value (dates.filterMap (fun date => (candidate date).map (date, ·))) →
        n ≤ dates.length ∧ ∀ date ∈ dates.take n, candidate date = some value := by
  intro n
  induction n with
  | zero =>
    intro dates _ _ _
    simp
  | succ n ih =>
    intro dates hgap hhead hlasts
    cases dates with
    | nil => exact absurd hlasts.1 (by simp)
    | cons date rest =>
      have hdate : candidate date = some value := hhead date rfl
      have hmap : (date :: rest).filterMap (fun date => (candidate date).map (date, ·)) =
          (date, value) :: rest.filterMap (fun date => (candidate date).map (date, ·)) := by
        rw [List.filterMap_cons, hdate]
        rfl
      rw [hmap] at hlasts
      have hrest : Lasts n value (rest.filterMap (fun date => (candidate date).map (date, ·))) := by
        refine ⟨Nat.le_of_succ_le_succ hlasts.1, ?_⟩
        intro day hday
        apply hlasts.2
        rw [List.take_succ_cons]
        exact List.mem_cons_of_mem _ hday
      have hnext : n = 0 ∨ ∀ next ∈ rest.head?, candidate next = some value := by
        cases n with
        | zero => exact .inl rfl
        | succ n =>
          refine .inr ?_
          intro next hnext
          obtain ⟨older, holder⟩ := List.head?_eq_some_iff.mp hnext
          rw [holder] at hrest
          apply candidate_of_lasts hrest
          intro day hday hvalue
          apply hgap date next day _ hdate hvalue
          rw [holder]
          exact ((List.singleton_sublist.mpr hday).cons_cons next).cons_cons date
      cases hnext with
      | inl hzero =>
        subst hzero
        simp [hdate]
      | inr hhead =>
        have hlonger := ih (fun a b c hsub => hgap a b c (hsub.cons date)) hhead hrest
        refine ⟨Nat.succ_le_succ hlonger.1, ?_⟩
        intro other hother
        rw [List.take_succ_cons] at hother
        cases List.mem_cons.mp hother with
        | inl heq => rwa [heq]
        | inr hmem => exact hlonger.2 other hmem

end LocalPlatform.Hysteresis
