import LocalPlatform.Api.Idempotency

/-!
# At most one execution under an idempotency key

* `AtMostOnce` is what a client may rely on: one completed execution at most and none after it,
  and an answer that is the request's own, a replay of that execution, or a 409.
* `Orderly` is the condition on a step: a response that is no server error is JSON, and a request
  whose insert failed looks again on SQLite and finds the row still there.
* `Guarded` is the invariant, with one lemma for each phase, and `at_most_once` the theorem over
  every interleaving of orderly steps.
-/

namespace LocalPlatform.Api

open Machines Sessions

/-! ## What clients rely on -/

/-- The executions that ended without a server error. -/
def ApiState.successes (s : ApiState) : List (Nat × HandlerResult) :=
  s.executions.filter (fun execution => execution.2.completes)

/-- The executions for a digest that ended without a server error. -/
def successesOf (request : Nat → Request) (s : ApiState) (digest : List UInt8) :
    List (Nat × HandlerResult) :=
  s.successes.filter (fun execution => (request execution.1).digest == digest)

/-- The answers that a request may get: its own response (or error), a replay of an execution of
its digest, or a 409. -/
def AnswerRight (request : Nat → Request) (s : ApiState) (i : Nat) : Answer → Prop
  | .own response => (i, HandlerResult.response response) ∈ s.executions
  | .handlerError => (i, HandlerResult.raised) ∈ s.executions
  | .replay status body contentType => ∃ j response,
      (j, HandlerResult.response response) ∈ s.successes ∧
      (request j).digest = (request i).digest ∧ response.status = status ∧
      response.body = .text body ∧ response.contentType = contentType
  | .conflict => True
  | .inProgress => True
  | .internalError => ∃ response bytes,
      (i, HandlerResult.response response) ∈ s.executions ∧ response.body = .binary bytes

structure AtMostOnce (request : Nat → Request) (s : ApiState) : Prop where
  once : ∀ digest, (successesOf request s digest).length ≤ 1
  answers : ∀ i answer, s.answers i = some answer → AnswerRight request s i answer
  /-- A request executes only while the key is taken for its own digest. -/
  exclusive : ∀ i, s.phase i = .handling → s.row = some (pendingRow (request i).digest)
  /-- No request executes once an execution has ended without a server error. -/
  unrepeated : ∀ i, s.phase i = .handling → s.successes = []

/-! ## The condition on a step -/

/-- A response that is no server error is kept. -/
def HandlerResult.keptOrFailed : HandlerResult → Bool
  | .raised => true
  | .response reply => 500 ≤ reply.status || reply.contentType.startsWith "application/json"

def Orderly (backend : Backend) (request : Nat → Request) (s : ApiState) (i : Nat) : Prop :=
  (s.phase i = .handling → (request i).result.keptOrFailed = true) ∧
    (s.phase i = .reselecting → backend = .sqlite ∧ s.row ≠ none)

instance (backend : Backend) (request : Nat → Request) (s : ApiState) (i : Nat) :
    Decidable (Orderly backend request s i) :=
  inferInstanceAs (Decidable ((s.phase i = .handling → (request i).result.keptOrFailed = true) ∧
    (s.phase i = .reselecting → backend = .sqlite ∧ s.row ≠ none)))

instance (backend : Backend) (request : Nat → Request) (s : ApiState) (i : Nat) :
    Decidable ((apiMachine backend request).allowed s i) := inferInstanceAs (Decidable True)

abbrev orderlyMachine (backend : Backend) (request : Nat → Request) : Machine ApiState Nat :=
  (apiMachine backend request).restrict (Orderly backend request)

/-! ## The invariant -/

/-- The phases between the insert of the row and the end of the request. -/
def Phase.owns : Phase → Bool
  | .handling => true
  | .abandoning _ => true
  | .completing _ _ => true
  | _ => false

/-- A row that keeps the response of an execution. -/
def Keeps (request : Nat → Request) (row : KeyRow) (i : Nat) (response : HandlerResponse) : Prop :=
  ∃ body, response.body = .text body ∧
    row = completeRow response.status body response.contentType (pendingRow (request i).digest)

/-- One request at most owns the row, and what was executed is in the row or on its way to it. -/
structure Guarded (request : Nat → Request) (s : ApiState) : Prop where
  single : ∀ i j, (s.phase i).owns = true → (s.phase j).owns = true → i = j
  held : ∀ i, (s.phase i).owns = true → s.row = some (pendingRow (request i).digest)
  clean : ∀ i, (s.phase i = .handling ∨ ∃ answer, s.phase i = .abandoning answer) →
    s.successes = []
  leaving : ∀ i response body, s.phase i = .completing response body →
    s.successes = [(i, .response response)] ∧ response.body = .text body
  free : s.row = none → s.successes = []
  bounded : s.successes.length ≤ 1
  completed : ∀ row, s.row = some row → row.status = .completed →
    ∃ i response, s.successes = [(i, .response response)] ∧ Keeps request row i response
  abandoned : ∀ i answer, s.phase i = .abandoning answer → AnswerRight request s i answer
  answers : ∀ i answer, s.answers i = some answer → AnswerRight request s i answer

section Steps

variable {request : Nat → Request} {s : ApiState} {i : Nat} {backend : Backend}

theorem guarded_start (request : Nat → Request) : Guarded request ApiState.start where
  single := fun i j hi => by cases hi
  held := fun i hi => by cases hi
  clean := fun _ _ => rfl
  leaving := fun i response body h => by cases h
  free := fun _ => rfl
  bounded := Nat.zero_le _
  completed := fun row h => by cases h
  abandoned := fun i answer h => by cases h
  answers := fun i answer h => by cases h

theorem AnswerRight.mono {t : ApiState} {answer : Answer} (h : AnswerRight request s i answer)
    (hmore : ∀ execution ∈ s.executions, execution ∈ t.executions) :
    AnswerRight request t i answer := by
  cases answer with
  | own response => exact hmore _ h
  | handlerError => exact hmore _ h
  | replay status body contentType =>
    obtain ⟨j, response, hmem, hrest⟩ := h
    obtain ⟨hexecuted, hcompletes⟩ := List.mem_filter.mp hmem
    exact ⟨j, response, List.mem_filter.mpr ⟨hmore _ hexecuted, hcompletes⟩, hrest⟩
  | conflict => trivial
  | inProgress => trivial
  | internalError =>
    obtain ⟨response, bytes, hmem, hbody⟩ := h
    exact ⟨response, bytes, hmore _ hmem, hbody⟩

theorem Guarded.recordAnswer_right (h : Guarded request s) {row : KeyRow} (hrow : s.row = some row) :
    AnswerRight request s i (recordAnswer row (request i).digest) := by
  unfold recordAnswer
  split_ifs with hdigest hstatus hzero
  · trivial
  · obtain ⟨j, response, hsuccesses, body, hbody, hkeeps⟩ := h.completed row hrow hstatus
    have hvalid := response.statusValid
    subst hkeeps
    simp [completeRow, pendingRow] at hzero
    omega
  · obtain ⟨j, response, hsuccesses, body, hbody, hkeeps⟩ := h.completed row hrow hstatus
    subst hkeeps
    refine ⟨j, response, by simp [hsuccesses], ?_, rfl, hbody, rfl⟩
    simpa [completeRow, pendingRow] using hdigest
  · trivial

/-- A request moves on to a phase in which it does not own the row, and the row and the executions
stay. -/
theorem Guarded.move (h : Guarded request s) {t : ApiState}
    (hrow : t.row = s.row) (hexecutions : t.executions = s.executions)
    {phase : Phase} (hphase : t.phase = Function.update s.phase i phase)
    (hfree : phase.owns = false)
    (hanswers : ∀ j answer, t.answers j = some answer → AnswerRight request s j answer) :
    Guarded request t := by
  have hsuccesses : t.successes = s.successes := by
    unfold ApiState.successes
    rw [hexecutions]
  have hother : ∀ j, (t.phase j).owns = true → t.phase j = s.phase j := by
    intro j hj
    rw [hphase] at hj ⊢
    by_cases hsame : j = i
    · subst hsame
      rw [Function.update_self, hfree] at hj
      cases hj
    · exact Function.update_of_ne hsame _ _
  have hright : ∀ j answer, AnswerRight request s j answer → AnswerRight request t j answer :=
    fun j answer hanswer => hanswer.mono (fun execution hmem => by rw [hexecutions]; exact hmem)
  refine ⟨?_, ?_, ?_, ?_, ?_, ?_, ?_, ?_, ?_⟩
  · intro a b ha hb
    apply h.single a b
    · rw [← hother a ha]
      exact ha
    · rw [← hother b hb]
      exact hb
  · intro a ha
    rw [hrow]
    apply h.held a
    rw [← hother a ha]
    exact ha
  · intro a ha
    rw [hsuccesses]
    apply h.clean a
    have howns : (t.phase a).owns = true := by
      cases ha with
      | inl ha => rw [ha]; rfl
      | inr ha =>
        obtain ⟨answer, ha⟩ := ha
        rw [ha]
        rfl
    rw [← hother a howns]
    exact ha
  · intro a response body ha
    rw [hsuccesses]
    apply h.leaving a response body
    rw [← hother a (by rw [ha]; rfl)]
    exact ha
  · rw [hrow, hsuccesses]
    exact h.free
  · rw [hsuccesses]
    exact h.bounded
  · rw [hrow, hsuccesses]
    exact h.completed
  · intro a answer ha
    apply hright
    apply h.abandoned a answer
    rw [← hother a (by rw [ha]; rfl)]
    exact ha
  · intro a answer ha
    exact hright a answer (hanswers a answer ha)

theorem Guarded.answer (h : Guarded request s) {answer : Answer}
    (hright : AnswerRight request s i answer) : Guarded request (s.answer i answer) := by
  apply h.move (t := s.answer i answer) rfl rfl rfl rfl
  intro j other hother
  by_cases hsame : j = i
  · subst hsame
    have heq : answer = other := by simpa [ApiState.answer] using hother
    rw [← heq]
    exact hright
  · apply h.answers j other
    simpa [ApiState.answer, Function.update_of_ne hsame] using hother

theorem Guarded.insert (h : Guarded request s) (hrow : s.row = none) :
    Guarded request
      { s.goto i .handling with row := some (pendingRow (request i).digest) } := by
  have hnone : ∀ j, (s.phase j).owns = false := by
    intro j
    cases howns : (s.phase j).owns with
    | false => rfl
    | true =>
      have hheld := h.held j howns
      rw [hrow] at hheld
      cases hheld
  have hphase : ∀ j, j ≠ i → (s.goto i .handling).phase j = s.phase j :=
    fun j hne => Function.update_of_ne hne _ _
  have howner : ∀ j, ((s.goto i .handling).phase j).owns = true → j = i := by
    intro j hj
    by_contra hne
    rw [hphase j hne, hnone j] at hj
    cases hj
  have hself : (s.goto i .handling).phase i = .handling := Function.update_self _ _ _
  refine ⟨?_, ?_, ?_, ?_, ?_, ?_, ?_, ?_, ?_⟩
  · intro a b ha hb
    rw [howner a ha, howner b hb]
  · intro a ha
    rw [howner a ha]
  · intro a _
    exact h.free hrow
  · intro a response body ha
    have hsame := howner a (by rw [ha]; rfl)
    rw [hsame] at ha
    rw [hself] at ha
    cases ha
  · intro hsome
    cases hsome
  · exact h.bounded
  · intro row heq hstatus
    cases heq
    cases hstatus
  · intro a answer ha
    have hsame := howner a (by rw [ha]; rfl)
    rw [hsame, hself] at ha
    cases ha
  · exact h.answers

theorem Guarded.leave (h : Guarded request s) (howner : (s.phase i).owns = true) {row : Option KeyRow}
    {answer : Answer} (hright : AnswerRight request s i answer)
    (hfree : row = none → s.successes = [])
    (hcompleted : ∀ kept, row = some kept → kept.status = .completed →
      ∃ j response, s.successes = [(j, .response response)] ∧ Keeps request kept j response) :
    Guarded request { s.answer i answer with row := row } := by
  have hphase : ∀ j, j ≠ i → (s.answer i answer).phase j = s.phase j :=
    fun j hne => Function.update_of_ne hne _ _
  have hself : (s.answer i answer).phase i = .answered := Function.update_self _ _ _
  have hnone : ∀ j, ((s.answer i answer).phase j).owns = false := by
    intro j
    by_cases hsame : j = i
    · rw [hsame, hself]
      rfl
    · rw [hphase j hsame]
      cases howns : (s.phase j).owns with
      | false => rfl
      | true => exact absurd (h.single j i howns howner) hsame
  have hclash : ∀ j, ((s.answer i answer).phase j).owns ≠ true := by
    intro j
    rw [hnone j]
    simp
  refine ⟨?_, ?_, ?_, ?_, hfree, h.bounded, hcompleted, ?_, (h.answer hright).answers⟩
  · intro a b ha
    exact absurd ha (hclash a)
  · intro a ha
    exact absurd ha (hclash a)
  · intro a ha
    rcases ha with ha | ⟨other, ha⟩
    · exact absurd (by rw [ha]; rfl) (hclash a)
    · exact absurd (by rw [ha]; rfl) (hclash a)
  · intro a response body ha
    exact absurd (by rw [ha]; rfl) (hclash a)
  · intro a other ha
    exact absurd (by rw [ha]; rfl) (hclash a)

theorem Guarded.executed (h : Guarded request s) (hphase : s.phase i = .handling) {t : ApiState}
    {phase : Phase} (hrow : t.row = s.row) (hphases : t.phase = Function.update s.phase i phase)
    (hexecutions : ∀ execution ∈ s.executions, execution ∈ t.executions)
    (hbounded : t.successes.length ≤ 1)
    (hclean : (phase = .handling ∨ ∃ answer, phase = .abandoning answer) → t.successes = [])
    (hleaving : ∀ response body, phase = .completing response body →
      t.successes = [(i, .response response)] ∧ response.body = .text body)
    (habandoned : ∀ answer, phase = .abandoning answer → AnswerRight request t i answer)
    (hanswers : ∀ j answer, t.answers j = some answer →
      s.answers j = some answer ∨ AnswerRight request t j answer) : Guarded request t := by
  have hheld := h.held i (by rw [hphase]; rfl)
  have hself : t.phase i = phase := by
    rw [hphases]
    exact Function.update_self _ _ _
  have howner : ∀ j, (t.phase j).owns = true → j = i := by
    intro j hj
    by_contra hne
    rw [hphases, Function.update_of_ne hne] at hj
    exact hne (h.single j i hj (by rw [hphase]; rfl))
  refine ⟨?_, ?_, ?_, ?_, ?_, hbounded, ?_, ?_, ?_⟩
  · intro a b ha hb
    rw [howner a ha, howner b hb]
  · intro a ha
    rw [howner a ha, hrow]
    exact hheld
  · intro a ha
    have hsame : a = i := by
      apply howner a
      rcases ha with ha | ⟨answer, ha⟩
      · rw [ha]
        rfl
      · rw [ha]
        rfl
    rw [hsame, hself] at ha
    exact hclean ha
  · intro a response body ha
    have hsame := howner a (by rw [ha]; rfl)
    rw [hsame, hself] at ha
    rw [hsame]
    exact hleaving response body ha
  · intro hnone
    rw [hrow, hheld] at hnone
    cases hnone
  · intro row hsome hstatus
    rw [hrow, hheld] at hsome
    cases hsome
    cases hstatus
  · intro a answer ha
    have hsame := howner a (by rw [ha]; rfl)
    rw [hsame, hself] at ha
    rw [hsame]
    exact habandoned answer ha
  · intro j answer hanswer
    cases hanswers j answer hanswer with
    | inl hold => exact (h.answers j answer hold).mono hexecutions
    | inr hnew => exact hnew

def ApiState.execute (s : ApiState) (i : Nat) (result : HandlerResult) : ApiState :=
  { s with executions := s.executions ++ [(i, result)] }

theorem successes_execute (s : ApiState) (i : Nat) (result : HandlerResult) :
    (s.execute i result).successes =
      s.successes ++ if result.completes then [(i, result)] else [] := by
  unfold ApiState.successes ApiState.execute
  rw [List.filter_append]
  cases hresult : result.completes <;> simp [hresult]

theorem afterHandler_cases {result : HandlerResult} (h : result.keptOrFailed = true) :
    (result.completes = false ∧
      ((result = .raised ∧ afterHandler result = .abandoning .handlerError) ∨
        ∃ reply, result = .response reply ∧ afterHandler result = .abandoning (.own reply))) ∨
    (result.completes = true ∧ ∃ reply, result = .response reply ∧
      ((∃ body, reply.body = .text body ∧ afterHandler result = .completing reply body) ∨
        ∃ bytes, reply.body = .binary bytes ∧ afterHandler result = .answered)) := by
  cases result with
  | raised => exact Or.inl ⟨rfl, Or.inl ⟨rfl, rfl⟩⟩
  | response reply =>
    by_cases herror : 500 ≤ reply.status
    · left
      have hkept : reply.kept = false := by simp [HandlerResponse.kept, herror]
      refine ⟨by simp [HandlerResult.completes, herror], Or.inr ⟨reply, rfl, ?_⟩⟩
      simp [afterHandler, hkept]
    · right
      have hjson : reply.contentType.startsWith "application/json" = true := by
        simpa [HandlerResult.keptOrFailed, herror] using h
      have hkept : reply.kept = true := by simp [HandlerResponse.kept, herror, hjson]
      refine ⟨by simp [HandlerResult.completes]; omega, reply, rfl, ?_⟩
      cases hbody : reply.body with
      | text body => exact Or.inl ⟨body, rfl, by simp [afterHandler, hkept, hbody]⟩
      | binary bytes => exact Or.inr ⟨bytes, rfl, by simp [afterHandler, hkept, hbody]⟩

/-- The handler runs, and its response is kept or is a server error. -/
theorem Guarded.execute (h : Guarded request s) (hphase : s.phase i = .handling)
    (hkept : (request i).result.keptOrFailed = true) :
    Guarded request (step backend request s i) := by
  have hempty := h.clean i (Or.inl hphase)
  have hgrows : ∀ execution ∈ s.executions,
      execution ∈ (s.execute i (request i).result).executions :=
    fun execution hmem => List.mem_append_left _ hmem
  have hlogged : (i, (request i).result) ∈ (s.execute i (request i).result).executions := by
    simp [ApiState.execute]
  have hsuccesses := successes_execute s i (request i).result
  rw [hempty, List.nil_append] at hsuccesses
  have hstep : step backend request s i =
      if afterHandler (request i).result = .answered then
        (s.execute i (request i).result).answer i .internalError
      else (s.execute i (request i).result).goto i (afterHandler (request i).result) := by
    unfold Api.step
    rw [hphase]
    rfl
  rw [hstep]
  rcases afterHandler_cases hkept with ⟨hfailed, hanswer⟩ | ⟨hdone, reply, hreply, hbody⟩
  · have hnone : (s.execute i (request i).result).successes = [] := by
      rw [hsuccesses, hfailed]
      rfl
    have habandons : ∃ answer, afterHandler (request i).result = .abandoning answer ∧
        AnswerRight request (s.execute i (request i).result) i answer := by
      rcases hanswer with ⟨hraised, hnext⟩ | ⟨reply, hreply, hnext⟩
      · rw [hraised] at hlogged hnext ⊢
        exact ⟨.handlerError, hnext, hlogged⟩
      · rw [hreply] at hlogged hnext ⊢
        exact ⟨.own reply, hnext, hlogged⟩
    obtain ⟨answer, hnext, hright⟩ := habandons
    rw [hnext, if_neg (by simp)]
    apply h.executed hphase (t := (s.execute i (request i).result).goto i (.abandoning answer))
      rfl rfl hgrows
    · show (s.execute i (request i).result).successes.length ≤ 1
      rw [hnone]
      exact Nat.zero_le 1
    · exact fun _ => hnone
    · intro response body heq
      cases heq
    · intro other heq
      cases heq
      exact hright
    · exact fun j other hother => Or.inl hother
  · have hone : (s.execute i (request i).result).successes = [(i, .response reply)] := by
      rw [hsuccesses, hdone, hreply]
      rfl
    rcases hbody with ⟨body, hbody, hnext⟩ | ⟨bytes, hbody, hnext⟩
    · rw [hnext, if_neg (by simp)]
      apply h.executed hphase (t := (s.execute i (request i).result).goto i (.completing reply body))
        rfl rfl hgrows
      · exact Nat.le_of_eq (congrArg List.length hone)
      · intro hother
        rcases hother with hother | ⟨answer, hother⟩ <;> cases hother
      · intro response other heq
        cases heq
        exact ⟨hone, hbody⟩
      · intro answer heq
        cases heq
      · exact fun j other hother => Or.inl hother
    · rw [hnext, if_pos rfl]
      apply h.executed hphase (t := (s.execute i (request i).result).answer i .internalError)
        rfl rfl hgrows
      · exact Nat.le_of_eq (congrArg List.length hone)
      · intro hother
        rcases hother with hother | ⟨answer, hother⟩ <;> cases hother
      · intro response other heq
        cases heq
      · intro answer heq
        cases heq
      · intro j other hother
        by_cases hsame : j = i
        · subst hsame
          right
          have heq : Answer.internalError = other := by simpa [ApiState.answer] using hother
          rw [← heq]
          exact ⟨reply, bytes, by rw [← hreply]; exact hlogged, hbody⟩
        · left
          simpa [ApiState.answer, ApiState.execute, Function.update_of_ne hsame] using hother

theorem Guarded.step (h : Guarded request s) (horderly : Orderly backend request s i) :
    Guarded request (step backend request s i) := by
  cases hphase : s.phase i with
  | arrived =>
    unfold Api.step
    rw [hphase]
    cases hrow : s.row with
    | none => exact h.move (t := s.goto i .inserting) rfl rfl rfl rfl h.answers
    | some row => exact h.answer (h.recordAnswer_right hrow)
  | inserting =>
    unfold Api.step
    rw [hphase]
    cases hrow : s.row with
    | none => exact h.insert hrow
    | some row => exact h.move (t := s.goto i .reselecting) rfl rfl rfl rfl h.answers
  | reselecting =>
    obtain ⟨hsqlite, hthere⟩ := horderly.2 hphase
    unfold Api.step
    rw [hphase]
    cases hrow : s.row with
    | none => exact absurd hrow hthere
    | some row =>
      simp only [hsqlite]
      exact h.answer (h.recordAnswer_right hrow)
  | handling => exact h.execute hphase (horderly.1 hphase)
  | abandoning answer =>
    have hclean := h.clean i (Or.inr ⟨answer, hphase⟩)
    unfold Api.step
    rw [hphase]
    apply h.leave (by rw [hphase]; rfl) (h.abandoned i answer hphase) (fun _ => hclean)
    intro kept hrow hstatus
    rw [h.held i (by rw [hphase]; rfl)] at hrow
    cases hrow
  | completing response body =>
    obtain ⟨hsuccesses, hbody⟩ := h.leaving i response body hphase
    have hheld := h.held i (by rw [hphase]; rfl)
    unfold Api.step
    rw [hphase]
    apply h.leave (by rw [hphase]; rfl)
    · have hmem : (i, HandlerResult.response response) ∈ s.successes := by simp [hsuccesses]
      exact (List.mem_filter.mp hmem).1
    · intro hrow
      rw [hheld] at hrow
      cases hrow
    · intro kept hrow _
      rw [hheld] at hrow
      cases hrow
      exact ⟨i, response, hsuccesses, body, hbody, rfl⟩
  | answered =>
    unfold Api.step
    rw [hphase]
    exact h

theorem Guarded.atMostOnce (h : Guarded request s) : AtMostOnce request s where
  once := fun digest => Nat.le_trans (List.length_filter_le _ _) h.bounded
  answers := h.answers
  exclusive := fun i hphase => h.held i (by rw [hphase]; rfl)
  unrepeated := fun i hphase => h.clean i (.inl hphase)

end Steps

/-- In every interleaving of orderly steps, a key executes at most once, and every client gets its
own response, a replay of that execution, or a 409. -/
theorem at_most_once {backend : Backend} {request : Nat → Request} {steps : List Nat}
    (haccepts : (orderlyMachine backend request).Accepts ApiState.start steps) :
    AtMostOnce request ((apiMachine backend request).after ApiState.start steps) := by
  have hguarded := @Machine.invariant _ _ (orderlyMachine backend request) (Guarded request)
    (fun s i h hallowed => h.step hallowed.2) steps _ (guarded_start request) haccepts
  exact Guarded.atMostOnce hguarded

/-! ## Runs -/

/-- A request with an empty body whose handler answers 201 with JSON. -/
def createRequest : Request where
  query := ""
  body := []
  result := .response
    { status := 201, contentType := "application/json", body := .text "created",
      statusValid := by decide }

/-- A request whose handler answers 204 without content. -/
def emptyRequest : Request where
  query := ""
  body := []
  result := .response
    { status := 204, contentType := "", body := .text "", statusValid := by decide }

/-- Three requests, of which the last has another body. -/
def threeRequests : Nat → Request
  | 2 => { createRequest with body := [1] }
  | _ => createRequest

/-- One request runs through, and the others come after its insert and after its end. -/
theorem at_most_once_three :
    AtMostOnce threeRequests
      ((apiMachine .postgresql threeRequests).after ApiState.start [0, 0, 2, 0, 0, 1]) :=
  at_most_once (by decide +kernel)

/-- A request with an empty response is executed again, and on PostgreSQL a request that loses the
race for the insert gets an internal error. -/
theorem executed_twice :
    ((successesOf (fun _ => emptyRequest)
        ((apiMachine .postgresql (fun _ => emptyRequest)).after ApiState.start
          [0, 0, 0, 0, 1, 1, 1]) emptyRequest.digest).length = 2) ∧
      (((apiMachine .postgresql (fun _ => createRequest)).after ApiState.start
        [0, 1, 0, 1, 1]).answers 1 = some .internalError) ∧
      ¬ AtMostOnce (fun _ => emptyRequest)
        ((apiMachine .postgresql (fun _ => emptyRequest)).after ApiState.start
          [0, 0, 0, 0, 1, 1, 1]) := by
  have htwice : (successesOf (fun _ => emptyRequest)
      ((apiMachine .postgresql (fun _ => emptyRequest)).after ApiState.start
        [0, 0, 0, 0, 1, 1, 1]) emptyRequest.digest).length = 2 := by decide +kernel
  refine ⟨htwice, by decide +kernel, ?_⟩
  intro honce
  have hbound := honce.once emptyRequest.digest
  rw [htwice] at hbound
  omega

end LocalPlatform.Api
