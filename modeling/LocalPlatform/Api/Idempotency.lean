import LocalPlatform.Lib.Machine
import LocalPlatform.Lib.Sessions

/-!
# Idempotency keys of the API

`idempotency_middleware` runs a request with an `Idempotency-Key` between `begin` and `complete`
or `abandon`, which work on one row of `api_idempotency_keys`.  The requests here all have one key,
method and path, so that there is at most one row.

* A `Request` has what its digest is made of and what the handler does with it.
* `step` runs the next statement of one request, in any order of requests.  A process that dies
  is a request that takes no more steps.
* `executions` and `answers` record what the handler did and what the clients got.

The digest is the text that is hashed.  The key, the path, the trace id and the times of the row
are left out.
-/

namespace LocalPlatform.Api

open Machines Sessions

/-! ## Requests -/

/-- The bytes of a response, as the text that they decode to if they are UTF-8. -/
inductive ResponseBody where
  | text (value : String)
  | binary (bytes : List UInt8)
  deriving DecidableEq

structure HandlerResponse where
  status : Nat
  contentType : String
  body : ResponseBody
  statusValid : 100 ≤ status
  deriving DecidableEq

/-- What the handler does with a request. -/
inductive HandlerResult where
  | raised
  | response (value : HandlerResponse)
  deriving DecidableEq

structure Request where
  query : String
  body : List UInt8
  result : HandlerResult
  deriving DecidableEq

/-- `request_digest` -/
def Request.digest (request : Request) : List UInt8 :=
  request.query.toUTF8.data.toList ++ 0 :: request.body

def HandlerResponse.kept (response : HandlerResponse) : Bool :=
  !(500 ≤ response.status || !response.contentType.startsWith "application/json")

def HandlerResult.completes : HandlerResult → Bool
  | .raised => false
  | .response reply => reply.status < 500

/-! ## The table -/

inductive KeyStatus where
  | pending
  | completed
  deriving DecidableEq

/-- The row of `api_idempotency_keys` under the key, the method and the path. -/
structure KeyRow where
  requestSha256 : List UInt8
  status : KeyStatus
  responseStatus : Option Nat
  responseBody : Option String
  responseContentType : Option String
  deriving DecidableEq

/-- What a client gets. -/
inductive Answer where
  /-- The response of its own execution. -/
  | own (response : HandlerResponse)
  /-- The handler raised. -/
  | handlerError
  | replay (status : Nat) (body contentType : String)
  /-- 409 `IDEMPOTENCY_KEY_CONFLICT` -/
  | conflict
  /-- 409 `IDEMPOTENCY_REQUEST_IN_PROGRESS` -/
  | inProgress
  /-- An error of the middleware itself. -/
  | internalError
  deriving DecidableEq

/-- The row that `begin` inserts. -/
def pendingRow (digest : List UInt8) : KeyRow where
  requestSha256 := digest
  status := .pending
  responseStatus := none
  responseBody := none
  responseContentType := none

/-- `complete` -/
def completeRow (status : Nat) (body contentType : String) (row : KeyRow) : KeyRow :=
  if row.status = .pending then
    { row with
      status := .completed
      responseStatus := some status
      responseBody := some body
      responseContentType := some contentType }
  else row

/-- `abandon` -/
def abandonRow (row : KeyRow) : Option KeyRow := if row.status = .pending then none else some row

/-- The end of `begin` for a row that is there, and the answer of the middleware to it. -/
def recordAnswer (row : KeyRow) (digest : List UInt8) : Answer :=
  if row.requestSha256 ≠ digest then .conflict
  else if row.status = .completed then
    .replay (if row.responseStatus.getD 0 = 0 then 200 else row.responseStatus.getD 0)
      (row.responseBody.getD "") (row.responseContentType.getD "application/json")
  else .inProgress

/-! ## Interleavings -/

/-- Where a request stands. -/
inductive Phase where
  /-- Before the `select` of `begin`. -/
  | arrived
  /-- The `select` found no row. -/
  | inserting
  /-- The `insert` failed. -/
  | reselecting
  /-- `begin` returned `new`. -/
  | handling
  | abandoning (answer : Answer)
  | completing (response : HandlerResponse) (body : String)
  | answered
  deriving DecidableEq

structure ApiState where
  row : Option KeyRow
  executions : List (Nat × HandlerResult)
  phase : Nat → Phase
  answers : Nat → Option Answer

def ApiState.start : ApiState where
  row := none
  executions := []
  phase := fun _ => .arrived
  answers := fun _ => none

def ApiState.goto (s : ApiState) (i : Nat) (phase : Phase) : ApiState :=
  { s with phase := Function.update s.phase i phase }

def ApiState.answer (s : ApiState) (i : Nat) (answer : Answer) : ApiState :=
  { s with
    phase := Function.update s.phase i .answered
    answers := Function.update s.answers i (some answer) }

/-- What the middleware does with the result of the handler. -/
def afterHandler : HandlerResult → Phase
  | .raised => .abandoning .handlerError
  | .response response =>
    if response.kept then
      match response.body with
      | .text body => .completing response body
      -- `response_body.decode("utf-8")` raises
      | .binary _ => .answered
    else .abandoning (.own response)

/-- The next statement of a request. -/
def step (backend : Backend) (request : Nat → Request) (s : ApiState) (i : Nat) : ApiState :=
  match s.phase i with
  | .arrived =>
    match s.row with
    | none => s.goto i .inserting
    | some row => s.answer i (recordAnswer row (request i).digest)
  | .inserting =>
    match s.row with
    | none => { s.goto i .handling with row := some (pendingRow (request i).digest) }
    | some _ => s.goto i .reselecting
  | .reselecting =>
    if backend = .postgresql then s.answer i .internalError
    else
      match s.row with
      | none => s.answer i .internalError
      | some row => s.answer i (recordAnswer row (request i).digest)
  | .handling =>
    let result := (request i).result
    let next := { s with executions := s.executions ++ [(i, result)] }
    if afterHandler result = .answered then next.answer i .internalError
    else next.goto i (afterHandler result)
  | .abandoning answer => { s.answer i answer with row := s.row.bind abandonRow }
  | .completing response body =>
    { s.answer i (.own response) with
      row := s.row.map (completeRow response.status body response.contentType) }
  | .answered => s

abbrev apiMachine (backend : Backend) (request : Nat → Request) : Machine ApiState Nat where
  allowed := fun _ _ => True
  next := step backend request

end LocalPlatform.Api
