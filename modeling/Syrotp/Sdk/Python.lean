import Syrotp.Server.System

/-!
# The Python SDK

`packages/sdk-python/syrotp`: the errors of `errors.py`, the response mapping and the retry loop of
`_http.py`, and `cancel_verification` of `client.py`. The backoff sleeps between attempts are left
out: nothing that is returned or raised depends on them. The last section puts the client in front
of the server.
-/

namespace Syrotp.Sdk

/-! ## Errors -/

/-- The classes of `errors.py`, with what only one of them carries. -/
inductive ErrorClass where
  | base
  | auth
  | validation
  | rateLimit (retryAfterSeconds : Option Nat)
  | network
  | server
  | timeout
  deriving DecidableEq, Repr

structure SyrotpError where
  errorClass : ErrorClass
  code : String
  message : String
  httpStatus : Nat
  requestId : Option Text
  deriving DecidableEq, Repr

/-- What a method of the client raises: an error of its own or a `KeyError`. -/
inductive Raised where
  | syrotp (e : SyrotpError)
  | keyError
  deriving DecidableEq, Repr

/-! ## Responses -/

/-- The `error` of a body, with its members as `str` renders them; a missing one is empty. -/
structure ErrorBody where
  code : String
  message : String
  requestId : Option Text
  deriving DecidableEq, Repr

/-- A JSON object, as far as the client reads it. -/
structure Document where
  error : Option ErrorBody
  verification : Option PublicVerification
  deriving DecidableEq, Repr

inductive Body where
  | empty
  | notJson
  | notObject
  | object (document : Document)
  deriving DecidableEq, Repr

/-- A response; `retryAfter` is its header as `_parse_retry_after` reads it. -/
structure Response where
  status : Nat
  retryAfter : Option Nat
  body : Body
  deriving DecidableEq, Repr

/-- `s or default`. -/
def orDefault (s default : String) : String := if s.isEmpty then default else s

/-- The class `_error_from_response` picks. -/
def Response.errorClass (res : Response) : ErrorClass :=
  if res.status = 401 ∨ res.status = 403 then .auth
  else if res.status = 400 then .validation
  else if res.status = 429 then .rateLimit res.retryAfter
  else if 500 ≤ res.status ∧ res.status < 600 then .server
  else .base

/-- `_error_from_response`. -/
def errorFromResponse (res : Response) : SyrotpError :=
  let code := "http_" ++ toString res.status
  let message := "request failed with status " ++ toString res.status
  match res.body with
  | .object ⟨some err, _⟩ =>
    ⟨res.errorClass, orDefault err.code code, orDefault err.message message, res.status,
      err.requestId⟩
  | .notJson =>
    ⟨res.errorClass, "bad_response", "non-JSON response (status " ++ toString res.status ++ ")",
      res.status, none⟩
  | _ => ⟨res.errorClass, code, message, res.status, none⟩

/-- `_is_retriable`. -/
def isRetriable (e : SyrotpError) : Bool :=
  match e.errorClass with
  | .network | .server | .rateLimit _ => true
  | _ => false

/-- `on_response` of `_request`. -/
def onResponse (res : Response) : Except SyrotpError Document :=
  if 200 ≤ res.status ∧ res.status < 300 then
    match res.body with
    | .empty => .ok ⟨none, none⟩
    | .object document => .ok document
    | .notJson => .error ⟨.base, "bad_response",
        "non-JSON response (status " ++ toString res.status ++ ")", res.status, none⟩
    | .notObject => .error ⟨.base, "bad_response",
        "unexpected JSON shape (status " ++ toString res.status ++ ")", res.status, none⟩
  else .error (errorFromResponse res)

/-! ## The retry loop -/

/-- What `transport()` returns or raises. -/
inductive Sent where
  | response (res : Response)
  | timeoutException (message : String)
  | httpError (message : String)
  deriving DecidableEq, Repr

section Loop

variable {α : Type*}

/-- What one attempt of the loop comes to. -/
def tried (onResponse : Response → Except SyrotpError α) : Sent → Except SyrotpError α
  | .response res => onResponse res
  | .timeoutException message =>
    .error ⟨.timeout, "timeout", orDefault message "request timed out", 0, none⟩
  | .httpError message =>
    .error ⟨.network, "network_error", orDefault message "network error", 0, none⟩

/-- The loop of `execute_with_retries` from `attempt` on, with the number of retries left: what it
returns or raises, and how many attempts were made. The timeout, which the source raises at once
in a branch of its own, is one of the errors that are not retriable. -/
def retryLoop (transport : Nat → Sent) (onResponse : Response → Except SyrotpError α) :
    Nat → Nat → Except SyrotpError α × Nat
  | 0, attempt => (tried onResponse (transport attempt), attempt + 1)
  | left + 1, attempt =>
    match tried onResponse (transport attempt) with
    | .ok value => (.ok value, attempt + 1)
    | .error e =>
      if isRetriable e then retryLoop transport onResponse left (attempt + 1)
      else (.error e, attempt + 1)

/-- `execute_with_retries`; the `k`-th call of `transport` gives `transport k`. -/
def executeWithRetries (transport : Nat → Sent) (maxRetries : Nat)
    (onResponse : Response → Except SyrotpError α) : Except SyrotpError α × Nat :=
  retryLoop transport onResponse maxRetries 0

end Loop

/-! ## The client -/

/-- `_VERIFICATION_ID_RE.match`, whose `$` also matches before a final newline. -/
def isVerificationId (s : Text) : Bool :=
  let line := if s.getLast? = some 10 then s.dropLast else s
  Text.startsWith line (text "vrf_") && !(line.drop 4).isEmpty && (line.drop 4).all Text.isAlnum

/-- `Verification.from_dict`. -/
def fromDict (data : Document) : Except Raised PublicVerification :=
  match data.verification with
  | none => .error .keyError
  | some v => .ok v

/-- `cancel_verification` of a client with this many `_retries`, and the attempts it made. -/
def cancelVerification (retries : Nat) (verificationId : Text) (transport : Nat → Sent) :
    Except Raised PublicVerification × Nat :=
  if isVerificationId verificationId then
    let r := executeWithRetries transport (min retries 1) onResponse
    match r.1 with
    | .error e => (.error (.syrotp e), r.2)
    | .ok data => (fromDict data, r.2)
  else
    (.error (.syrotp ⟨.validation, "validation_error",
      "verification_id must match ^vrf_[A-Za-z0-9]+$", 0, none⟩), 0)

/-! ## A cancellation against the server -/

/-- The error handler on an `ApiError`, as the response reads. -/
def errorResponse (requestId : Text) (retryAfter : Option Nat) (e : ApiError) : Response :=
  ⟨e.statusCode, retryAfter, .object ⟨some ⟨e.code, e.message, some requestId⟩, none⟩⟩

/-- How the cancel route turns a request away before it calls `cancelVerification`. -/
inductive Refusal where
  | unauthorized
  | forbidden
  | rateLimited (retryAfter : Nat)
  | notFound
  | internal
  deriving DecidableEq, Repr

def Refusal.error : Refusal → ApiError
  | .unauthorized => ⟨401, "unauthorized", "missing or invalid credentials"⟩
  | .forbidden => ⟨403, "forbidden", "key kind not permitted for this endpoint"⟩
  | .rateLimited _ => ⟨429, "rate_limited", "too many requests"⟩
  | .notFound => Syrotp.notFound "verification"
  | .internal => Syrotp.internal

def Refusal.response (requestId : Text) : Refusal → Response
  | .rateLimited retryAfter =>
    errorResponse requestId (some retryAfter) (Refusal.rateLimited retryAfter).error
  | r => errorResponse requestId none r.error

/-- The response of the cancel route once its call has ended. -/
def reply (requestId : Text) : Call → Option Response
  | .cancel _ _ (.done (.ok v)) => some ⟨200, none, .object ⟨none, some v⟩⟩
  | .cancel _ _ (.done (.error e)) => some (errorResponse requestId none e)
  | .cancel _ _ .failed => some (errorResponse requestId none internal)
  | _ => none

/-- What the client gets in place of a response of the server. -/
inductive Fault where
  | timeout (message : String)
  | network (message : String)
  | replaced (res : Response) (range : 500 ≤ res.status ∧ res.status < 600)

def Fault.sent : Fault → Sent
  | .timeout message => .timeoutException message
  | .network message => .httpError message
  | .replaced res _ => .response res

/-- What becomes of an attempt: it does not reach the server, its route turns it away, or it is
executed by the call at a position of the server. -/
inductive Attempt where
  | unreached (fault : Fault)
  | refused (refusal : Refusal) (fault : Option Fault)
  | executed (i : Nat) (fault : Option Fault)

/-- What the transport gives the client. A call that has not ended has not answered in time. -/
def Attempt.sent (calls : List Call) (requestId : Text) : Attempt → Sent
  | .unreached fault | .refused _ (some fault) | .executed _ (some fault) => fault.sent
  | .refused refusal none => .response (refusal.response requestId)
  | .executed i none =>
    match calls[i]?.bind (reply requestId) with
    | some res => .response res
    | none => .timeoutException ""

/-- One call of `cancel_verification`, with a secret key of the app: the attempts it may make and
the request ids the server gives them. `id` is what the server finds under `verificationId`. -/
structure CancelSession where
  retries : Nat
  verificationId : Text
  appId : Id
  id : Id
  attempts : Nat → Attempt
  requestId : Nat → Text

/-- What the client returns or raises, and the attempts it made, when the server is at `p`. -/
def CancelSession.outcome (s : CancelSession) (p : Server) :
    Except Raised PublicVerification × Nat :=
  cancelVerification s.retries s.verificationId fun k =>
    (s.attempts k).sent p.calls (s.requestId k)

end Syrotp.Sdk
