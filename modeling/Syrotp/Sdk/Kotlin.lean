import Syrotp.Sdk.Python

/-!
# The Kotlin SDK

`HttpExecutor.kt` and `doRequest` of `SyrotpClient.kt`. The sleeps between attempts are left out:
nothing that is returned or thrown depends on them. OkHttp is what `transport` and the body of a
response give: each may fail with an `IOException`.
-/

namespace Syrotp.Sdk.Kotlin

/-! ## Failures -/

/-- An `IOException`. The two timeouts are those that can end a call at its deadline: the
`callTimeout` of the client comes as an `InterruptedIOException`, a timeout of the socket as its
subclass `SocketTimeoutException`, whether or not the deadline has passed by then. -/
inductive IoException where
  | callTimeout (message : Option Text)
  | socketTimeout (deadlinePassed : Bool) (message : Option Text)
  | other (message : Option Text)
  deriving DecidableEq, Repr

namespace IoException

/-- The call ended because its deadline has passed. -/
def atDeadline : IoException → Bool
  | .callTimeout _ => true
  | .socketTimeout deadlinePassed _ => deadlinePassed
  | .other _ => false

def isSocketTimeout : IoException → Bool
  | .socketTimeout .. => true
  | _ => false

def message : IoException → Option Text
  | .callTimeout message | .socketTimeout _ message | .other message => message

end IoException

structure Error where
  errorClass : ErrorClass
  code : Text
  message : Text
  httpStatus : Nat
  requestId : Option Text
  deriving DecidableEq, Repr

/-- What is thrown: a `SyrotpError`, or an `IOException` that nothing catches. -/
inductive Thrown where
  | syrotp (e : Error)
  | io (e : IoException)
  deriving DecidableEq, Repr

/-! ## Responses -/

/-- A JSON element; what a number or a boolean reads is its content. -/
inductive JsonElement where
  | null
  | primitive (content : Text)
  | array (items : List JsonElement)
  | object (members : List (Text × JsonElement))

/-- `retryAfter` is the header as `parseRetryAfter` reads it, and `body` is
`body?.string().orEmpty()`. -/
structure Response where
  code : Nat
  retryAfter : Option Nat
  body : Except IoException Text
  deriving DecidableEq, Repr

/-- What `http.newCall(request).execute()` gives. -/
inductive Opened where
  | response (res : Response)
  | failure (e : IoException)
  deriving DecidableEq, Repr

def Response.isSuccessful (res : Response) : Prop := 200 ≤ res.code ∧ res.code < 300

instance (res : Response) : Decidable res.isSuccessful := instDecidableAnd

/-- `(err[key] as? JsonPrimitive)?.contentOrNull`. -/
def contentOrNull (err : List (Text × JsonElement)) (key : Text) : Option Text :=
  match err.lookup key with
  | some (.primitive content) => some content
  | _ => none

/-- `Json.parseToJsonElement`; none where it throws. -/
abbrev Parser := Text → Option JsonElement

/-- The class `errorFromResponse` picks. -/
def Response.errorClass (res : Response) : ErrorClass :=
  if res.code = 401 ∨ res.code = 403 then .auth
  else if res.code = 400 then .validation
  else if res.code = 429 then .rateLimit res.retryAfter
  else if 500 ≤ res.code ∧ res.code ≤ 599 then .server
  else .base

/-- The code, the message and the request id of `errorFromResponse`. -/
def errorFields (parser : Parser) (status : Nat) (body : Text) : Text × Text × Option Text :=
  let code := text ("http_" ++ toString status)
  let message := text ("request failed with status " ++ toString status)
  if body.isEmpty then (code, message, none)
  else
    match parser body with
    | none =>
      (text "bad_response", text ("non-JSON response (status " ++ toString status ++ ")"), none)
    | some (.object parsed) =>
      match parsed.lookup (text "error") with
      | some (.object err) =>
        ((contentOrNull err (text "code")).getD code,
          (contentOrNull err (text "message")).getD message,
          contentOrNull err (text "request_id"))
      | _ => (code, message, none)
    | some _ => (code, message, none)

/-- `errorFromResponse`, whose first line reads the body. -/
def errorFromResponse (parser : Parser) (res : Response) : Thrown :=
  match res.body with
  | .error e => .io e
  | .ok body =>
    let (code, message, requestId) := errorFields parser res.code body
    .syrotp ⟨res.errorClass, code, message, res.code, requestId⟩

/-- The `parse` of `doRequest`. -/
def parse (parser : Parser) (res : Response) : Except Thrown (List (Text × JsonElement)) :=
  let bad (message : String) : Thrown :=
    .syrotp ⟨.base, text "bad_response", text (message ++ " (status " ++ toString res.code ++ ")"),
      res.code, none⟩
  match res.body with
  | .error e => .error (.io e)
  | .ok body =>
    if body.isEmpty then .error (bad "empty response body")
    else
      match parser body with
      | none => .error (bad "non-JSON response")
      | some (.object members) => .ok members
      | some _ => .error (bad "unexpected JSON shape")

/-! ## The executor -/

def isRetriable (e : Error) : Bool :=
  match e.errorClass with
  | .network | .server | .rateLimit _ => true
  | _ => false

variable (parser : Parser) (transport : Nat → Opened)

/-- The loop of `execute` from `attempt` on, with the number of retries left: what it returns or
throws, and how many calls were made. -/
def executeFrom : Nat → Nat → Except Thrown (List (Text × JsonElement)) × Nat
  | left, attempt =>
    match transport attempt, left with
    | .failure (.socketTimeout _ message), _ =>
      (.error (.syrotp ⟨.timeout, text "timeout", message.getD (text "request timed out"), 0,
        none⟩), attempt + 1)
    | .failure e, 0 =>
      (.error (.syrotp ⟨.network, text "network_error", e.message.getD (text "network error"), 0,
        none⟩), attempt + 1)
    | .failure _, left + 1 => executeFrom left (attempt + 1)
    | .response res, left =>
      match if res.isSuccessful then parse parser res
        else .error (errorFromResponse parser res), left with
      | .error (.syrotp e), left + 1 =>
        if isRetriable e then executeFrom left (attempt + 1)
        else (.error (.syrotp e), attempt + 1)
      | result, _ => (result, attempt + 1)

/-- `execute` with the `parse` of `doRequest`. -/
def execute (maxRetries : Nat) : Except Thrown (List (Text × JsonElement)) × Nat :=
  executeFrom parser transport maxRetries 0

end Syrotp.Sdk.Kotlin
