import Syrotp.Sdk.Python

/-!
# The Swift SDK

`HttpExecutor.swift`, with any `transport` and `parse`, down to the suspensions at which the
caller's task can be cancelled, and the `transport` that `SyrotpClient.swift` gives it, over
`syrotpData` of `URLSession+Async.swift`. How long the sleeps are is left out.
-/

namespace Syrotp.Sdk.Swift

/-- What `transport()` throws, with its `localizedDescription`: the `URLError`s that are caught by
their code, a `CancellationError`, or anything else. -/
inductive TransportError where
  | timedOut (description : Text)
  | cancelled (description : Text)
  | cancellationError (description : Text)
  | other (description : Text)
  deriving DecidableEq, Repr

namespace TransportError

/-- The caller's task was cancelled during the request. -/
def isCancellation : TransportError → Bool
  | .cancelled _ | .cancellationError _ => true
  | .timedOut _ | .other _ => false

def localizedDescription : TransportError → Text
  | .timedOut description | .cancelled description | .cancellationError description
  | .other description => description

end TransportError

structure Error where
  errorClass : ErrorClass
  code : Text
  message : Text
  httpStatus : Nat
  requestId : Option Text
  deriving DecidableEq, Repr

/-- What `execute` throws. -/
inductive Thrown where
  | syrotp (e : Error)
  | cancellation
  deriving DecidableEq, Repr

/-- What `JSONSerialization` gives. -/
inductive JsonObject where
  | null
  | number
  | string (s : Text)
  | array (items : List JsonObject)
  | dictionary (members : List (Text × JsonObject))

/-- `try? JSONSerialization.jsonObject(with: data)`. -/
abbrev Parser := List UInt8 → Option JsonObject

/-- The data and the response; `retryAfter` is the header as `parseRetryAfter` reads it. -/
structure Response where
  statusCode : Nat
  retryAfter : Option Nat
  data : List UInt8
  deriving DecidableEq, Repr

inductive Fetched where
  | response (res : Response)
  | thrown (e : TransportError)
  deriving DecidableEq, Repr

/-! ## Errors -/

/-- `errObj[key] as? String`. -/
def asString (errObj : List (Text × JsonObject)) (key : Text) : Option Text :=
  match errObj.lookup key with
  | some (.string s) => some s
  | _ => none

/-- `parsed["error"] as? [String: Any]` of data that parses as a dictionary. -/
def errorObject (parser : Parser) (data : List UInt8) : Option (List (Text × JsonObject)) :=
  match parser data with
  | some (.dictionary parsed) =>
    match parsed.lookup (text "error") with
    | some (.dictionary errObj) => some errObj
    | _ => none
  | _ => none

/-- The class `errorFromResponse` picks. -/
def Response.errorClass (res : Response) : ErrorClass :=
  if res.statusCode = 401 ∨ res.statusCode = 403 then .auth
  else if res.statusCode = 400 then .validation
  else if res.statusCode = 429 then .rateLimit res.retryAfter
  else if 500 ≤ res.statusCode ∧ res.statusCode ≤ 599 then .server
  else .base

/-- `errorFromResponse`. -/
def errorFromResponse (parser : Parser) (res : Response) : Error :=
  let status := toString res.statusCode
  let code := text ("http_" ++ status)
  let message := text ("request failed with status " ++ status)
  if res.data.isEmpty then ⟨res.errorClass, code, message, res.statusCode, none⟩
  else
    match errorObject parser res.data with
    | some errObj =>
      ⟨res.errorClass, (asString errObj (text "code")).getD code,
        (asString errObj (text "message")).getD message, res.statusCode,
        asString errObj (text "request_id")⟩
    | none =>
      if (parser res.data).isNone then
        ⟨res.errorClass, text "bad_response", text ("non-JSON response (status " ++ status ++ ")"),
          res.statusCode, none⟩
      else ⟨res.errorClass, code, message, res.statusCode, none⟩

def isRetriable (e : Error) : Bool :=
  match e.errorClass with
  | .network | .server | .rateLimit _ => true
  | _ => false

/-! ## Cancellation -/

/-- When the caller's task is cancelled: before the first request, while request `attempt` is under
way, or after that one and before the next. -/
inductive Moment where
  | start
  | request (attempt : Nat)
  | sleep (attempt : Nat)
  deriving DecidableEq, Repr

/-- The task is cancelled when `transport()` is called for the attempt. -/
def Moment.precedes (m : Moment) (attempt : Nat) : Bool :=
  match m with
  | .start => true
  | .request k | .sleep k => k < attempt

/-! ## The executor -/

/-- What an execution does. -/
inductive Event where
  | request (attempt : Nat)
  | sleep (attempt : Nat)
  deriving DecidableEq, Repr

/-- A call of `transport()`: whether it starts a request, and what it gives. -/
structure Exchange where
  starts : Bool
  fetched : Fetched
  deriving DecidableEq, Repr

/-- What an execution is given. `transport k cancelled` is its call number `k`, in a task that is
cancelled by then or not. -/
structure Execution (α : Type*) where
  maxRetries : Nat
  transport : Nat → Bool → Exchange
  parse : Response → Except Error α
  parser : Parser
  cancelledAt : Option Moment

variable {α : Type*} (x : Execution α)

/-- `Task.isCancelled` at the call for the attempt. -/
def Execution.isCancelled (attempt : Nat) : Bool :=
  x.cancelledAt.any fun m => m.precedes attempt

def Execution.exchange (attempt : Nat) : Exchange := x.transport attempt (x.isCancelled attempt)

/-- `Task.sleep`, which throws when the task is cancelled. -/
def taskSleep (cancelled : Bool) : Except Thrown Unit :=
  if cancelled then .error .cancellation else .ok ()

/-- The default `sleeper`: `try? await Task.sleep`. -/
def sleeper (cancelled : Bool) : Unit := ((taskSleep cancelled).toOption).getD ()

/-- The loop of `execute` from `attempt` on, with the number of retries left. -/
def Execution.executeFrom : Nat → Nat → List Event × Except Thrown α
  | left, attempt =>
    let rest : List Event × Except Thrown α :=
      match (x.exchange attempt).fetched, left with
      | .thrown (.timedOut description), _ =>
        ([], .error (.syrotp ⟨.timeout, text "timeout", description, 0, none⟩))
      | .thrown (.cancelled _), _ => ([], .error .cancellation)
      | .thrown e, 0 =>
        ([], .error (.syrotp ⟨.network, text "network_error", e.localizedDescription, 0, none⟩))
      | .thrown _, left + 1 =>
        match sleeper (x.isCancelled (attempt + 1)) with
        | () =>
          let next := executeFrom left (attempt + 1)
          (.sleep attempt :: next.1, next.2)
      | .response res, left =>
        if 200 ≤ res.statusCode ∧ res.statusCode < 300 then ([], (x.parse res).mapError .syrotp)
        else
          match errorFromResponse x.parser res, left with
          | typed, 0 => ([], .error (.syrotp typed))
          | typed, left + 1 =>
            if isRetriable typed then
              match sleeper (x.isCancelled (attempt + 1)) with
              | () =>
                let next := executeFrom left (attempt + 1)
                (.sleep attempt :: next.1, next.2)
            else ([], .error (.syrotp typed))
    ((if (x.exchange attempt).starts then [.request attempt] else []) ++ rest.1, rest.2)

def Execution.execute : List Event × Except Thrown α := x.executeFrom x.maxRetries 0

/-! ## The transport of the client -/

/-- What a session passes to the completion handler of a data task: a `URLError` by its code, with
its `localizedDescription`, no response, or a response, which may be none of HTTP. -/
inductive Completion where
  | timedOut (description : Text)
  | cancelled (description : Text)
  | failed (description : Text)
  | noResponse (badServerResponse : Text)
  | nonHttp
  | http (res : Response)
  deriving DecidableEq, Repr

/-- How a `URLSession` completes data task `k`: when the task is resumed, whatever happens to it
then, and when it is cancelled and never resumed. -/
structure UrlSession where
  resumed : Nat → Completion
  unresumed : Nat → Completion

/-- `URLSessionTask.cancel`: a data task that is not resumed yet ends in `URLError.cancelled`. -/
def UrlSession.Cancels (session : UrlSession) : Prop :=
  ∀ k, ∃ description, session.unresumed k = .cancelled description

/-- `TaskBox`, whose data task is not there yet. -/
structure TaskBox where
  cancelled : Bool

def TaskBox.onCancel (box : TaskBox) : TaskBox := { box with cancelled := true }

/-- `syrotpData`: whether the data task is resumed, and how it is completed. In a task that is
cancelled already, `withTaskCancellationHandler` calls `onCancel` first. -/
def UrlSession.syrotpData (session : UrlSession) (attempt : Nat) (cancelled : Bool) :
    Bool × Completion :=
  let box : TaskBox := ⟨false⟩
  let box := if cancelled then box.onCancel else box
  if box.cancelled then (false, session.unresumed attempt) else (true, session.resumed attempt)

/-- The `transport` of `request`. -/
def UrlSession.transport (session : UrlSession) (attempt : Nat) (cancelled : Bool) : Exchange :=
  let data := session.syrotpData attempt cancelled
  ⟨data.1,
    match data.2 with
    | .timedOut description => .thrown (.timedOut description)
    | .cancelled description => .thrown (.cancelled description)
    | .failed description | .noResponse description => .thrown (.other description)
    | .nonHttp => .thrown (.other
        (text "SyrotpError(code=bad_response, message=non-HTTP response, httpStatus=0)"))
    | .http res => .response res⟩

end Syrotp.Sdk.Swift
