import Syrotp.Misc.PyText
import Syrotp.Sdk.PythonRetry

/-!
# The records of the Python SDK

`types.py`, `_parse_retry_after` and `_error_from_response` of `_http.py`, and `on_response` and the
three methods of `client.py`, down to the JSON values of a body. Python's `json` and `str` are
parameters: a body is any text, and loading it may fail in the ways they have.
-/

namespace Syrotp.Sdk.Records

open Py

/-! ## JSON -/

/-- What `json.loads` gives; a float is its 64 bits. -/
inductive Json where
  | null
  | bool (b : Bool)
  | int (n : ℤ)
  | float (bits : UInt64)
  | string (s : Text)
  | array (items : List Json)
  | object (members : List (Text × Json))

abbrev Members := List (Text × Json)

/-- Whether Python takes it for true; both zeros are false. -/
def Json.truthy : Json → Bool
  | .null => false
  | .bool b => b
  | .int n => n != 0
  | .float bits => bits != 0 && bits != 0x8000000000000000
  | .string s => !s.isEmpty
  | .array items => !items.isEmpty
  | .object members => !members.isEmpty

/-- `json.loads` returns, or raises a `JSONDecodeError`, another `ValueError` (for an integer of
more digits than Python converts) or a `RecursionError`. -/
inductive Loaded where
  | value (v : Json)
  | decodeError
  | valueError
  | recursionError

/-- Python's own: `json.loads` of a `str` and of `bytes`, and `str`, which raises a
`RecursionError` where it gives none. -/
structure Decoder where
  loads : Text → Loaded
  loadsBytes : List UInt8 → Loaded
  str : Json → Option String

/-! ## Responses -/

/-- `retryAfter` is the header `Retry-After`, and `text` is `content` decoded. -/
structure HttpResponse where
  statusCode : Nat
  retryAfter : Option Str
  text : Text
  content : List UInt8
  deriving DecidableEq, Repr

def HttpResponse.isSuccess (res : HttpResponse) : Prop :=
  200 ≤ res.statusCode ∧ res.statusCode < 300

instance (res : HttpResponse) : Decidable res.isSuccess := instDecidableAnd

/-- `_parse_retry_after`; it makes 0 of a negative integer. -/
def parseRetryAfter : Option Str → Option Nat
  | none => none
  | some value => if value.isEmpty then none else (pyInt (strip value)).map Int.toNat

variable (d : Decoder)

/-- `str(member or default)`. -/
def Decoder.strOr (member : Option Json) (default : String) : Except PyError String :=
  match member with
  | none => .ok default
  | some v =>
    if v.truthy then
      match d.str v with
      | some s => .ok s
      | none => .error .recursionError
    else .ok default

/-- `str(rid) if rid is not None else None`. -/
def Decoder.strUnlessNone (rid : Option Json) : Except PyError (Option Text) :=
  match rid with
  | none | some .null => .ok none
  | some v =>
    match d.str v with
    | some s => .ok (some (text s))
    | none => .error .recursionError

/-- The `code`, the `message` and the `request_id` that `_error_from_response` reads. -/
def Decoder.errorFields (status : Nat) (bodyText : Text) :
    Except PyError (String × String × Option Text) :=
  let code := "http_" ++ toString status
  let message := "request failed with status " ++ toString status
  match if bodyText.isEmpty then .value (.object []) else d.loads bodyText with
  | .decodeError =>
    .ok ("bad_response", "non-JSON response (status " ++ toString status ++ ")", none)
  | .valueError => .error .valueError
  | .recursionError => .error .recursionError
  | .value (.object body) =>
    match body.lookup (text "error") with
    | some (.object err) => do
      let code ← d.strOr (err.lookup (text "code")) code
      let message ← d.strOr (err.lookup (text "message")) message
      let requestId ← d.strUnlessNone (err.lookup (text "request_id"))
      return (code, message, requestId)
    | _ => .ok (code, message, none)
  | .value _ => .ok (code, message, none)

/-- The class `_error_from_response` picks. -/
def HttpResponse.errorClass (res : HttpResponse) : ErrorClass :=
  if res.statusCode = 401 ∨ res.statusCode = 403 then .auth
  else if res.statusCode = 400 then .validation
  else if res.statusCode = 429 then .rateLimit (parseRetryAfter res.retryAfter)
  else if 500 ≤ res.statusCode ∧ res.statusCode < 600 then .server
  else .base

/-- What is raised for the error of `_error_from_response`, or in its place. -/
def Decoder.errorFromResponse (res : HttpResponse) : PyError :=
  match d.errorFields res.statusCode res.text with
  | .ok (code, message, requestId) =>
    .syrotp ⟨res.errorClass, code, message, res.statusCode, requestId⟩
  | .error e => e

/-- `on_response` of `_request`. -/
def Decoder.onResponse (res : HttpResponse) : Except PyError Members :=
  if res.isSuccess then
    if res.text.isEmpty then .ok []
    else
      match d.loadsBytes res.content with
      | .value (.object parsed) => .ok parsed
      | .value _ => .error (.syrotp ⟨.base, "bad_response",
          "unexpected JSON shape (status " ++ toString res.statusCode ++ ")", res.statusCode, none⟩)
      | .decodeError | .valueError => .error (.syrotp ⟨.base, "bad_response",
          "non-JSON response (status " ++ toString res.statusCode ++ ")", res.statusCode, none⟩)
      | .recursionError => .error .recursionError
  else .error (d.errorFromResponse res)

/-! ## Verifications -/

inductive VerificationStatus where
  | pending
  | verified
  | expired
  | cancelled
  | failed
  | unknown
  deriving DecidableEq, Repr

namespace VerificationStatus

def value : VerificationStatus → Text
  | .pending => text "pending"
  | .verified => text "verified"
  | .expired => text "expired"
  | .cancelled => text "cancelled"
  | .failed => text "failed"
  | .unknown => text "unknown"

def members : List VerificationStatus :=
  [.pending, .verified, .expired, .cancelled, .failed, .unknown]

/-- `VerificationStatus(value)`, with its `_missing_`. -/
def ofJson : Json → VerificationStatus
  | .string s => (members.find? fun status => status.value = s).getD .unknown
  | _ => .unknown

end VerificationStatus

/-- `Verification`; Python's `None` is `Json.null`. -/
structure Verification where
  id : Json
  status : VerificationStatus
  phoneMasked : Json
  expiresAt : Json
  createdAt : Json
  sendTo : Json
  message : Json
  clientRef : Json
  purpose : Json
  verifiedAt : Json
  attempts : Json
  extras : Members

/-- The keys that `from_dict` knows. -/
def known : List Text :=
  ["id", "status", "phone_masked", "expires_at", "created_at", "send_to", "message", "client_ref",
    "purpose", "verified_at", "attempts"].map text

/-- `data[key]`. -/
def item (data : Members) (key : Text) : Except PyError Json :=
  match data.lookup key with
  | some v => .ok v
  | none => .error (.keyError key)

/-- `data.get(key)`. -/
def get (data : Members) (key : Text) : Json := (data.lookup key).getD .null

/-- `Verification.from_dict`. -/
def fromDict (data : Members) : Except PyError Verification := do
  let extras := data.filter fun m => !known.contains m.1
  let id ← item data (text "id")
  let status ← item data (text "status")
  let phoneMasked ← item data (text "phone_masked")
  let expiresAt ← item data (text "expires_at")
  let createdAt ← item data (text "created_at")
  return {
    id := id
    status := .ofJson status
    phoneMasked := phoneMasked
    expiresAt := expiresAt
    createdAt := createdAt
    sendTo := get data (text "send_to")
    message := get data (text "message")
    clientRef := get data (text "client_ref")
    purpose := get data (text "purpose")
    verifiedAt := get data (text "verified_at")
    attempts := get data (text "attempts")
    extras := extras }

/-! ## The client -/

/-- A client: its `_retries`, and what it runs on. -/
structure Client where
  retries : Nat
  decoder : Decoder
  sleeper : Sleeper
  jitter : Nat → ℚ → ℚ → ℚ

variable (c : Client) (transport : Nat → Arrival HttpResponse)

def Client.exchange (retries : Nat) : Exchange HttpResponse Members where
  maxRetries := retries
  transport := transport
  onResponse := c.decoder.onResponse
  jitter := c.jitter

/-- `Verification.from_dict(data)`, once `_request` has ended. -/
def record : Ending Members → Ending Verification
  | .raised e => .raised e
  | .returned data =>
    match fromDict data with
    | .ok v => .returned v
    | .error e => .raised e

/-- `_request` with this many retries, and the record of what it returns. -/
def Client.request (retries : Nat) : Ending Verification :=
  record ((c.exchange transport retries).execute c.sleeper).2

def invalid (message : String) : Ending Verification :=
  .raised (.syrotp ⟨.validation, "validation_error", message, 0, none⟩)

/-- `start_verification`; what else it is given goes into the body of the request. -/
def Client.startVerification (phone purpose : Text) : Ending Verification :=
  if phone.isEmpty then invalid "phone is required"
  else if purpose.isEmpty then invalid "purpose is required"
  else c.request transport c.retries

def Client.getVerification (verificationId : Text) : Ending Verification :=
  if isVerificationId verificationId then c.request transport c.retries
  else invalid "verification_id must match ^vrf_[A-Za-z0-9]+$"

def Client.cancelVerification (verificationId : Text) : Ending Verification :=
  if isVerificationId verificationId then c.request transport (min c.retries 1)
  else invalid "verification_id must match ^vrf_[A-Za-z0-9]+$"

end Syrotp.Sdk.Records
