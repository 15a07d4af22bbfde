import Syrotp.Misc.JsText

/-!
# The database

The tables of `db/schema.ts` and `migrations/` that the verification flow reads and writes, with
the columns it uses. A table is the list of its committed rows.
-/

namespace Syrotp

/-- Milliseconds since the epoch: a JavaScript `Date` and a Postgres `timestamptz`. -/
abbrev Time := Nat

/-- The kinds of identifier of `lib/ids.ts`. -/
inductive IdKind where
  | app
  | verification
  | receiver
  | inbound
  | webhookEndpoint
  | webhookEvent
  | webhookDelivery
  | phoneBinding
  | webauthnCredential
  | webauthnChallenge
  deriving DecidableEq, Repr

/-- A prefixed ULID, `vrf_01H…`. -/
structure Id where
  kind : IdKind
  ulid : Nat
  deriving DecidableEq, Repr

/-- `newId` of `lib/ids.ts`, with the ULID drawn. -/
def newId (kind : IdKind) (ulid : Nat) : Id := ⟨kind, ulid⟩

/-- `verification_status`. -/
inductive VerificationStatus where
  | pending
  | verified
  | expired
  | cancelled
  | failed
  deriving DecidableEq, Repr

/-- The statuses of `phone_bindings`. -/
inductive PhoneBindingStatus where
  | pending
  | verified
  | revoked
  deriving DecidableEq, Repr

/-- `VERIFICATION_EVENT_TYPES` of `services/webhooks.ts`. -/
inductive VerificationEventType where
  | verified
  | expired
  | cancelled
  deriving DecidableEq, Repr

/-- `webhook_delivery_status`. -/
inductive WebhookDeliveryStatus where
  | pending
  | delivered
  | failed
  | abandoned
  deriving DecidableEq, Repr

structure Receiver where
  id : Id
  appId : Id
  operator : Option Text
  msisdn : Text
  enabled : Bool
  lastHeartbeatAt : Option Time
  createdAt : Time
  deriving DecidableEq, Repr

structure Verification where
  id : Id
  appId : Id
  phoneE164 : Text
  purpose : Text
  clientRef : Option Text
  locale : Option Text
  receiverId : Id
  receiverMsisdnSnapshot : Option Text
  receiverOperatorSnapshot : Option Text
  code : Text
  messagePrefix : Text
  status : VerificationStatus
  attempts : Nat
  expiresAt : Time
  verifiedAt : Option Time
  cancelledAt : Option Time
  matchedInboundId : Option Id
  createdIp : Option Text
  createdAt : Time
  deriving DecidableEq, Repr

structure InboundSms where
  id : Id
  receiverId : Id
  fromE164 : Text
  toMsisdn : Text
  body : Text
  receivedAt : Time
  idempotencyKey : Text
  matchedVerificationId : Option Id
  createdAt : Time
  deriving DecidableEq, Repr

structure PhoneBinding where
  id : Id
  appId : Id
  receiverId : Id
  phoneE164 : Text
  status : PhoneBindingStatus
  nonce : Text
  expiresAt : Time
  boundAt : Option Time
  revokedAt : Option Time
  createdAt : Time
  deriving DecidableEq, Repr

structure WebhookEndpoint where
  id : Id
  appId : Id
  url : Text
  secretCiphertext : Text
  enabled : Bool
  eventTypes : List VerificationEventType
  createdAt : Time
  updatedAt : Time
  deriving DecidableEq, Repr

/-- `VerificationEventData` of `services/webhooks.ts`. -/
structure VerificationEventData where
  verificationId : Id
  status : VerificationEventType
  phoneMasked : Text
  purpose : Text
  clientRef : Option Text
  verifiedAt : Option Time
  expiredAt : Option Time
  cancelledAt : Option Time
  deriving DecidableEq, Repr

/-- `VerificationEventEnvelope` of `services/webhooks.ts`. -/
structure VerificationEventEnvelope where
  id : Id
  type : VerificationEventType
  createdAt : Time
  data : VerificationEventData
  deriving DecidableEq, Repr

/-- A row of `webhook_events`; `payload` is the envelope that `payload_json` renders. -/
structure WebhookEvent where
  id : Id
  appId : Id
  eventType : VerificationEventType
  verificationId : Option Id
  payload : VerificationEventEnvelope
  createdAt : Time
  deriving DecidableEq, Repr

structure WebhookDelivery where
  id : Id
  endpointId : Id
  eventId : Id
  eventType : VerificationEventType
  status : WebhookDeliveryStatus
  attemptCount : Nat
  nextAttemptAt : Time
  lastStatusCode : Option Nat
  lastError : Option Text
  createdAt : Time
  updatedAt : Time
  deriving DecidableEq, Repr

/-- The committed rows. -/
structure Db where
  receivers : List Receiver
  phoneBindings : List PhoneBinding
  verifications : List Verification
  inboundSms : List InboundSms
  webhookEndpoints : List WebhookEndpoint
  webhookEvents : List WebhookEvent
  webhookDeliveries : List WebhookDelivery
  deriving DecidableEq, Repr

/-- A freshly migrated database. -/
def Db.empty : Db := ⟨[], [], [], [], [], [], []⟩

/-- `ApiError` of `lib/errors.ts`. -/
structure ApiError where
  statusCode : Nat
  code : String
  message : String
  deriving DecidableEq, Repr

def badRequest (code message : String) : ApiError := ⟨400, code, message⟩

def phoneNotBound : ApiError :=
  ⟨403, "phone_not_bound",
    "phone is not bound to this app; complete the phone-binding ceremony first"⟩

def notFound (resource : String) : ApiError := ⟨404, "not_found", resource ++ " not found"⟩

def conflict (code message : String) : ApiError := ⟨409, code, message⟩

def serviceUnavailable (code message : String) : ApiError := ⟨503, code, message⟩

/-- What the error handler answers for an error that is not an `ApiError`. -/
def internal : ApiError := ⟨500, "internal_error", "internal error"⟩

end Syrotp
