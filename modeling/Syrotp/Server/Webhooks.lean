import Syrotp.Server.Transactions

/-!
# Webhook emission

`emitVerificationEventInTx` of `services/webhooks.ts`, statement by statement, inside the
transaction of its caller, and the endpoint rows it reads.
-/

namespace Syrotp

/-- `buildVerificationEventData`. -/
def buildVerificationEventData (row : Verification) (eventType : VerificationEventType) :
    VerificationEventData where
  verificationId := row.id
  status := eventType
  phoneMasked := maskPhone row.phoneE164
  purpose := row.purpose
  clientRef := row.clientRef
  verifiedAt := if eventType = .verified then row.verifiedAt else none
  expiredAt := if eventType = .expired then some row.expiresAt else none
  cancelledAt := if eventType = .cancelled then row.cancelledAt else none

/-- How far a transaction is inside `emitVerificationEventInTx`. The rows it has inserted are
`eventRow` and `deliveryRow` of what it drew. -/
inductive Emission where
  | insertEvent
  | selectEndpoints (eventId : Id) (createdAt : Time)
  | insertDeliveries (eventId : Id) (createdAt : Time) (endpoints : List Id)
  /-- It has returned; each delivery id comes with its endpoint's. -/
  | returned (eventId : Id) (createdAt : Time) (deliveries : List (Id × Id))
  deriving DecidableEq, Repr

/-- The row `emitVerificationEventInTx` inserts into `webhook_events`. -/
def eventRow (eventType : VerificationEventType) (appId : Id) (data : VerificationEventData)
    (eventId : Id) (createdAt : Time) : WebhookEvent where
  id := eventId
  appId := appId
  eventType := eventType
  verificationId := some data.verificationId
  payload := ⟨eventId, eventType, createdAt, data⟩
  createdAt := createdAt

/-- The row it inserts into `webhook_deliveries` for one endpoint. -/
def deliveryRow (eventType : VerificationEventType) (eventId : Id) (createdAt : Time)
    (d : Id × Id) : WebhookDelivery where
  id := d.1
  endpointId := d.2
  eventId := eventId
  eventType := eventType
  status := .pending
  attemptCount := 0
  nextAttemptAt := createdAt
  lastStatusCode := none
  lastError := none
  createdAt := createdAt
  updatedAt := createdAt

/-- The `WHERE` of the endpoint query: same app, enabled, subscribed to the type. -/
def subscribed (eventType : VerificationEventType) (appId : Id) (e : WebhookEndpoint) : Bool :=
  e.appId = appId ∧ e.enabled = true ∧ eventType ∈ e.eventTypes

/-- The endpoints an event of this type of this app fans out to. -/
def subscribedEndpoints (eventType : VerificationEventType) (appId : Id) (db : Db) : List Id :=
  (db.webhookEndpoints.filter (subscribed eventType appId)).map (·.id)

/-- A primary key can be inserted: no row has it, no other transaction is inserting it. -/
def View.freshKey (v : View) (id : Id) (taken : Bool) : Bool := !taken && !v.held (.key id)

/-- One statement of `emitVerificationEventInTx`. -/
def emitVerificationEventInTx (v : View) (w : World) (eventType : VerificationEventType)
    (appId : Id) : Emission → Option Emission
  | .insertEvent =>
    let eventId := newId .webhookEvent (w.ulid 0)
    if v.freshKey eventId (hasKey (·.id) eventId v.db.webhookEvents) then
      some (.selectEndpoints eventId w.now)
    else none
  | .selectEndpoints eventId createdAt =>
    match subscribedEndpoints eventType appId v.db with
    | [] => some (.returned eventId createdAt [])
    | endpoints => some (.insertDeliveries eventId createdAt endpoints)
  | .insertDeliveries eventId createdAt endpoints =>
    let deliveries := endpoints.mapIdx fun i e => (newId .webhookDelivery (w.ulid i), e)
    if deliveries.all (fun d =>
        v.freshKey d.1 (hasKey (·.id) d.1 v.db.webhookDeliveries) &&
          hasKey (·.id) d.2 v.db.webhookEndpoints) ∧ (deliveries.map (·.1)).Nodup then
      some (.returned eventId createdAt deliveries)
    else none
  | .returned .. => none

/-- The primary keys the transaction has inserted so far. -/
def Emission.locks : Emission → List Lock
  | .insertEvent => []
  | .selectEndpoints eventId _ => [.key eventId]
  | .insertDeliveries eventId _ _ => [.key eventId]
  | .returned eventId _ deliveries => .key eventId :: deliveries.map fun d => .key d.1

/-- The endpoint rows its uncommitted deliveries refer to. -/
def Emission.references : Emission → List Id
  | .returned _ _ deliveries => deliveries.map (·.2)
  | _ => []

/-- What the transaction commits once the emission has returned: the verification's new version
`row`, the event, the deliveries, and the link of `inbound`. -/
def Emission.write? (row : Verification) (eventType : VerificationEventType)
    (inbound : Option Id) : Emission → Option Write
  | .returned eventId createdAt deliveries =>
    some (.resolveVerification row
      (eventRow eventType row.appId (buildVerificationEventData row eventType) eventId createdAt)
      (deliveries.map (deliveryRow eventType eventId createdAt)) inbound)
  | _ => none

end Syrotp
