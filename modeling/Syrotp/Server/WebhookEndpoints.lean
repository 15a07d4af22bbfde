import Syrotp.Server.SsrfGuard
import Syrotp.Server.Webhooks
import Syrotp.Misc.Run
import Mathlib.Data.List.Sort

/-!
# Webhook endpoints

The CRUD half of `services/webhooks.ts` behind `/v1/webhooks`: creating an endpoint with its checks
of the URL and the event types, and the list, read and delete of an app's own endpoints. The routes
let no event type through that is not one of the three, and answer a refused URL with 400.
-/

namespace Syrotp

/-- `MAX_ENDPOINTS_PER_APP`. -/
def maxEndpointsPerApp : Nat := 10

/-- `URL_MAX`. -/
def urlMax : Nat := 2048

/-- What creating an endpoint takes from the process: the URL functions, whether the escape hatch
of the tests is open, and `wrap` with the master key, the id in the associated data and the
initialization vector drawn. -/
structure WebhookService where
  url : UrlPlatform
  escapeHatchActive : Bool
  wrap : Text → Id → (Nat → Nat) → Text

structure CreateWebhookInput where
  appId : Id
  url : Text
  eventTypes : List VerificationEventType
  deriving DecidableEq, Repr

/-- `WebhookEndpointPublic`. -/
structure WebhookEndpointPublic where
  id : Id
  appId : Id
  url : Text
  enabled : Bool
  eventTypes : List VerificationEventType
  createdAt : Time
  updatedAt : Time
  deriving DecidableEq, Repr

/-- `WebhookEndpointWithSecret`. -/
structure WebhookEndpointWithSecret where
  endpoint : WebhookEndpointPublic
  secret : Text
  deriving DecidableEq, Repr

/-- `toPublic`. -/
def WebhookEndpoint.toPublic (row : WebhookEndpoint) : WebhookEndpointPublic :=
  ⟨row.id, row.appId, row.url, row.enabled, row.eventTypes, row.createdAt, row.updatedAt⟩

/-- `generateWebhookSecret`, with the hex digits of the bytes drawn. -/
def generateWebhookSecret (random : Nat → Nat) : Text :=
  text "whsec_" ++ Text.draw (text "0123456789abcdef") 64 random

def WebhookValidationCode.label : WebhookValidationCode → String
  | .webhookUrlBlocked => "webhook_url_blocked"
  | .webhookUrlInvalid => "webhook_url_invalid"

/-- What the route makes of a refusal. -/
def WebhookValidationError.toApiError (e : WebhookValidationError) : ApiError :=
  badRequest e.code.label e.message

/-- `validateUrl`. -/
def validateUrl (S : WebhookService) (dns : Resolver) (value : Text) : Except ApiError Unit :=
  if value.length = 0 then .error (badRequest "validation_error" "url is required")
  else if urlMax < value.length then
    .error (badRequest "validation_error" "url exceeds 2048 chars")
  else
    match S.url.newURL value with
    | none => .error (badRequest "validation_error" "url is not a valid URL")
    | some parsed =>
      if parsed.protocol ≠ text "http:" ∧ parsed.protocol ≠ text "https:" then
        .error (badRequest "validation_error" "url must be http(s)")
      else if parsed.username ≠ [] ∨ parsed.password ≠ [] then
        .error (badRequest "validation_error" "url must not include credentials")
      else
        (assertWebhookUrlSafe S.url S.escapeHatchActive dns parsed).mapError
          WebhookValidationError.toApiError

/-- `uniqueValidatedEventTypes`. -/
def uniqueValidatedEventTypes (input : List VerificationEventType) :
    Except ApiError (List VerificationEventType) :=
  if input.length = 0 then
    .error (badRequest "validation_error" "event_types must be a non-empty array")
  else .ok input.eraseDups

/-! ## Calls -/

/-- The next step of `createWebhookEndpoint`. -/
inductive CreateWebhookPhase where
  | validate
  | selectExisting (events : List VerificationEventType)
  | insert (row : WebhookEndpoint) (secret : Text)
  | done (result : Except ApiError WebhookEndpointWithSecret)
  | failed
  deriving DecidableEq

/-- What the outside answers to a step: as for any statement, what DNS says, and the order of
endpoints created at the same time. -/
structure WebhookWorld extends World where
  dns : Resolver
  rank : Id → Nat

/-- One step of `createWebhookEndpoint`. -/
def createWebhookEndpoint (S : WebhookService) (v : View) (w : WebhookWorld)
    (input : CreateWebhookInput) : CreateWebhookPhase → Option (CreateWebhookPhase × Option Write)
  | .validate =>
    match validateUrl S w.dns input.url, uniqueValidatedEventTypes input.eventTypes with
    | .error e, _ => some (.done (.error e), none)
    | .ok _, .error e => some (.done (.error e), none)
    | .ok _, .ok events => some (.selectExisting events, none)
  | .selectExisting events =>
    let existing := v.db.webhookEndpoints.filter fun e => e.appId = input.appId
    if maxEndpointsPerApp ≤ existing.length then
      some (.done (.error (conflict "too_many_endpoints"
        "app has reached the limit of 10 webhook endpoints")), none)
    else
      let id := newId .webhookEndpoint (w.ulid 0)
      let secret := generateWebhookSecret w.random
      some (.insert
        { id := id
          appId := input.appId
          url := input.url
          secretCiphertext := S.wrap secret id fun i => w.random (64 + i)
          enabled := true
          eventTypes := events
          createdAt := w.now
          updatedAt := w.now } secret, none)
  | .insert row secret =>
    if hasKey (·.id) row.id v.db.webhookEndpoints then some (.done (.error internal), none)
    else some (.done (.ok ⟨row.toPublic, secret⟩), some (.insertEndpoint row))
  | .done _ => none
  | .failed => none

/-- The steps of one call. Between them anything may happen to the rows. -/
abbrev CreateWebhookRun (S : WebhookService) (input : CreateWebhookInput) :=
  Run (fun phase (e : View × WebhookWorld) =>
    (createWebhookEndpoint S e.1 e.2 input phase).map (·.1)) .validate

/-- `listWebhookEndpoints`: the newest first; the database is free to order those of one time. -/
def listWebhookEndpoints (db : Db) (rank : Id → Nat) (appId : Id) : List WebhookEndpointPublic :=
  ((db.webhookEndpoints.filter fun e => e.appId = appId).insertionSort fun e e' =>
    e'.createdAt < e.createdAt ∨ e.createdAt = e'.createdAt ∧ rank e.id ≤ rank e'.id).map
      WebhookEndpoint.toPublic

/-- `getWebhookEndpoint`. -/
def getWebhookEndpoint (db : Db) (appId id : Id) : Except ApiError WebhookEndpointPublic :=
  match db.webhookEndpoints.find? fun e => e.appId = appId ∧ e.id = id with
  | none => .error (notFound "webhook_endpoint")
  | some row => .ok row.toPublic

/-- `deleteWebhookEndpoint`, which waits while a delivery that refers to the row is not committed
yet. -/
def deleteWebhookEndpoint (v : View) (appId id : Id) :
    Option (Except ApiError Unit × Option Write) :=
  match v.db.webhookEndpoints.find? fun e => e.appId = appId ∧ e.id = id with
  | none => some (.error (notFound "webhook_endpoint"), none)
  | some row => if v.referenced row.id then none else some (.ok (), some (.deleteEndpoint appId id))

end Syrotp
