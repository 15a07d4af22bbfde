import Syrotp.Server.AdminAuth
import Syrotp.Server.ApiKeys
import Syrotp.Server.GatewayRequest
import Syrotp.Server.RateLimit
import Syrotp.Server.Webauthn

/-!
# The edge of the server

What a request passes before its handler looks at the body: the key, the signature or the password
that the route asks for, and the rate limits before and behind it, in the order in which `routes/`,
`hosted/web/plugin.ts` and `admin/web/plugin.ts` have them. Any number of requests is on its way at
once, of all instances of the server; the stages of one are its awaited operations.
-/

namespace Syrotp

/-! ## Limits -/

/-- The rate limits, by the keys their buckets start with. -/
inductive BucketFamily where
  | startIp
  | startApp
  | statusIp
  | cancelApp
  | phoneBindingStartApp
  | phoneBindingReadApp
  | phoneBindingRevokeApp
  | webhookCrudApp
  | webauthnApp
  | inboundIp
  | inboundReceiver
  | inboundApp
  | heartbeatReceiver
  | adminIp
  deriving DecidableEq, Repr

/-- What the key of a bucket ends with. -/
inductive BucketScope where
  | address
  | app
  | receiver
  deriving DecidableEq, Repr

namespace BucketFamily

def keyStart : BucketFamily → Text
  | .startIp => text "start:ip:"
  | .startApp => text "start:app:"
  | .statusIp => text "status:ip:"
  | .cancelApp => text "cancel:app:"
  | .phoneBindingStartApp => text "phone_binding_start:app:"
  | .phoneBindingReadApp => text "phone_binding_read:app:"
  | .phoneBindingRevokeApp => text "phone_binding_revoke:app:"
  | .webhookCrudApp => text "webhook_crud:app:"
  | .webauthnApp => text "webauthn:app:"
  | .inboundIp => text "inbound:ip:"
  | .inboundReceiver => text "inbound:rcv:"
  | .inboundApp => text "inbound:app:"
  | .heartbeatReceiver => text "heartbeat:rcv:"
  | .adminIp => text "admin:ip:"

def scope : BucketFamily → BucketScope
  | .startIp | .statusIp | .inboundIp | .adminIp => .address
  | .inboundReceiver | .heartbeatReceiver => .receiver
  | _ => .app

/-- A minute, and five of them for the dashboard. -/
def windowSeconds : BucketFamily → Nat
  | .adminIp => 5 * 60
  | _ => 60

end BucketFamily

/-- The limits of `config.ts`, each at least 1. -/
structure RateLimits where
  limit : BucketFamily → Nat
  least : ∀ family, 1 ≤ limit family

/-- Their defaults. -/
def RateLimits.default : RateLimits where
  limit
    | .startIp => 10
    | .statusIp => 60
    | .inboundReceiver => 120
    | .inboundIp => 600
    | .heartbeatReceiver => 6
    | .startApp => 500
    | .inboundApp => 1000
    | .phoneBindingStartApp => 60
    | .cancelApp => 60
    | .webhookCrudApp => 30
    | .phoneBindingReadApp => 60
    | .phoneBindingRevokeApp => 30
    | .webauthnApp => 30
    | .adminIp => 10
  least family := by cases family <;> decide

structure Bucket where
  family : BucketFamily
  owner : Text
  deriving DecidableEq, Repr

/-- What `rateCheck` is called with. -/
def Bucket.request (limits : RateLimits) (b : Bucket) : RateRequest :=
  ⟨b.family.keyStart ++ b.owner, limits.limit b.family, b.family.windowSeconds⟩

/-- What Redis answers to the pipeline: the count, or nothing since it aborted it, or an error in
the place of the count. -/
inductive RedisAnswer where
  | counted
  | aborted
  | errored
  deriving DecidableEq, Repr

/-- `rateCheck`, with the clock read again when the answer is there. Redis executes the pipeline at
the instant at which the process computes the window: one that reaches it later, after the counter
of its window has expired, starts that counter again, and is left out. -/
def Bucket.check (limits : RateLimits) (b : Bucket) (redis : Counters) (now later : Time) :
    RedisAnswer → RateCheck × Counters
  | .counted =>
    let executed := (b.request limits).pipeline redis now
    ((b.request limits).check later (some (some executed.1)), executed.2)
  | .aborted => ((b.request limits).check later none, redis)
  | .errored => ((b.request limits).check later (some none), redis)

/-! ## Routes -/

/-- The routes with a limit; those of `routes/webhooks.ts` share one, and those of
`routes/webauthn.ts` and of the dashboard. -/
inductive Route where
  | startVerification
  | getVerification
  | cancelVerification
  | startBinding
  | getBinding
  | revokeBinding
  | webhooks
  | webauthn
  | hostedStatus
  | inboundSms
  | heartbeat
  | admin
  deriving DecidableEq, Repr

/-- What a route asks for. -/
inductive Door where
  | anyone
  | key (allowed : List ApiKeyKind)
  | gateway
  | password
  deriving DecidableEq, Repr

def Route.door : Route → Door
  | .startVerification | .getVerification => .key [.publicKey, .secretKey]
  | .cancelVerification | .startBinding | .getBinding | .revokeBinding | .webhooks | .webauthn =>
    .key [.secretKey]
  | .hostedStatus => .anyone
  | .inboundSms | .heartbeat => .gateway
  | .admin => .password

/-- Who a request was let in as. -/
inductive Principal where
  | anyone
  | key (key : AuthedKey)
  | gateway (receiver : VerifiedReceiver)
  | operator
  deriving DecidableEq, Repr

/-- A request, as far as it is looked at before its handler. -/
structure EdgeRequest where
  route : Route
  ip : Text
  authorization : Option Text
  /-- The id in the path of a heartbeat. -/
  pathId : Text
  http : HttpRequest

/-- The settings and what lies outside: the digests, the text of an id, and what
`@fastify/basic-auth` reads of an `Authorization` header. -/
structure EdgeService where
  config : Config
  limits : RateLimits
  keys : KeyService
  crypto : Crypto
  admin : AdminSettings
  scrypt : Scrypt
  webauthn : WebauthnConfig
  hostedPageEnabled : Bool
  idText : Id → Text
  basicCredentials : Option Text → Option (Text × Text)

/-- Whether the plugin registers its routes. -/
def Route.isMounted (E : EdgeService) : Route → Bool
  | .admin => E.admin.mounted
  | .webauthn => E.webauthn.isConfigured
  | .hostedStatus => E.hostedPageEnabled
  | _ => true

/-- The limits before the door. -/
def EdgeRequest.before (req : EdgeRequest) : List Bucket :=
  match req.route with
  | .hostedStatus => [⟨.statusIp, req.ip⟩]
  | .inboundSms | .heartbeat => [⟨.inboundIp, req.ip⟩]
  | .admin => [⟨.adminIp, req.ip⟩]
  | _ => []

/-- The limits behind it. -/
def EdgeRequest.behind (E : EdgeService) (req : EdgeRequest) : Principal → List Bucket
  | .key key =>
    let app := E.idText key.appId
    match req.route with
    | .startVerification => [⟨.startIp, req.ip⟩, ⟨.startApp, app⟩]
    | .getVerification => [⟨.statusIp, req.ip⟩]
    | .cancelVerification => [⟨.cancelApp, app⟩]
    | .startBinding => [⟨.phoneBindingStartApp, app⟩]
    | .getBinding => [⟨.phoneBindingReadApp, app⟩]
    | .revokeBinding => [⟨.phoneBindingRevokeApp, app⟩]
    | .webhooks => [⟨.webhookCrudApp, app⟩]
    | .webauthn => [⟨.webauthnApp, app⟩]
    | _ => []
  | .gateway receiver =>
    match req.route with
    | .inboundSms => [⟨.inboundReceiver, receiver.id⟩, ⟨.inboundApp, receiver.appId⟩]
    | .heartbeat => [⟨.heartbeatReceiver, receiver.id⟩]
    | _ => []
  | .anyone | .operator => []

/-- `unauthorized` of `lib/errors.ts`. -/
def unauthorized (message : String) : ApiError := ⟨401, "unauthorized", message⟩

/-- What a gateway route reads before it awaits anything. -/
def EdgeRequest.gatewayInput (req : EdgeRequest) : Except ApiError VerifyHmacInput :=
  let malformed := badRequest "bad_receiver_id" "malformed receiver id"
  let bodiless := badRequest "bad_body" "raw body unavailable"
  if req.route = .heartbeat then
    if !isReceiverId req.pathId then .error malformed
    else
      match header req.http.timestamp, header req.http.nonce, header req.http.signature with
      | some timestamp, some nonce, some signature =>
        match rawBody req.http with
        | none => .error bodiless
        | some body => .ok ⟨req.pathId, timestamp, nonce, signature, body⟩
      | _, _, _ => .error (unauthorized "missing or invalid credentials")
  else
    match header req.http.receiver, header req.http.timestamp, header req.http.nonce,
      header req.http.signature with
    | some receiverId, some timestamp, some nonce, some signature =>
      if !isReceiverId receiverId then .error malformed
      else
        match rawBody req.http with
        | none => .error bodiless
        | some body => .ok ⟨receiverId, timestamp, nonce, signature, body⟩
    | _, _, _, _ => .error (unauthorized "missing gateway headers")

/-! ## Requests on their way -/

/-- The next awaited operation of a request. -/
inductive EdgePhase where
  /-- The check of the first of the limits that are left before the door. -/
  | before (buckets : List Bucket)
  /-- The query of `requireKey`. -/
  | select (raw : Text) (kind : Option ApiKeyKind)
  | hmac (input : VerifyHmacInput) (phase : HmacPhase)
  /-- `validate` of the dashboard. -/
  | password (username password : Text)
  /-- The check of the first of those that are left behind it. -/
  | behind (principal : Principal) (buckets : List Bucket)
  /-- The handler has the request. -/
  | handler (principal : Principal)
  | refused (error : ApiError)
  /-- `@fastify/basic-auth` has answered 401. -/
  | challenged
  | limited (bucket : Bucket) (retryAfterSeconds : Nat)
  | failed
  deriving DecidableEq

/-- Where a request stands that was let in. -/
def EdgePhase.letIn (p : Principal) : List Bucket → EdgePhase
  | [] => .handler p
  | b :: rest => .behind p (b :: rest)

/-- Where it stands at the door. -/
def EdgeRequest.doorstep (E : EdgeService) (req : EdgeRequest) : EdgePhase :=
  match req.route.door with
  | .anyone => .letIn .anyone (req.behind E .anyone)
  | .key _ =>
    match requireEntry req.authorization with
    | .select raw kind => .select raw kind
    | .done (.error e) => .refused e.toApiError
    | .done (.ok _) | .failed => .failed
  | .gateway =>
    match req.gatewayInput with
    | .ok input => .hmac input .check
    | .error e => .refused e
  | .password =>
    match E.basicCredentials req.authorization with
    | none => .challenged
    | some (username, password) => .password username password

/-- Where it stands while those limits are left before the door. -/
def EdgeRequest.approach (E : EdgeService) (req : EdgeRequest) : List Bucket → EdgePhase
  | [] => req.doorstep E
  | b :: rest => .before (b :: rest)

/-- Where it stands when it arrives: a gateway route looks at its headers first. -/
def EdgeRequest.arrived (E : EdgeService) (req : EdgeRequest) : EdgePhase :=
  match req.route.door, req.gatewayInput with
  | .gateway, .error e => .refused e
  | _, _ => req.approach E req.before

/-- The database and the Redis: the receivers, nonces and clock of the gateway checks, the counters,
and the apps with their keys. -/
structure EdgeStore where
  gateway : GatewayStore
  redis : Counters
  keys : KeyDb

abbrev EdgeStore.now (s : EdgeStore) : Time := s.gateway.clock

def EdgeStore.at (s : EdgeStore) (now : Time) : EdgeStore :=
  { s with gateway := { s.gateway with clock := now } }

/-- What an operation that checks a limit leaves. -/
def EdgeRequest.rateCheck (E : EdgeService) (s : EdgeStore) (now later : Time)
    (answer : RedisAnswer) (b : Bucket) (passed : EdgePhase) : EdgePhase × EdgeStore :=
  let rl := b.check E.limits s.redis now later answer
  (if rl.1.allowed then passed else .limited b rl.1.resetSeconds, { s.at now with redis := rl.2 })

/-- What `requireKey` makes of its query. -/
def EdgeRequest.keyed (E : EdgeService) (req : EdgeRequest) (found : Option AuthedKey) : EdgePhase :=
  match req.route.door with
  | .key allowed =>
    match decideKey allowed found with
    | .ok key => .letIn (.key key) (req.behind E (.key key))
    | .error e => .refused e.toApiError
  | _ => .failed

/-- What a gateway route makes of the next stage of `verifyGatewayHmac`. -/
def EdgeRequest.signed (E : EdgeService) (req : EdgeRequest) (input : VerifyHmacInput) :
    HmacPhase → EdgePhase
  | .done (.ok receiver) => .letIn (.gateway receiver) (req.behind E (.gateway receiver))
  | .done (.error _) => .refused (unauthorized "missing or invalid credentials")
  | phase => .hmac input phase

/-- The next operation of a request, at a time not before the last one. -/
def EdgeRequest.operation (E : EdgeService) (s : EdgeStore) (now later : Time) (answer : RedisAnswer)
    (req : EdgeRequest) : EdgePhase → Option (EdgePhase × EdgeStore)
  | .before (b :: rest) =>
    some (EdgeRequest.rateCheck E s now later answer b (req.approach E rest))
  | .behind p (b :: rest) => some (EdgeRequest.rateCheck E s now later answer b (.letIn p rest))
  | .select raw kind => some (req.keyed E (lookupApiKey E.keys s.keys raw kind), s.at now)
  | .hmac input phase =>
    (verifyGatewayHmac E.crypto E.config s.gateway now input phase).map fun r =>
      (req.signed E input r.1, { s with gateway := ⟨now, s.gateway.receivers, r.2⟩ })
  | .password username password =>
    some (if E.admin.validate E.scrypt username password then
      .letIn .operator (req.behind E .operator) else .challenged, s.at now)
  | _ => none

inductive EdgeArrival where
  | request (req : EdgeRequest)
  /-- What anything else writes of the receivers, apps and keys. -/
  | write (keys : KeyDb) (receivers : List GatewayReceiver)

inductive EdgeCall where
  | serve (req : EdgeRequest) (phase : EdgePhase)
  | write (keys : KeyDb) (receivers : List GatewayReceiver) (isDone : Bool)

/-- How the turn of a call goes. -/
inductive EdgeMove where
  /-- At `now`; where it checks a limit, Redis gives an answer, which is there at `later`. -/
  | run (now later : Time) (answer : RedisAnswer)
  /-- The operation throws. -/
  | error
  /-- It takes effect, but its answer is lost and it throws. -/
  | lost (now : Time)
  deriving DecidableEq, Repr

def EdgeCall.turn (E : EdgeService) (s : EdgeStore) :
    EdgeCall → EdgeMove → Option (Turn EdgeStore EdgeCall)
  | .serve req phase, .run now later answer =>
    if now < s.now ∨ later < now then none
    else (req.operation E s now later answer phase).map fun r => ⟨r.2, .serve req r.1, []⟩
  | .serve req phase, .lost now =>
    if now < s.now then none
    else (req.operation E s now now .counted phase).map fun r => ⟨r.2, .serve req .failed, []⟩
  | .serve req phase, .error =>
    (req.operation E s s.now s.now .counted phase).map fun _ => ⟨s, .serve req .failed, []⟩
  | .write keys receivers false, .run now _ _ =>
    if now < s.now then none
    else some ⟨⟨⟨now, receivers, s.gateway.nonces⟩, s.redis, keys⟩, .write keys receivers true, []⟩
  | .write .., _ => none

def edge (E : EdgeService) : Program EdgeStore EdgeCall EdgeArrival EdgeMove where
  accept _
    | .request req => if req.route.isMounted E then some (.serve req (req.arrived E)) else none
    | .write keys receivers => some (.write keys receivers false)
  turn s _ c m := c.turn E s m

abbrev Edge := Pool EdgeStore EdgeCall

/-- A run from any tables, at any time, with no counter in Redis yet. -/
structure Edge.Fresh (s : Edge) : Prop where
  calls : s.calls = []
  redis : ∀ k, s.store.redis k = none

end Syrotp
