import Syrotp.Server.Matching
import Syrotp.Misc.Pool

/-!
# The server

All calls in flight on one database, on any number of server processes. A request arrives through
its route and becomes a call; from then on the calls take turns, one awaited statement each, in
any order. A turn may also fail: the statement throws, its acknowledgement is lost after it took
effect, or the process crashes.
-/

namespace Syrotp

/-! ## Requests -/

/-- `startBody` of `POST /v1/verifications`, with the caller's app and address. -/
structure StartRequest where
  appId : Id
  phone : Text
  purpose : Text
  clientRef : Option Text
  locale : Option Text
  operator : Option Text
  ip : Option Text
  deriving DecidableEq, Repr

/-- `[a-zA-Z0-9_\-:.]`. -/
def isPurposeChar (c : UInt16) : Bool :=
  (97 ≤ c && c ≤ 122) || (65 ≤ c && c ≤ 90) || (48 ≤ c && c ≤ 57) || c == 95 || c == 45 ||
    c == 58 || c == 46

/-- `validatePurpose`. -/
def validatePurpose (p : Text) : Except ApiError Unit :=
  if p.all isPurposeChar ∧ 2 ≤ p.length ∧ p.length ≤ 64 then .ok ()
  else .error (badRequest "invalid_purpose" "purpose must be 2-64 chars matching [a-zA-Z0-9_-:.]")

def PhoneError.code : PhoneError → String
  | .invalidPhone => "invalid_phone"
  | .phoneTypeNotAllowed => "phone_type_not_allowed"

/-- What the start route hands to `startVerification`. -/
def StartRequest.toInput (env : Env) (r : StartRequest) : Except ApiError StartVerificationInput :=
  match validatePurpose r.purpose with
  | .error e => .error e
  | .ok () =>
    match normalizePhone env.platform r.phone env.config.defaultPhoneRegion with
    | .error e => .error (badRequest e.code "phone is not valid")
    | .ok n => .ok ⟨r.appId, n.e164, r.purpose, r.clientRef, r.locale, r.ip, r.operator⟩

/-- The writes that reach the tables from the heartbeat route, the admin commands and the webhook
endpoint routes. -/
inductive Maintenance where
  | putReceiver (row : Receiver)
  | createEndpoint (row : WebhookEndpoint)
  | deleteEndpoint (appId id : Id)
  deriving DecidableEq, Repr

inductive Request where
  | startVerification (r : StartRequest)
  /-- An inbound whose signature verified for the receiver. -/
  | inbound (receiverId : Id) (body : InboundBody)
  | cancelVerification (appId id : Id)
  | read (r : Read)
  | startBinding (input : StartBindingInput)
  | revokeBinding (appId id : Id)
  | maintain (m : Maintenance)

/-! ## Calls -/

/-- A call of one statement, or what it answered. -/
inductive OneShot (α : Type*) where
  | ready
  | done (result : α)
  | failed
  deriving DecidableEq, Repr

inductive Call where
  | start (input : StartVerificationInput) (phase : StartPhase)
  /-- A start the route rejected. -/
  | rejected (error : ApiError)
  | inbound (input : MatchInput) (phase : InboundPhase)
  | cancel (appId id : Id) (phase : CancelPhase)
  | expire (id : Id) (phase : ExpirePhase)
  | read (r : Read) (phase : ReadPhase)
  | bind (input : StartBindingInput) (phase : StartBindingPhase)
  | revoke (appId id : Id) (phase : OneShot (Except ApiError PublicBinding))
  | maintain (m : Maintenance) (phase : OneShot Unit)
  deriving DecidableEq

/-- Whether a call waits for a statement. -/
def Call.inFlight : Call → Bool
  | .start _ (.done _) | .start _ .failed | .rejected _
  | .inbound _ (.done _) | .inbound _ .failed
  | .cancel _ _ (.done _) | .cancel _ _ .failed
  | .expire _ .done | .expire _ .failed
  | .read _ (.done _) | .read _ .failed
  | .bind _ (.done _) | .bind _ .failed
  | .revoke _ _ (.done _) | .revoke _ _ .failed
  | .maintain _ (.done _) | .maintain _ .failed => false
  | _ => true

def Call.locks : Call → List Lock
  | .start input phase => phase.locks input
  | .inbound _ phase => phase.locks
  | .cancel _ _ (.emit row emission) => emitLocks row emission
  | .expire _ (.emit row emission) => emitLocks row emission
  | _ => []

/-- The endpoint rows a call keeps from being deleted. -/
def Call.references : Call → List Id
  | .inbound _ (.emit _ _ emission) => emission.references
  | .inbound _ (.commit _ _ emission) => emission.references
  | .cancel _ _ (.emit _ emission) => emission.references
  | .expire _ (.emit _ emission) => emission.references
  | _ => []

/-- What a statement of one call sees. -/
def viewOf (db : Db) (others : List Call) : View where
  db := db
  held l := others.any fun c => decide (l ∈ c.locks)
  referenced id := others.any fun c => decide (id ∈ c.references)

/-- The row a maintenance statement writes, `none` while it waits or when it cannot. A heartbeat or
an admin command that updates a receiver leaves it with its app. -/
def Maintenance.write? (v : View) : Maintenance → Option Write
  | .putReceiver row =>
    if v.db.receivers.any fun r => r.id = row.id ∧ r.appId ≠ row.appId then none
    else some (.putReceiver row)
  | .createEndpoint row =>
    if hasKey (·.id) row.id v.db.webhookEndpoints then none else some (.insertEndpoint row)
  | .deleteEndpoint appId id =>
    if v.referenced id then none else some (.deleteEndpoint appId id)

/-! ## Turns -/

/-- The next statement of a call. -/
def Call.statement (env : Env) (v : View) (w : World) : Call → Option (Turn Db Call)
  | .start input phase => (startVerification env v w input phase).map fun r =>
      ⟨v.db.commitOption r.2, .start input r.1, []⟩
  | .rejected _ => none
  | .inbound input phase => (processInbound env v w input phase).map fun r =>
      ⟨v.db.commitOption r.2, .inbound input r.1, []⟩
  | .cancel appId id phase => (cancelVerification v w appId id phase).map fun r =>
      ⟨v.db.commitOption r.2.1, .cancel appId id r.1, r.2.2.toList.map (.expire · .update)⟩
  | .expire id phase => (lazyExpireAndEmit v w id phase).map fun r =>
      ⟨v.db.commitOption r.2, .expire id r.1, []⟩
  | .read r .select => some ⟨v.db, .read r (.tell (r.select v.db)), []⟩
  | .read r (.tell selected) => some ⟨v.db, .read r (.done (r.tell w.now selected)),
      (due w.now selected).toList.map (.expire · .update)⟩
  | .read .. => none
  | .bind input phase => (startBinding env v w input phase).map fun r =>
      ⟨v.db.commitOption r.2, .bind input r.1, []⟩
  | .revoke appId id .ready =>
    let r := revokeBinding v.db w appId id
    some ⟨v.db.commitOption r.2, .revoke appId id (.done r.1), []⟩
  | .revoke .. => none
  | .maintain m .ready => (m.write? v).map fun write =>
      ⟨v.db.commit write, .maintain m (.done ()), []⟩
  | .maintain .. => none

/-- The process is gone, and its open transaction with it. -/
def Call.crashed : Call → Call
  | .start input _ => .start input .failed
  | .rejected e => .rejected e
  | .inbound input _ => .inbound input .failed
  | .cancel appId id _ => .cancel appId id .failed
  | .expire id _ => .expire id .failed
  | .read r _ => .read r .failed
  | .bind input _ => .bind input .failed
  | .revoke appId id _ => .revoke appId id .failed
  | .maintain m _ => .maintain m .failed

/-- Where an exception from the statement leads: `processInbound` catches that of its INSERT,
every other one ends the call and rolls its transaction back. -/
def Call.thrown : Call → Call
  | .inbound input phase => .inbound input phase.thrown
  | c => c.crashed

/-- How a call's turn goes. -/
inductive Move where
  | statement (w : World)
  /-- The statement has no effect and throws. -/
  | error
  /-- It takes effect, but its acknowledgement is lost and it throws. -/
  | lost (w : World)
  | crash

/-- An arrival, or a turn without a failure. -/
def undisturbed : Act Request Move → Bool
  | .arrive _ => true
  | .turn _ (.statement _) => true
  | .turn _ _ => false

def Call.turn (env : Env) (db : Db) (others : List Call) (c : Call) : Move → Option (Turn Db Call)
  | .statement w => c.statement env (viewOf db others) w
  | .error => if c.inFlight then some ⟨db, c.thrown, []⟩ else none
  | .lost w => (c.statement env (viewOf db others) w).map fun t => ⟨t.store, c.thrown, []⟩
  | .crash => if c.inFlight then some ⟨db, c.crashed, []⟩ else none

/-- How a request becomes a call. -/
def accept (env : Env) (db : Db) : Request → Option Call
  | .startVerification r =>
    match r.toInput env with
    | .error e => some (.rejected e)
    | .ok input => some (.start input .checkBinding)
  | .inbound receiverId body =>
    match db.receivers.find? fun r => r.id = receiverId ∧ r.enabled = true with
    | none => none
    | some r => some (.inbound ⟨body, receiverId, r.msisdn⟩ .insert)
  | .cancelVerification appId id => some (.cancel appId id .update)
  | .read r => some (.read r .select)
  | .startBinding input => some (.bind input (startBindingEntry env input))
  | .revokeBinding appId id => some (.revoke appId id .ready)
  | .maintain m => some (.maintain m .ready)

def server (env : Env) : Program Db Call Request Move where
  accept := accept env
  turn db others c m := c.turn env db others m

abbrev Server := Pool Db Call

/-- A server that has just been set up. -/
def Server.init : Server := ⟨.empty, []⟩

/-- A run of the server from its first start. -/
abbrev ServerRun (env : Env) := Run (Pool.step (server env)) Server.init

end Syrotp
