import Syrotp.Server.Verifications
import Syrotp.Server.PhoneBindings

/-!
# Inbound matching

`services/matching.ts` and what `routes/inbound.ts` makes of its outcome. `processInbound` is a
machine whose stages are its awaited statements; the claim transaction is the stages from
`claimSnapshot` to `commit`.
-/

namespace Syrotp

/-- `extractCode`. -/
def extractCode (P : Platform) (body : Text) : Option Text :=
  extractTail P (P.toUpperCase verifyPrefix) verifyPrefix.length 4 32 body

example : extractCode .ascii (text "  verify  a7k9 p2 ") = some (text "A7K9P2") := by decide
example : extractCode .ascii (text "VERIFYA7K9P2") = some (text "A7K9P2") := by decide
example : extractCode .ascii (text "VERIFY A7-9P2") = none := by decide

/-- `inboundBody` of the route. -/
structure InboundBody where
  fromNumber : Text
  toNumber : Text
  body : Text
  receivedAt : Time
  idempotencyKey : Text
  fromNumber_range : 3 ≤ fromNumber.length ∧ fromNumber.length ≤ 32
  toNumber_range : 3 ≤ toNumber.length ∧ toNumber.length ≤ 32
  body_range : 1 ≤ body.length ∧ body.length ≤ 1600
  idempotencyKey_range : 8 ≤ idempotencyKey.length ∧ idempotencyKey.length ≤ 128
  deriving DecidableEq

/-- `MatchInput`: the body the route validated and the receiver that signed it. -/
structure MatchInput extends InboundBody where
  receiverId : Id
  receiverMsisdn : Text
  deriving DecidableEq

inductive NoMatchReason where
  | noMatch
  | expired
  | bindingNoMatch
  deriving DecidableEq, Repr

/-- `MatchOutcome`. -/
inductive MatchOutcome where
  | verification (verificationId inboundId : Id)
  | binding (bindingId inboundId : Id)
  | unmatched (reason : NoMatchReason) (inboundId : Id)
  | duplicate (inboundId : Id)
  deriving DecidableEq, Repr

/-- The sender as it is stored: its E.164 form, or what fits of the raw text. -/
def MatchInput.fromE164 (env : Env) (input : MatchInput) : Text :=
  match normalizePhone env.platform input.fromNumber env.config.defaultPhoneRegion with
  | .ok n => n.e164
  | .error _ => input.fromNumber.take 32

/-- The row `processInbound` inserts. -/
def MatchInput.row (env : Env) (input : MatchInput) (inboundId : Id) (createdAt : Time) :
    InboundSms where
  id := inboundId
  receiverId := input.receiverId
  fromE164 := input.fromE164 env
  toMsisdn := input.toNumber
  body := input.body.take 1600
  receivedAt := input.receivedAt
  idempotencyKey := input.idempotencyKey
  matchedVerificationId := none
  createdAt := createdAt

/-- `inbound_sms_idem_uq`. -/
def InboundSms.idempotency (m : InboundSms) : Id × Text := (m.receiverId, m.idempotencyKey)

/-- The next statement of `processInbound`. -/
inductive InboundPhase where
  | insert
  | findPrior
  | consumeBind (inboundId : Id) (nonce : Text) (serverNow : Time)
  | probeBind (inboundId : Id) (nonce : Text) (serverNow : Time)
  | annotate (inboundId bindingId : Id)
  | claimSnapshot (inboundId : Id) (code : Text) (serverNow : Time)
  | claimLock (inboundId : Id) (code : Text) (serverNow : Time) (candidates : List Id)
  | emit (inboundId : Id) (row : Verification) (emission : Emission)
  | commit (inboundId : Id) (row : Verification) (emission : Emission)
  | clear (inboundId : Id)
  | done (outcome : MatchOutcome)
  | failed
  deriving DecidableEq, Repr

/-- The `WHERE` of the claim's sub-select. -/
def claimable (receiverId : Id) (fromE164 code : Text) (serverNow : Time) (v : Verification) :
    Bool :=
  v.receiverId = receiverId ∧ v.phoneE164 = fromE164 ∧ v.code = code ∧ v.status = .pending ∧
    serverNow < v.expiresAt

/-- The claimed row after the `SET` of the claim. -/
def Verification.claimed (v : Verification) (inboundId : Id) (serverNow : Time) : Verification :=
  { v with
    status := .verified
    verifiedAt := some serverNow
    matchedInboundId := some inboundId
    attempts := v.attempts + 1 }

/-- Where `processInbound` goes once the row is stored. -/
def afterInsert (env : Env) (input : MatchInput) (inboundId : Id) (serverNow : Time) :
    InboundPhase :=
  match extractBindNonce env.platform input.body with
  | some nonce => .consumeBind inboundId nonce serverNow
  | none =>
    match extractCode env.platform input.body with
    | none => .done (.unmatched .noMatch inboundId)
    | some code => .claimSnapshot inboundId code serverNow

/-- One statement of `processInbound`. -/
def processInbound (env : Env) (v : View) (w : World) (input : MatchInput) :
    InboundPhase → Option (InboundPhase × Option Write)
  | .insert =>
    let row := input.row env (newId .inbound (w.ulid 0)) w.dbNow
    if hasKey (·.id) row.id v.db.inboundSms ||
        hasKey (·.idempotency) row.idempotency v.db.inboundSms then
      some (.findPrior, none)
    else some (afterInsert env input row.id w.now, some (.insertInbound row))
  | .findPrior =>
    match v.db.inboundSms.find? fun m =>
        m.receiverId = input.receiverId ∧ m.idempotencyKey = input.idempotencyKey with
    | some prior => some (.done (.duplicate prior.id), none)
    | none => some (.failed, none)
  | .consumeBind inboundId nonce serverNow =>
    match consumeBindNonce v.db w.tie ⟨input.receiverId, input.fromE164 env, nonce⟩ serverNow with
    | .violation => some (.failed, none)
    | .claimed row write => some (.annotate inboundId row.id, some write)
    | .nothing => some (.probeBind inboundId nonce serverNow, none)
  | .probeBind inboundId nonce serverNow =>
    match consumeBindNonceProbe v.db w.tie ⟨input.receiverId, input.fromE164 env, nonce⟩
        serverNow with
    | .matched bindingId _ => some (.annotate inboundId bindingId, none)
    | _ => some (.done (.unmatched .bindingNoMatch inboundId), none)
  | .annotate inboundId bindingId =>
    some (.done (.binding bindingId inboundId), some (.setMatched inboundId (some bindingId)))
  | .claimSnapshot inboundId code serverNow =>
    let seen := v.db.verifications.filter
      (claimable input.receiverId (input.fromE164 env) code serverNow)
    some (.claimLock inboundId code serverNow (seen.map (·.id)), none)
  | .claimLock inboundId code serverNow candidates =>
    -- FOR UPDATE SKIP LOCKED: rows of the snapshot that no one has locked and that still qualify
    let free := v.db.verifications.filter fun x =>
      x.id ∈ candidates ∧ claimable input.receiverId (input.fromE164 env) code serverNow x ∧
        v.held (.verification x.id) = false
    match limitOne free w.tie with
    | none => some (.clear inboundId, none)
    | some x => some (.emit inboundId (x.claimed inboundId serverNow) .insertEvent, none)
  | .emit inboundId row emission =>
    match emission.write? row .verified (some inboundId) with
    -- the UPDATE of the back-link, which the transaction commits next
    | some _ => some (.commit inboundId row emission, none)
    | none => (emitVerificationEventInTx v w .verified row.appId emission).map fun e =>
        (.emit inboundId row e, none)
  | .commit inboundId row emission =>
    (emission.write? row .verified (some inboundId)).map fun write =>
      (.done (.verification row.id inboundId), some write)
  | .clear inboundId =>
    some (.done (.unmatched .noMatch inboundId), some (.setMatched inboundId none))
  | .done _ => none
  | .failed => none

/-- Where a statement that throws leads: only the INSERT has a `catch`. -/
def InboundPhase.thrown : InboundPhase → InboundPhase
  | .insert => .findPrior
  | _ => .failed

/-- The locks of the claim transaction. -/
def InboundPhase.locks : InboundPhase → List Lock
  | .emit _ row emission => emitLocks row emission
  | .commit _ row emission => emitLocks row emission
  | _ => []

/-- The row a call has stored and still acts for. -/
def InboundPhase.stored : InboundPhase → Option Id
  | .consumeBind inboundId _ _ | .probeBind inboundId _ _ | .annotate inboundId _
  | .claimSnapshot inboundId _ _ | .claimLock inboundId _ _ _ | .emit inboundId _ _
  | .commit inboundId _ _ | .clear inboundId => some inboundId
  | .done (.verification _ inboundId) | .done (.binding _ inboundId)
  | .done (.unmatched _ inboundId) => some inboundId
  | .insert | .findPrior | .done (.duplicate _) | .failed => none

/-! ## The route -/

/-- What `POST /v1/inbound/sms` answers. -/
structure InboundResponse where
  statusCode : Nat
  accepted : Bool
  isMatched : Bool
  phoneBindingId : Option Id
  verificationId : Option Id
  reason : Option String
  deriving DecidableEq, Repr

def NoMatchReason.label : NoMatchReason → String
  | .noMatch => "no_match"
  | .expired => "expired"
  | .bindingNoMatch => "binding_no_match"

/-- The response to an outcome. -/
def inboundResponse : MatchOutcome → InboundResponse
  | .verification verificationId _ => ⟨202, true, true, none, some verificationId, none⟩
  | .binding bindingId _ => ⟨202, true, true, some bindingId, none, none⟩
  | .unmatched reason _ => ⟨202, true, false, none, none, some reason.label⟩
  | .duplicate _ => ⟨409, true, false, none, none, some "duplicate"⟩

/-- What a finished call answers; an exception is a 500. -/
def InboundPhase.response : InboundPhase → Option InboundResponse
  | .done outcome => some (inboundResponse outcome)
  | .failed => some ⟨internal.statusCode, false, false, none, none, none⟩
  | _ => none

/-- `_handle_upload_result` of the gateway: the status codes that take an item off its queue. -/
def gatewayDrops (statusCode : Nat) : Bool :=
  (200 ≤ statusCode && statusCode < 300) || statusCode == 409

end Syrotp
