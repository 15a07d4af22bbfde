import Syrotp.Server.Webhooks

/-!
# Verifications

`services/verifications.ts`: `startVerification`, `cancelVerification`, `lazyExpireAndEmit` and
the reads that start it. Each is a machine whose stages are its awaited statements.
-/

namespace Syrotp

/-! ## Start -/

structure StartVerificationInput where
  appId : Id
  phoneE164 : Text
  purpose : Text
  clientRef : Option Text
  locale : Option Text
  ip : Option Text
  preferredOperator : Option Text
  deriving DecidableEq, Repr

/-- How `pickReceiver` honoured the operator preference. -/
inductive ReceiverMatch where
  | preferred
  | fallback
  | none
  deriving DecidableEq, Repr

structure PickedReceiver where
  id : Id
  msisdn : Text
  operator : Option Text
  receiverMatch : ReceiverMatch
  deriving DecidableEq, Repr

structure PublicVerification where
  id : Id
  status : VerificationStatus
  phoneMasked : Text
  sendTo : Option Text
  message : Option Text
  clientRef : Option Text
  purpose : Text
  verifiedAt : Option Time
  expiresAt : Time
  createdAt : Time
  attempts : Nat
  deriving DecidableEq, Repr

/-- `MAX_CODE_COLLISION_RETRIES`. -/
def maxCodeCollisionRetries : Nat := 3

/-- `CODE_ALPHABET` of `lib/crypto.ts`. -/
def codeAlphabet : Text := text "ABCDEFGHJKMNPQRSTUVWXYZ23456789"

/-- `generateCode` of `lib/crypto.ts`, with the indices `randomInt` drew. -/
def generateCode (length : Nat) (random : Nat → Nat) : Text :=
  Text.draw codeAlphabet length random

/-- The lengths `generateCode` does not throw for. -/
def CodeLength (length : Nat) : Prop := 4 ≤ length ∧ length ≤ 32

theorem Config.codeLength (config : Config) : CodeLength config.verificationCodeLength :=
  ⟨config.codeLength_range.1, Nat.le_trans config.codeLength_range.2 (by decide)⟩

/-- `messagePrefix` of `startVerification` and the default of the matcher. -/
def verifyPrefix : Text := text "VERIFY"

/-- What `startVerification` fixes before its first attempt. -/
structure StartDraft where
  id : Id
  now : Time
  deriving DecidableEq, Repr

/-- One attempt of `runWithCodeCollisionRetry`: its number, its code, and the start time of its
transaction on the database clock. -/
structure StartAttempt where
  draft : StartDraft
  number : Nat
  code : Text
  dbNow : Time
  deriving DecidableEq, Repr

/-- The next statement of `startVerification`. -/
inductive StartPhase where
  | checkBinding
  | lockPhone (draft : StartDraft) (number : Nat)
  | countPending (a : StartAttempt)
  | pickPreferred (a : StartAttempt) (operator : Text)
  | pickAny (a : StartAttempt)
  | insert (a : StartAttempt) (receiver : PickedReceiver)
  | commit (receiver : PickedReceiver) (row : Verification)
  | done (result : Except ApiError PublicVerification)
  | failed
  deriving DecidableEq, Repr

/-- Pending verifications assigned to a receiver: `pending_count` of the load query. -/
def pendingCount (db : Db) (receiverId : Id) : Nat :=
  db.verifications.countP fun v => v.status = .pending ∧ v.receiverId = receiverId

/-- Enabled, of this app, with a heartbeat within the timeout. -/
def healthyReceiver (env : Env) (appId : Id) (operator : Option Text) (dbNow : Time)
    (r : Receiver) : Bool :=
  decide (r.appId = appId) && r.enabled &&
    (match r.lastHeartbeatAt with
      | none => false
      | some heartbeat =>
        decide (dbNow < heartbeat + env.config.receiverHeartbeatTimeoutSeconds * 1000)) &&
    (match operator with
      | none => true
      | some o => decide (r.operator = some o))

/-- `runHealthyReceiverQuery`: a healthy receiver with the fewest pending verifications, the
oldest of these; the database is free to break ties. -/
def runHealthyReceiverQuery (env : Env) (db : Db) (appId : Id) (operator : Option Text)
    (dbNow : Time) (tie : Nat) : Option Receiver :=
  let healthy := db.receivers.filter (healthyReceiver env appId operator dbNow)
  let before (r r' : Receiver) : Bool :=
    pendingCount db r.id < pendingCount db r'.id ∨
      (pendingCount db r.id = pendingCount db r'.id ∧ r.createdAt < r'.createdAt)
  let first := healthy.filter fun r => healthy.all fun r' => !before r' r
  first[tie % first.length]?

def Receiver.picked (r : Receiver) (m : ReceiverMatch) : PickedReceiver :=
  ⟨r.id, r.msisdn, r.operator, m⟩

/-- The row `startVerification` inserts. -/
def StartAttempt.row (env : Env) (input : StartVerificationInput) (a : StartAttempt)
    (receiver : PickedReceiver) : Verification where
  id := a.draft.id
  appId := input.appId
  phoneE164 := input.phoneE164
  purpose := input.purpose
  clientRef := input.clientRef
  locale := input.locale
  receiverId := receiver.id
  receiverMsisdnSnapshot := some receiver.msisdn
  receiverOperatorSnapshot := receiver.operator
  code := a.code
  messagePrefix := verifyPrefix
  status := .pending
  attempts := 0
  expiresAt := a.draft.now + env.config.verificationTtlSeconds * 1000
  verifiedAt := none
  cancelledAt := none
  matchedInboundId := none
  createdIp := input.ip
  createdAt := a.dbNow

/-- What `startVerification` returns. -/
def startResult (input : StartVerificationInput) (receiver : PickedReceiver)
    (row : Verification) (now : Time) : PublicVerification where
  id := row.id
  status := .pending
  phoneMasked := maskPhone input.phoneE164
  sendTo := some receiver.msisdn
  message := some (verifyPrefix ++ text " " ++ row.code)
  clientRef := input.clientRef
  purpose := input.purpose
  verifiedAt := none
  expiresAt := row.expiresAt
  createdAt := now
  attempts := 0

/-- Whether `(app, phone)` has a `verified` binding. -/
def isBound (db : Db) (appId : Id) (phoneE164 : Text) : Bool :=
  db.phoneBindings.any fun b =>
    b.appId = appId ∧ b.phoneE164 = phoneE164 ∧ b.status = .verified

/-- A pending row with these columns of `verifications_pending_uniq`. -/
def pendingWith (receiverId : Id) (phoneE164 code : Text) (v : Verification) : Bool :=
  v.receiverId = receiverId ∧ v.phoneE164 = phoneE164 ∧ v.code = code ∧ v.status = .pending

/-- The next attempt after a code collision, or the error once they are used up. -/
def afterCollision (a : StartAttempt) : StartPhase :=
  if a.number + 1 < maxCodeCollisionRetries then .lockPhone a.draft (a.number + 1)
  else .done (.error (serviceUnavailable "code_generation_collision"
    "could not allocate a unique verification code after multiple attempts; retry the request"))

/-- One statement of `startVerification`. -/
def startVerification (env : Env) (v : View) (w : World) (input : StartVerificationInput) :
    StartPhase → Option (StartPhase × Option Write)
  | .checkBinding =>
    if isBound v.db input.appId input.phoneE164 then
      some (.lockPhone ⟨newId .verification (w.ulid 0), w.now⟩ 0, none)
    else some (.done (.error phoneNotBound), none)
  | .lockPhone draft number =>
    if v.held (.advisory input.appId input.phoneE164) then none
    else some (.countPending
      ⟨draft, number, generateCode env.config.verificationCodeLength w.random, w.dbNow⟩, none)
  | .countPending a =>
    let phonePending := v.db.verifications.countP fun x =>
      x.appId = input.appId ∧ x.phoneE164 = input.phoneE164 ∧ x.status = .pending
    if env.config.maxPendingPerPhone ≤ phonePending then
      some (.done (.error (conflict "too_many_pending"
        "too many pending verifications for this phone")), none)
    else
      match input.preferredOperator with
      | none => some (.pickAny a, none)
      | some o => if o.isEmpty then some (.pickAny a, none) else some (.pickPreferred a o, none)
  | .pickPreferred a o =>
    match runHealthyReceiverQuery env v.db input.appId (some o) a.dbNow w.tie with
    | some r => some (.insert a (r.picked .preferred), none)
    | none => some (.pickAny a, none)
  | .pickAny a =>
    match runHealthyReceiverQuery env v.db input.appId none a.dbNow w.tie with
    | none => some (.done (.error (serviceUnavailable "no_receiver"
        "no healthy receiver available")), none)
    | some r =>
      let given := match input.preferredOperator with
        | none => false
        | some o => !o.isEmpty
      some (.insert a (r.picked (if given then .fallback else .none)), none)
  | .insert a receiver =>
    let row := a.row env input receiver
    -- the INSERT waits for an uncommitted row with its keys, and for the transaction that is
    -- taking a row with its index entry out of the partial index
    if v.held (.key row.id) ∨ v.held (.pendingKey row.receiverId row.phoneE164 row.code) then none
    else if hasKey (·.id) row.id v.db.verifications then none
    else
      match v.db.verifications.find? (pendingWith row.receiverId row.phoneE164 row.code) with
      | none => some (.commit receiver row, none)
      | some other =>
        if v.held (.verification other.id) then none else some (afterCollision a, none)
  | .commit receiver row =>
    some (.done (.ok (startResult input receiver row
      (row.expiresAt - env.config.verificationTtlSeconds * 1000))),
      some (.insertVerification row))
  | .done _ => none
  | .failed => none

/-- The locks of the open attempt. -/
def StartPhase.locks (input : StartVerificationInput) : StartPhase → List Lock
  | .countPending _ | .pickPreferred _ _ | .pickAny _ | .insert _ _ =>
    [.advisory input.appId input.phoneE164]
  | .commit _ row =>
    [.advisory input.appId input.phoneE164, .key row.id,
      .pendingKey row.receiverId row.phoneE164 row.code]
  | _ => []

/-! ## Reads -/

/-- `lazyExpireAndEmit` is due: pending past its TTL. -/
def lapsed (row : Verification) (now : Time) : Bool :=
  row.status = .pending ∧ row.expiresAt ≤ now

/-- The status a read reports. -/
def effectiveStatus (row : Verification) (now : Time) : VerificationStatus :=
  if lapsed row now then .expired else row.status

structure HostedVerification where
  id : Id
  status : VerificationStatus
  phoneMasked : Text
  expiresAt : Time
  createdAt : Time
  verifiedAt : Option Time
  sendTo : Option Text
  message : Option Text
  deriving DecidableEq, Repr

structure HostedVerificationStatus where
  status : VerificationStatus
  expiresAt : Time
  verifiedAt : Option Time
  deriving DecidableEq, Repr

/-- The reads of a verification. -/
inductive Read where
  | getVerification (appId id : Id)
  | getHostedVerification (id : Id)
  | getHostedVerificationStatus (id : Id)
  deriving DecidableEq, Repr

inductive ReadAnswer where
  | verification (result : Except ApiError PublicVerification)
  | hosted (result : Option HostedVerification)
  | hostedStatus (result : Option HostedVerificationStatus)
  deriving DecidableEq, Repr

def Read.id : Read → Id
  | .getVerification _ id => id
  | .getHostedVerification id => id
  | .getHostedVerificationStatus id => id

/-- The row a read selects. -/
def Read.row (db : Db) : Read → Option Verification
  | .getVerification appId id => db.verifications.find? fun v => v.id = id ∧ v.appId = appId
  | .getHostedVerification id => db.verifications.find? fun v => v.id = id
  | .getHostedVerificationStatus id => db.verifications.find? fun v => v.id = id

/-- The view of `getVerification`. -/
def publicView (row : Verification) (now : Time) : PublicVerification where
  id := row.id
  status := effectiveStatus row now
  phoneMasked := maskPhone row.phoneE164
  sendTo := none
  message := none
  clientRef := row.clientRef
  purpose := row.purpose
  verifiedAt := row.verifiedAt
  expiresAt := row.expiresAt
  createdAt := row.createdAt
  attempts := row.attempts

/-- The view of `getHostedVerification`, with the msisdn the join found. -/
def hostedView (row : Verification) (joined : Option Text) (now : Time) : HostedVerification :=
  let status := effectiveStatus row now
  let effectiveMsisdn := row.receiverMsisdnSnapshot.orElse fun _ => joined
  { id := row.id
    status := status
    phoneMasked := maskPhone row.phoneE164
    expiresAt := row.expiresAt
    createdAt := row.createdAt
    verifiedAt := row.verifiedAt
    sendTo := if status = .pending then effectiveMsisdn else none
    message := if status = .pending then some (row.messagePrefix ++ text " " ++ row.code)
      else none }

/-- What the SELECT of a read brings: the row, and for the hosted page the msisdn of the join. -/
structure SelectedRow where
  row : Verification
  joined : Option Text
  deriving DecidableEq, Repr

/-- The SELECT of a read. -/
def Read.select (db : Db) (r : Read) : Option SelectedRow :=
  (r.row db).map fun row =>
    match r with
    | .getHostedVerification _ =>
      ⟨row, (db.receivers.find? fun x => x.id = row.receiverId).map (·.msisdn)⟩
    | _ => ⟨row, none⟩

/-- What a read answers when the rows have come and it looks at the clock. -/
def Read.tell (now : Time) (selected : Option SelectedRow) : Read → ReadAnswer
  | .getVerification _ _ =>
    .verification <| match selected with
      | none => .error (notFound "verification")
      | some s => .ok (publicView s.row now)
  | .getHostedVerification _ =>
    .hosted <| selected.map fun s => hostedView s.row s.joined now
  | .getHostedVerificationStatus _ =>
    .hostedStatus <| selected.map fun s =>
      ⟨effectiveStatus s.row now, s.row.expiresAt, s.row.verifiedAt⟩

/-- The verification it then starts `lazyExpireAndEmit` for. -/
def due (now : Time) : Option SelectedRow → Option Id
  | none => none
  | some s => if lapsed s.row now then some s.row.id else none

/-- What a read answers with the rows as they are and the clock at `now`. -/
def Read.answer (db : Db) (now : Time) (r : Read) : ReadAnswer := r.tell now (r.select db)

/-- The expiry it then starts. -/
def Read.expires (db : Db) (now : Time) (r : Read) : Option Id := due now (r.select db)

/-- How far a read is. -/
inductive ReadPhase where
  | select
  | tell (selected : Option SelectedRow)
  | done (answer : ReadAnswer)
  | failed
  deriving DecidableEq, Repr

/-! ## Cancel and lazy expiry -/

/-- The next statement of `cancelVerification`. -/
inductive CancelPhase where
  | update
  | explain
  | emit (row : Verification) (emission : Emission)
  | reread
  | tell (selected : Option SelectedRow)
  | done (result : Except ApiError PublicVerification)
  | failed
  deriving DecidableEq, Repr

/-- One statement of `cancelVerification`, and the expiry its last read may start. -/
def cancelVerification (v : View) (w : World) (appId id : Id) :
    CancelPhase → Option (CancelPhase × Option Write × Option Id)
  | .update =>
    match v.db.verifications.find? fun x => x.id = id ∧ x.appId = appId ∧ x.status = .pending with
    | none => some (.explain, none, none)
    | some x =>
      -- a row another transaction has updated: wait, then look at it again
      if v.held (.verification x.id) then none
      else some (.emit { x with status := .cancelled, cancelledAt := some w.now } .insertEvent,
        none, none)
  | .explain =>
    match v.db.verifications.find? fun x => x.id = id ∧ x.appId = appId with
    | none => some (.done (.error (notFound "verification")), none, none)
    | some _ =>
      some (.done (.error (conflict "not_pending" "verification is not pending")), none, none)
  | .emit row emission =>
    match emission.write? row .cancelled none with
    | some write => some (.reread, some write, none)
    | none => (emitVerificationEventInTx v w .cancelled row.appId emission).map fun e =>
        (.emit row e, none, none)
  | .reread => some (.tell (Read.select v.db (.getVerification appId id)), none, none)
  | .tell selected =>
    match Read.tell w.now selected (.getVerification appId id) with
    | .verification result => some (.done result, none, due w.now selected)
    | _ => none
  | .done _ => none
  | .failed => none

/-- The next statement of `lazyExpireAndEmit`. -/
inductive ExpirePhase where
  | update
  | emit (row : Verification) (emission : Emission)
  | done
  | failed
  deriving DecidableEq, Repr

/-- One statement of `lazyExpireAndEmit`. -/
def lazyExpireAndEmit (v : View) (w : World) (id : Id) :
    ExpirePhase → Option (ExpirePhase × Option Write)
  | .update =>
    match v.db.verifications.find? fun x => x.id = id ∧ x.status = .pending with
    | none => some (.done, none)
    | some x =>
      if v.held (.verification x.id) then none
      else some (.emit { x with status := .expired } .insertEvent, none)
  | .emit row emission =>
    match emission.write? row .expired none with
    | some write => some (.done, some write)
    | none => (emitVerificationEventInTx v w .expired row.appId emission).map fun e =>
        (.emit row e, none)
  | .done => none
  | .failed => none

/-- The locks of a transaction that has updated `row` and is emitting. -/
def emitLocks (row : Verification) (emission : Emission) : List Lock :=
  .verification row.id :: emission.locks

end Syrotp
