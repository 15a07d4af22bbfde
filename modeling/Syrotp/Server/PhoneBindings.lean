import Syrotp.Server.Transactions

/-!
# Phone bindings

`services/phoneBindings.ts`: the BIND ceremony. A binding is created `pending`, `consumeBindNonce`
makes it `verified` when its nonce arrives by SMS from the claimed phone, and `revokeBinding`
ends it from either state.
-/

namespace Syrotp

/-! ## Nonces -/

/-- The alphabet of `generateNonce`. -/
def nonceAlphabet : Text := text "ABCDEFGHJKLMNPQRSTUVWXYZ23456789"

/-- `generateNonce`, with the bytes drawn. -/
def generateNonce (bytes : Nat → Nat) : Text := Text.draw nonceAlphabet 24 bytes

def bindPrefix : Text := text "BIND"

/-- The tail of a message after its keyword, when the message starts with the keyword and the
tail is letters and digits, between `least` and `most` of them: the shape that
`extractBindNonce` and `extractCode` share. -/
def extractTail (P : Platform) (keyword : Text) (keywordLength least most : Nat) (body : Text) :
    Option Text :=
  let upper := P.toUpperCase (Text.trim body)
  if !Text.startsWith upper keyword then none
  else
    let tail := Text.removeSpaces (upper.drop keywordLength)
    if tail.length < least ∨ most < tail.length then none
    else if !Text.upperAlnum tail then none
    else some tail

/-- `extractBindNonce`. -/
def extractBindNonce (P : Platform) (body : Text) : Option Text :=
  extractTail P bindPrefix bindPrefix.length 8 64 body

example : extractBindNonce .ascii (text "  bind  abcd efgh ") = some (text "ABCDEFGH") := by decide

/-! ## Creating a binding -/

structure StartBindingInput where
  appId : Id
  receiverId : Id
  phone : Text
  deriving DecidableEq, Repr

structure PublicBinding where
  id : Id
  appId : Id
  receiverId : Id
  phoneE164 : Text
  status : PhoneBindingStatus
  expiresAt : Time
  boundAt : Option Time
  revokedAt : Option Time
  createdAt : Time
  deriving DecidableEq, Repr

structure StartBindingResult where
  binding : PublicBinding
  sendTo : Text
  bindMessage : Text
  deriving DecidableEq, Repr

/-- `rowToPublic`. -/
def PhoneBinding.toPublic (b : PhoneBinding) : PublicBinding :=
  ⟨b.id, b.appId, b.receiverId, b.phoneE164, b.status, b.expiresAt, b.boundAt, b.revokedAt,
    b.createdAt⟩

/-- The next statement of `startBinding`. -/
inductive StartBindingPhase where
  | selectReceiver (phoneE164 : Text)
  | selectVerified (phoneE164 sendTo : Text)
  | insert (row : PhoneBinding) (sendTo : Text) (now : Time)
  | done (result : Except ApiError StartBindingResult)
  | failed
  deriving DecidableEq, Repr

/-- What `startBinding` does before its first statement; a `PhoneError` has no handler there. -/
def startBindingEntry (env : Env) (input : StartBindingInput) : StartBindingPhase :=
  match normalizePhone env.platform input.phone env.config.defaultPhoneRegion with
  | .error _ => .done (.error internal)
  | .ok n => .selectReceiver n.e164

/-- One statement of `startBinding`. -/
def startBinding (env : Env) (v : View) (w : World) (input : StartBindingInput) :
    StartBindingPhase → Option (StartBindingPhase × Option Write)
  | .selectReceiver phoneE164 =>
    match v.db.receivers.find? fun r => r.id = input.receiverId ∧ r.appId = input.appId with
    | none => some (.done (.error (notFound "receiver")), none)
    | some r =>
      if !r.enabled then
        some (.done (.error (conflict "receiver_disabled" "receiver is disabled")), none)
      else some (.selectVerified phoneE164 r.msisdn, none)
  | .selectVerified phoneE164 sendTo =>
    if v.db.phoneBindings.any fun b =>
        b.appId = input.appId ∧ b.phoneE164 = phoneE164 ∧ b.status = .verified then
      some (.done (.error (conflict "already_bound"
        "phone is already verified-bound; revoke the existing binding first")), none)
    else
      some (.insert
        { id := newId .phoneBinding (w.ulid 0)
          appId := input.appId
          receiverId := input.receiverId
          phoneE164 := phoneE164
          status := .pending
          nonce := generateNonce w.random
          expiresAt := w.now + env.config.phoneBindingTtlSeconds * 1000
          boundAt := none
          revokedAt := none
          createdAt := w.now } sendTo w.now, none)
  | .insert row sendTo now =>
    if hasKey (·.id) row.id v.db.phoneBindings then none
    else
      -- the column default dates the row by the database clock, the answer by the process clock
      some (.done (.ok ⟨{ row with createdAt := now }.toPublic, sendTo,
        bindPrefix ++ text " " ++ row.nonce⟩),
        some (.insertBinding { row with createdAt := w.dbNow }))
  | .done _ => none
  | .failed => none

/-! ## Reading and revoking a binding -/

/-- `getBinding`. -/
def getBinding (db : Db) (appId id : Id) : Except ApiError PublicBinding :=
  match db.phoneBindings.find? fun b => b.id = id ∧ b.appId = appId with
  | none => .error (notFound "phone_binding")
  | some row => .ok row.toPublic

/-- `revokeBinding`: one UPDATE, whatever the status was. -/
def revokeBinding (db : Db) (w : World) (appId id : Id) :
    Except ApiError PublicBinding × Option Write :=
  match db.phoneBindings.find? fun b => b.id = id ∧ b.appId = appId with
  | none => (.error (notFound "phone_binding"), none)
  | some b =>
    (.ok { b with status := .revoked, revokedAt := some w.now }.toPublic,
      some (.revokeBinding appId id w.now))

/-! ## Consuming a nonce -/

structure ConsumeBindNonceInput where
  receiverId : Id
  fromE164 : Text
  nonce : Text
  deriving DecidableEq, Repr

inductive ConsumeBindNonceOutcome where
  | matched (bindingId appId : Id)
  | noMatch
  | expired
  | phoneMismatch
  | alreadyConsumed
  deriving DecidableEq, Repr

/-- `LIMIT 1` without an order: the database is free to return any of the rows. -/
def limitOne {α : Type*} (rows : List α) (tie : Nat) : Option α := rows[tie % rows.length]?

/-- The `WHERE` of the UPDATE in `consumeBindNonce`. -/
def consumable (input : ConsumeBindNonceInput) (serverNow : Time) (b : PhoneBinding) : Bool :=
  b.nonce = input.nonce ∧ b.status = .pending ∧ b.receiverId = input.receiverId ∧
    b.phoneE164 = input.fromE164 ∧ serverNow < b.expiresAt

/-- `phone_bindings_active_uq` on the rows as they would be. -/
def activeUnique (bindings : List PhoneBinding) : Bool :=
  ((bindings.filter fun b => b.status = .verified).map fun b => (b.appId, b.phoneE164)).Nodup

/-- What the UPDATE of `consumeBindNonce` did. -/
inductive ConsumeUpdate where
  /-- It would give one (app, phone) two `verified` bindings. -/
  | violation
  | claimed (row : PhoneBinding) (write : Write)
  | nothing
  deriving DecidableEq, Repr

/-- The UPDATE of `consumeBindNonce`. -/
def consumeBindNonce (db : Db) (tie : Nat) (input : ConsumeBindNonceInput) (serverNow : Time) :
    ConsumeUpdate :=
  let claimed := db.phoneBindings.filter (consumable input serverNow)
  let write := Write.verifyBindings (claimed.map (·.id)) serverNow
  match limitOne claimed tie with
  | none => .nothing
  | some row => if activeUnique (db.commit write).phoneBindings then .claimed row write
      else .violation

/-- The SELECT that tells the failures of `consumeBindNonce` apart. -/
def consumeBindNonceProbe (db : Db) (tie : Nat) (input : ConsumeBindNonceInput)
    (serverNow : Time) : ConsumeBindNonceOutcome :=
  match limitOne (db.phoneBindings.filter fun b => b.nonce = input.nonce) tie with
  | none => .noMatch
  | some p =>
    if p.status ≠ .pending then .alreadyConsumed
    else if p.expiresAt ≤ serverNow then .expired
    else if p.receiverId ≠ input.receiverId ∨ p.phoneE164 ≠ input.fromE164 then .phoneMismatch
    else .noMatch

end Syrotp
