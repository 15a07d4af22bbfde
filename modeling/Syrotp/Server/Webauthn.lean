import Syrotp.Server.Transactions
import Syrotp.Misc.Pool

/-!
# WebAuthn

`services/webauthn.ts`: challenges that are used once, and the registration and login ceremonies
around them. What a response proves is decided by the library, which is a parameter; its options
that are constants of the code (attestation, user verification, no credential hints) are part of it.
-/

namespace Syrotp

/-! ## Tables -/

inductive ChallengePurpose where
  | register
  | login
  deriving DecidableEq, Repr

structure WebauthnCredential where
  id : Id
  appId : Id
  clientRef : Text
  credentialIdHash : Text
  publicKey : List UInt8
  signCount : Nat
  transports : List Text
  backupState : Bool
  backupEligible : Bool
  createdAt : Time
  lastUsedAt : Option Time
  deriving DecidableEq, Repr

structure WebauthnChallenge where
  id : Id
  appId : Id
  clientRef : Text
  challenge : Text
  purpose : ChallengePurpose
  expiresAt : Time
  usedAt : Option Time
  createdAt : Time
  deriving DecidableEq, Repr

structure WebauthnDb where
  credentials : List WebauthnCredential
  challenges : List WebauthnChallenge
  deriving DecidableEq, Repr

def WebauthnDb.empty : WebauthnDb := ⟨[], []⟩

/-- `webauthn_credentials_lookup_uq`. -/
def WebauthnCredential.lookup (c : WebauthnCredential) : Id × Text := (c.appId, c.credentialIdHash)

/-- What a statement commits. -/
inductive WebauthnWrite where
  | insertChallenge (row : WebauthnChallenge)
  | useChallenge (id : Id) (usedAt : Time)
  | insertCredential (row : WebauthnCredential)
  | updateCredential (id : Id) (signCount : Nat) (lastUsedAt : Time)
  deriving DecidableEq, Repr

def WebauthnDb.commit (db : WebauthnDb) : WebauthnWrite → WebauthnDb
  | .insertChallenge row => { db with challenges := db.challenges ++ [row] }
  | .useChallenge id usedAt =>
    { db with
      challenges := updateWhere (fun c => c.id = id) (fun c => { c with usedAt := some usedAt })
        db.challenges }
  | .insertCredential row => { db with credentials := db.credentials ++ [row] }
  | .updateCredential id signCount lastUsedAt =>
    { db with
      credentials := updateWhere (fun c => c.id = id)
        (fun c => { c with signCount := signCount, lastUsedAt := some lastUsedAt })
        db.credentials }

def WebauthnDb.commitOption (db : WebauthnDb) : Option WebauthnWrite → WebauthnDb
  | none => db
  | some w => db.commit w

/-- A value that a Postgres `integer` holds. -/
def fitsInteger (n : Nat) : Bool := n < 2 ^ 31

/-! ## Settings and library -/

/-- The settings of `config.ts` for WebAuthn, and whether `WEBAUTHN_ENABLED` says so. -/
structure WebauthnConfig where
  enabled : Bool
  rpId : Option Text
  rpName : Option Text
  origins : Text
  challengeTtlSeconds : Nat
  challengeTtl_range : 30 ≤ challengeTtlSeconds ∧ challengeTtlSeconds ≤ 900

/-- The default of the TTL is in its range. -/
theorem challengeTtl_default : 30 ≤ 300 ∧ 300 ≤ 900 := by decide

/-- The options of a ceremony: the challenge, and the rest of what the browser gets. -/
structure WebauthnOptions where
  challenge : Text
  body : Text
  deriving DecidableEq, Repr

/-- What the browser answers: the credential id, and the rest. -/
structure WebauthnResponse where
  id : Text
  body : Text
  deriving DecidableEq, Repr

structure RegistrationInfo where
  credentialId : Text
  publicKey : List UInt8
  counter : Nat
  transports : Option (List Text)
  credentialBackedUp : Bool
  multiDevice : Bool
  deriving DecidableEq, Repr

/-- What a response is checked against. -/
structure Expected where
  challenge : Text
  origins : List Text
  rpId : Text
  deriving DecidableEq, Repr

/-- The stored credential that `verifyAuthenticationResponse` is given. -/
structure StoredAuthenticator where
  id : Text
  publicKey : List UInt8
  counter : Nat
  transports : List Text
  deriving DecidableEq, Repr

/-- The functions of `verifierImpl` with what they draw, `none` where they throw, and
`hashCredentialId` with the master key applied. -/
structure WebauthnLibrary where
  generateRegistrationOptions : (rpId rpName userName userDisplayName : Text) → (timeout : Nat) →
    (Nat → Nat) → WebauthnOptions
  /-- `registrationInfo` if the response is `verified`. -/
  verifyRegistrationResponse : WebauthnResponse → Expected → Option (Option RegistrationInfo)
  generateAuthenticationOptions : (rpId : Text) → (timeout : Nat) → (Nat → Nat) → WebauthnOptions
  /-- `newCounter` if the response is `verified`. -/
  verifyAuthenticationResponse : WebauthnResponse → Expected → StoredAuthenticator →
    Option (Option Nat)
  hashCredentialId : Text → Text

structure Webauthn where
  config : WebauthnConfig
  library : WebauthnLibrary

def webauthnMisconfigured (message : String) : ApiError :=
  serviceUnavailable "webauthn_misconfigured" message

/-- `rpId`. -/
def WebauthnConfig.requireRpId (C : WebauthnConfig) : Except ApiError Text :=
  match C.rpId with
  | none => .error (webauthnMisconfigured "WEBAUTHN_RP_ID is not set")
  | some rpId =>
    if rpId = [] then .error (webauthnMisconfigured "WEBAUTHN_RP_ID is not set") else .ok rpId

/-- `rpName`. -/
def WebauthnConfig.requireRpName (C : WebauthnConfig) : Text :=
  C.rpName.getD (C.rpId.getD (text "SYROTP"))

/-- `origins`. -/
def WebauthnConfig.requireOrigins (C : WebauthnConfig) : Except ApiError (List Text) :=
  let raw := ((C.origins.splitOn 44).map Text.trim).filter (· ≠ [])
  if raw.length = 0 then .error (webauthnMisconfigured "WEBAUTHN_ORIGINS is not set") else .ok raw

/-- `isWebAuthnConfigured`. -/
def WebauthnConfig.isConfigured (C : WebauthnConfig) : Bool :=
  C.enabled && C.rpId.any (· ≠ []) && C.origins ≠ []

def webauthnDisabled : ApiError :=
  serviceUnavailable "webauthn_disabled" "WebAuthn fallback is disabled"

def challengeInvalid : ApiError := badRequest "challenge_invalid" "challenge missing or expired"

/-! ## Challenges -/

/-- The row that `createChallenge` inserts; the column default dates it by the database clock. -/
def createChallenge (X : Webauthn) (w : World) (appId : Id) (clientRef : Text)
    (purpose : ChallengePurpose) (challenge : Text) : WebauthnChallenge where
  id := newId .webauthnChallenge (w.ulid 0)
  appId := appId
  clientRef := clientRef
  challenge := challenge
  purpose := purpose
  expiresAt := w.now + X.config.challengeTtlSeconds * 1000
  usedAt := none
  createdAt := w.dbNow

/-- The `WHERE` of `consumeChallenge`. -/
def activeChallenge (appId : Id) (clientRef : Text) (purpose : ChallengePurpose) (now : Time)
    (c : WebauthnChallenge) : Bool :=
  c.appId = appId ∧ c.clientRef = clientRef ∧ c.purpose = purpose ∧ c.usedAt = none ∧
    now < c.expiresAt

/-- The next statement of `consumeChallenge`. -/
inductive ConsumePhase where
  | snapshot
  | lock (now : Time) (candidates : List Id)
  | markUsed (now : Time) (row : WebauthnChallenge)
  deriving DecidableEq, Repr

/-- After a statement `consumeChallenge` goes on, or returns. -/
inductive Consumed where
  | next (phase : ConsumePhase)
  | returned (challenge : Option Text)
  deriving DecidableEq, Repr

/-- The newest of some challenges; the database is free to choose among those of one time. -/
def newestChallenge (challenges : List WebauthnChallenge) (tie : Nat) :
    Option WebauthnChallenge :=
  let newest := challenges.filter fun c => challenges.all fun c' => c'.createdAt ≤ c.createdAt
  newest[tie % newest.length]?

/-- One statement of `consumeChallenge`. -/
def consumeChallenge (db : WebauthnDb) (held : Id → Bool) (w : World) (appId : Id)
    (clientRef : Text) (purpose : ChallengePurpose) :
    ConsumePhase → Consumed × Option WebauthnWrite
  | .snapshot =>
    let seen := db.challenges.filter (activeChallenge appId clientRef purpose w.now)
    (.next (.lock w.now (seen.map (·.id))), none)
  | .lock now candidates =>
    -- FOR UPDATE SKIP LOCKED: rows of the snapshot that no one has locked and that still qualify
    let free := db.challenges.filter fun c =>
      c.id ∈ candidates ∧ activeChallenge appId clientRef purpose now c ∧ held c.id = false
    match newestChallenge free w.tie with
    | none => (.returned none, none)
    | some row => (.next (.markUsed now row), none)
  | .markUsed now row => (.returned (some row.challenge), some (.useChallenge row.id now))

/-- The row that a transaction has locked. -/
def ConsumePhase.locks : ConsumePhase → List Id
  | .markUsed _ row => [row.id]
  | _ => []

/-! ## Ceremonies -/

/-- The next step of `buildRegisterOptions` and `buildLoginOptions`. -/
inductive OptionsPhase where
  | generate
  | insertChallenge (options : WebauthnOptions)
  | done (result : Except ApiError WebauthnOptions)
  | failed
  deriving DecidableEq

/-- The input of `buildRegisterOptions`, whose `userDisplayName` only it has, and of
`buildLoginOptions`. -/
structure OptionsInput where
  purpose : ChallengePurpose
  appId : Id
  clientRef : Text
  userDisplayName : Option Text
  deriving DecidableEq, Repr

/-- What the library generates. -/
def generateOptions (X : Webauthn) (w : World) (input : OptionsInput) :
    Except ApiError WebauthnOptions :=
  if !X.config.isConfigured then .error webauthnDisabled
  else
    match X.config.requireRpId with
    | .error e => .error e
    | .ok rpId =>
      let timeout := X.config.challengeTtlSeconds * 1000
      match input.purpose with
      | .register => .ok (X.library.generateRegistrationOptions rpId X.config.requireRpName
          input.clientRef (input.userDisplayName.getD input.clientRef) timeout w.random)
      | .login => .ok (X.library.generateAuthenticationOptions rpId timeout w.random)

/-- One step of `buildRegisterOptions` or `buildLoginOptions`. -/
def buildOptions (X : Webauthn) (db : WebauthnDb) (w : World) (input : OptionsInput) :
    OptionsPhase → Option (OptionsPhase × Option WebauthnWrite)
  | .generate =>
    match generateOptions X w input with
    | .error e => some (.done (.error e), none)
    | .ok options => some (.insertChallenge options, none)
  | .insertChallenge options =>
    let row := createChallenge X w input.appId input.clientRef input.purpose options.challenge
    if hasKey (·.id) row.id db.challenges then some (.done (.error internal), none)
    else some (.done (.ok options), some (.insertChallenge row))
  | .done _ => none
  | .failed => none

/-- The input of `verifyRegister` and `verifyLogin`. -/
structure VerifyInput where
  appId : Id
  clientRef : Text
  response : WebauthnResponse
  deriving DecidableEq, Repr

/-- What both have before they ask the library, in the order in which they throw. -/
def expectation (X : Webauthn) (challenge : Option Text) : Except ApiError Expected :=
  match challenge with
  | none => .error challengeInvalid
  | some c =>
    if c = [] then .error challengeInvalid
    else
      match X.config.requireOrigins with
      | .error e => .error e
      | .ok origins => X.config.requireRpId.map fun rpId => ⟨c, origins, rpId⟩

/-- The next step of `verifyRegister`. -/
inductive RegisterPhase where
  | start
  | consume (phase : ConsumePhase)
  | selectExisting (challenge : Option Text)
  | insert (info : RegistrationInfo)
  | done (result : Except ApiError Text)
  | failed
  deriving DecidableEq

/-- What the library says of a registration. -/
def checkRegistration (X : Webauthn) (challenge : Option Text) (response : WebauthnResponse) :
    Except ApiError RegistrationInfo :=
  match expectation X challenge with
  | .error e => .error e
  | .ok expected =>
    match X.library.verifyRegistrationResponse response expected with
    | none => .error internal
    | some none => .error (badRequest "attestation_failed" "registration could not be verified")
    | some (some info) => .ok info

/-- The row that `verifyRegister` inserts. -/
def RegistrationInfo.row (X : Webauthn) (w : World) (input : VerifyInput)
    (info : RegistrationInfo) : WebauthnCredential where
  id := newId .webauthnCredential (w.ulid 0)
  appId := input.appId
  clientRef := input.clientRef
  credentialIdHash := X.library.hashCredentialId info.credentialId
  publicKey := info.publicKey
  signCount := info.counter
  transports := info.transports.getD []
  backupState := info.credentialBackedUp
  backupEligible := info.multiDevice
  createdAt := w.dbNow
  lastUsedAt := none

/-- One step of `verifyRegister`. -/
def verifyRegister (X : Webauthn) (db : WebauthnDb) (held : Id → Bool) (w : World)
    (input : VerifyInput) : RegisterPhase → Option (RegisterPhase × Option WebauthnWrite)
  | .start =>
    if !X.config.isConfigured then some (.done (.error webauthnDisabled), none)
    else some (.consume .snapshot, none)
  | .consume phase =>
    match consumeChallenge db held w input.appId input.clientRef .register phase with
    | (.next phase', write) => some (.consume phase', write)
    | (.returned challenge, write) => some (.selectExisting challenge, write)
  | .selectExisting challenge =>
    match checkRegistration X challenge input.response with
    | .error e => some (.done (.error e), none)
    | .ok info =>
      let lookup := (input.appId, X.library.hashCredentialId info.credentialId)
      if hasKey (·.lookup) lookup db.credentials then
        some (.done (.ok info.credentialId), none)
      else some (.insert info, none)
  | .insert info =>
    let row := info.row X w input
    if hasKey (·.id) row.id db.credentials || hasKey (·.lookup) row.lookup db.credentials ||
        !fitsInteger row.signCount then
      some (.done (.error internal), none)
    else some (.done (.ok info.credentialId), some (.insertCredential row))
  | .done _ => none
  | .failed => none

/-- The next step of `verifyLogin`. -/
inductive LoginPhase where
  | start
  | consume (phase : ConsumePhase)
  | selectCredential (challenge : Option Text)
  | update (id : Id) (newCounter : Nat)
  | done (result : Except ApiError Unit)
  | failed
  deriving DecidableEq

/-- What the library says of an assertion by a stored credential. -/
def checkAssertion (X : Webauthn) (expected : Expected) (response : WebauthnResponse)
    (row : WebauthnCredential) : Except ApiError Nat :=
  match X.library.verifyAuthenticationResponse response expected
      ⟨response.id, row.publicKey, row.signCount, row.transports⟩ with
  | none => .error internal
  | some none => .error (badRequest "assertion_failed" "authentication could not be verified")
  | some (some newCounter) => .ok newCounter

/-- The `WHERE` of the lookup in `verifyLogin`. -/
def loginCredential (X : Webauthn) (input : VerifyInput) (c : WebauthnCredential) : Bool :=
  c.appId = input.appId ∧ c.clientRef = input.clientRef ∧
    c.credentialIdHash = X.library.hashCredentialId input.response.id

/-- One step of `verifyLogin`. -/
def verifyLogin (X : Webauthn) (db : WebauthnDb) (held : Id → Bool) (w : World)
    (input : VerifyInput) : LoginPhase → Option (LoginPhase × Option WebauthnWrite)
  | .start =>
    if !X.config.isConfigured then some (.done (.error webauthnDisabled), none)
    else some (.consume .snapshot, none)
  | .consume phase =>
    match consumeChallenge db held w input.appId input.clientRef .login phase with
    | (.next phase', write) => some (.consume phase', write)
    | (.returned challenge, write) => some (.selectCredential challenge, write)
  | .selectCredential challenge =>
    match challenge with
    | none => some (.done (.error challengeInvalid), none)
    | some c =>
      if c = [] then some (.done (.error challengeInvalid), none)
      else
        match db.credentials.find? (loginCredential X input) with
        | none => some (.done (.error (notFound "webauthn_credential")), none)
        | some row =>
          match expectation X challenge with
          | .error e => some (.done (.error e), none)
          | .ok expected =>
            match checkAssertion X expected input.response row with
            | .error e => some (.done (.error e), none)
            | .ok newCounter => some (.update row.id newCounter, none)
  | .update id newCounter =>
    if !fitsInteger newCounter then some (.done (.error internal), none)
    else some (.done (.ok ()), some (.updateCredential id newCounter w.now))
  | .done _ => none
  | .failed => none

/-! ## Calls -/

inductive WebauthnRequest where
  | options (input : OptionsInput)
  | registerVerify (input : VerifyInput)
  | loginVerify (input : VerifyInput)
  deriving DecidableEq, Repr

inductive WebauthnCall where
  | options (input : OptionsInput) (phase : OptionsPhase)
  | register (input : VerifyInput) (phase : RegisterPhase)
  | login (input : VerifyInput) (phase : LoginPhase)
  deriving DecidableEq

def WebauthnRequest.call : WebauthnRequest → WebauthnCall
  | .options input => .options input .generate
  | .registerVerify input => .register input .start
  | .loginVerify input => .login input .start

/-- The challenges a call has locked. -/
def WebauthnCall.locks : WebauthnCall → List Id
  | .register _ (.consume phase) => phase.locks
  | .login _ (.consume phase) => phase.locks
  | _ => []

def WebauthnCall.inFlight : WebauthnCall → Bool
  | .options _ (.done _) | .options _ .failed
  | .register _ (.done _) | .register _ .failed
  | .login _ (.done _) | .login _ .failed => false
  | _ => true

/-- The call after something threw that it does not handle. -/
def WebauthnCall.failed : WebauthnCall → WebauthnCall
  | .options input _ => .options input .failed
  | .register input _ => .register input .failed
  | .login input _ => .login input .failed

/-- The next step of a call. -/
def WebauthnCall.statement (X : Webauthn) (db : WebauthnDb) (held : Id → Bool) (w : World) :
    WebauthnCall → Option (WebauthnCall × Option WebauthnWrite)
  | .options input phase => (buildOptions X db w input phase).map fun r => (.options input r.1, r.2)
  | .register input phase =>
    (verifyRegister X db held w input phase).map fun r => (.register input r.1, r.2)
  | .login input phase =>
    (verifyLogin X db held w input phase).map fun r => (.login input r.1, r.2)

end Syrotp
