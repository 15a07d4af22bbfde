import Syrotp.Server.Aead
import Syrotp.Server.GatewayRequest
import Syrotp.Misc.Table

/-!
# Provisioning receivers

`admin/receivers.ts`: the operator's commands that add a receiver, disable it and enable it again,
beside the checks of what gateways send. `addReceiver` draws the key that the gateway signs with;
the server keeps it wrapped. An app is disabled by hand.
-/

namespace Syrotp

/-- The columns of `apps` that are selected. -/
structure AdminApp where
  id : Text
  name : Text
  disabled : Bool
  deriving DecidableEq, Repr

/-- A row of `receivers`: what the check of a request selects, and the rest. -/
structure AdminReceiver where
  gateway : GatewayReceiver
  name : Text
  operator : Option Text
  lastHeartbeatAt : Option Time
  deriving DecidableEq, Repr

structure AdminStore where
  clock : Time
  apps : List AdminApp
  receivers : List AdminReceiver
  nonces : List RedisEntry
  deriving DecidableEq, Repr

/-- What `verifyGatewayHmac` sees. -/
def AdminStore.gateway (s : AdminStore) : GatewayStore :=
  ⟨s.clock, s.receivers.map (·.gateway), s.nonces⟩

/-- `AdminError`, with what its message tells. -/
inductive AdminError where
  | invalidAppId (got : Text)
  | invalidName
  | invalidMsisdn (msisdn : Text)
  | appNotFound (appId : Text)
  | appDisabled (appId : Text)
  | invalidReceiverId
  | receiverNotFound (receiverId : Text)
  deriving DecidableEq, Repr

def AdminError.code : AdminError → String
  | .invalidAppId _ => "invalid_app_id"
  | .invalidName => "invalid_name"
  | .invalidMsisdn _ => "invalid_msisdn"
  | .appNotFound _ => "app_not_found"
  | .appDisabled _ => "app_disabled"
  | .invalidReceiverId => "invalid_receiver_id"
  | .receiverNotFound _ => "receiver_not_found"

def AdminError.message : AdminError → Text
  | .invalidAppId got => text "appId must look like 'app_<ulid>'; got: " ++ got
  | .invalidName => text "receiver name is required"
  | .invalidMsisdn msisdn => text "msisdn '" ++ msisdn ++ text "' is not a valid phone"
  | .appNotFound appId => text "app " ++ appId ++ text " not found"
  | .appDisabled appId =>
    text "app " ++ appId ++ text " is disabled — re-enable before adding receivers"
  | .invalidReceiverId => text "receiver id must look like 'rcv_<ulid>'"
  | .receiverNotFound receiverId => text "receiver " ++ receiverId ++ text " not found"

/-- The settings and the cryptography of the process. -/
structure AdminService where
  platform : Platform
  config : Config
  primitives : Primitives
  gcm : Gcm
  masterKeyHex : Text

/-- What the check of a request computes with. -/
def AdminService.crypto (S : AdminService) : Crypto :=
  S.primitives.crypto fun wrapped aad => (unwrap S.gcm S.masterKeyHex wrapped (some aad)).toOption

/-- What an operation runs with. -/
structure AdminWorld where
  now : Time
  ulid : Text
  bytes : Nat → UInt8
  iv : Iv

/-- `generateNonce` of lib/crypto.ts. -/
def Crypto.generateNonce (bytes : Nat) (random : Nat → UInt8) : Text :=
  hex ((List.range bytes).map random)

/-- `wrapGatewaySigningKey`. -/
def wrapGatewaySigningKey (S : AdminService) (rawKey receiverId : Text) (iv : Iv) :
    Except AeadError Text :=
  wrap S.gcm S.masterKeyHex rawKey (some (text "receiver:" ++ receiverId)) iv

/-! ## Adding a receiver -/

/-- `AddReceiverOptions`. -/
structure AddReceiverOptions where
  appId : Text
  name : Text
  operator : Option Text
  msisdn : Text
  simulateHeartbeat : Bool
  deriving DecidableEq, Repr

/-- `AddReceiverResult`. -/
structure AddReceiverResult where
  receiverId : Text
  msisdn : Text
  signingKey : Text
  appId : Text
  appName : Text
  operator : Option Text
  name : Text
  deriving DecidableEq, Repr

/-- The row that is about to be inserted, its key and the name of its app. -/
structure ReceiverDraft where
  row : AdminReceiver
  signingKey : Text
  appName : Text
  deriving DecidableEq, Repr

def ReceiverDraft.result (d : ReceiverDraft) : AddReceiverResult :=
  ⟨d.row.gateway.id, d.row.gateway.msisdn, d.signingKey, d.row.gateway.appId, d.appName,
    d.row.operator, d.row.name⟩

/-- `opts.operator?.trim() || null`. -/
def trimmedOperator (operator : Option Text) : Option Text :=
  (operator.map Text.trim).filter (· ≠ [])

/-- `/^app_[A-Za-z0-9]+$/`. -/
def isAppId (s : Text) : Bool :=
  Text.startsWith s (text "app_") && !(s.drop 4).isEmpty && (s.drop 4).all Text.isAlnum

/-- The next statement of `addReceiver`. -/
inductive AddReceiverPhase where
  | selectApp (phone : NormalizedPhone)
  | insert (draft : ReceiverDraft)
  | done (result : Except AdminError AddReceiverResult)
  | failed
  deriving DecidableEq

/-- `addReceiver` up to its first statement. -/
def addReceiverEntry (S : AdminService) (opts : AddReceiverOptions) : AddReceiverPhase :=
  if !isAppId opts.appId then .done (.error (.invalidAppId opts.appId))
  else if (Text.trim opts.name).isEmpty then .done (.error .invalidName)
  else
    match normalizePhone S.platform opts.msisdn S.config.defaultPhoneRegion with
    | .error _ => .done (.error (.invalidMsisdn opts.msisdn))
    | .ok phone => .selectApp phone

/-- A statement of `addReceiver`, and what it does up to the next one. -/
def addReceiver (S : AdminService) (store : AdminStore) (w : AdminWorld)
    (opts : AddReceiverOptions) :
    AddReceiverPhase → Option (AddReceiverPhase × List AdminReceiver)
  | .selectApp phone =>
    match store.apps.find? fun a => a.id = opts.appId with
    | none => some (.done (.error (.appNotFound opts.appId)), store.receivers)
    | some app =>
      if app.disabled then some (.done (.error (.appDisabled opts.appId)), store.receivers)
      else
        let receiverId := text "rcv_" ++ w.ulid
        let signingKey := Crypto.generateNonce 32 w.bytes
        match wrapGatewaySigningKey S signingKey receiverId w.iv with
        | .error _ => some (.failed, store.receivers)
        | .ok wrapped => some (.insert
          { row :=
              { gateway := ⟨receiverId, opts.appId, phone.e164, wrapped, true⟩
                name := Text.trim opts.name
                operator := trimmedOperator opts.operator
                lastHeartbeatAt := if opts.simulateHeartbeat then some w.now else none }
            signingKey := signingKey
            appName := app.name }, store.receivers)
  | .insert d =>
    if hasKey (·.gateway.id) d.row.gateway.id store.receivers ||
        !hasKey (·.id) d.row.gateway.appId store.apps then some (.failed, store.receivers)
    else some (.done (.ok d.result), store.receivers ++ [d.row])
  | .done _ => none
  | .failed => none

/-! ## Disabling and enabling -/

/-- `DisableReceiverResult` and `EnableReceiverResult`: whether the receiver was the other way. -/
structure ToggleResult where
  id : Text
  changed : Bool
  msisdn : Text
  deriving DecidableEq, Repr

/-- The next statement of `disableReceiver` or `enableReceiver`. -/
inductive TogglePhase where
  | select
  | update (msisdn : Text)
  | done (result : Except AdminError ToggleResult)
  | failed
  deriving DecidableEq

/-- Either of them up to its first statement. -/
def toggleEntry (receiverId : Text) : TogglePhase :=
  if isReceiverId receiverId then .select else .done (.error .invalidReceiverId)

def AdminReceiver.setEnabled (enabled : Bool) (r : AdminReceiver) : AdminReceiver :=
  { r with gateway := { r.gateway with enabled := enabled } }

/-- A statement of either of them. -/
def toggleReceiver (enabled : Bool) (store : AdminStore) (receiverId : Text) :
    TogglePhase → Option (TogglePhase × List AdminReceiver)
  | .select =>
    match store.receivers.find? fun r => r.gateway.id = receiverId with
    | none => some (.done (.error (.receiverNotFound receiverId)), store.receivers)
    | some row =>
      if row.gateway.enabled = enabled then
        some (.done (.ok ⟨row.gateway.id, false, row.gateway.msisdn⟩), store.receivers)
      else some (.update row.gateway.msisdn, store.receivers)
  | .update msisdn => some (.done (.ok ⟨receiverId, true, msisdn⟩),
      updateWhere (fun r => r.gateway.id = receiverId) (.setEnabled enabled) store.receivers)
  | .done _ => none
  | .failed => none

/-- `disableReceiver`. -/
def disableReceiver := toggleReceiver false

/-- `enableReceiver`. -/
def enableReceiver := toggleReceiver true

/-! ## Commands and requests -/

inductive AdminRequest where
  | verify (input : VerifyHmacInput)
  | addReceiver (opts : AddReceiverOptions)
  | disableReceiver (receiverId : Text)
  | enableReceiver (receiverId : Text)
  /-- An app is created, or disabled or enabled by hand. -/
  | putApp (app : AdminApp)

inductive AdminCall where
  | verify (input : VerifyHmacInput) (phase : HmacPhase)
  | addReceiver (opts : AddReceiverOptions) (phase : AddReceiverPhase)
  | disableReceiver (receiverId : Text) (phase : TogglePhase)
  | enableReceiver (receiverId : Text) (phase : TogglePhase)
  | putApp (app : AdminApp) (isDone : Bool)
  deriving DecidableEq

/-- How the turn of a call goes; see `GatewayMove`. -/
inductive AdminMove where
  | run (w : AdminWorld)
  | error
  | lost (w : AdminWorld)

def AdminMove.world? : AdminMove → Option AdminWorld
  | .run w => some w
  | .lost w => some w
  | .error => none

def AdminStore.withReceivers (s : AdminStore) (w : AdminWorld) (rows : List AdminReceiver) :
    AdminStore := ⟨w.now, s.apps, rows, s.nonces⟩

/-- The next operation of a call, at a time not before the last one. -/
def AdminCall.operation (S : AdminService) (store : AdminStore) (w : AdminWorld) (c : AdminCall) :
    Option (Turn AdminStore AdminCall) :=
  if w.now < store.clock then none
  else
    match c with
    | .verify input phase =>
      (verifyGatewayHmac S.crypto S.config store.gateway w.now input phase).map fun r =>
        ⟨⟨w.now, store.apps, store.receivers, r.2⟩, .verify input r.1, []⟩
    | .addReceiver opts phase => (Syrotp.addReceiver S store w opts phase).map fun r =>
        ⟨store.withReceivers w r.2, .addReceiver opts r.1, []⟩
    | .disableReceiver id phase => (Syrotp.disableReceiver store id phase).map fun r =>
        ⟨store.withReceivers w r.2, .disableReceiver id r.1, []⟩
    | .enableReceiver id phase => (Syrotp.enableReceiver store id phase).map fun r =>
        ⟨store.withReceivers w r.2, .enableReceiver id r.1, []⟩
    | .putApp app false =>
      some ⟨⟨w.now, app :: store.apps.filter (·.id ≠ app.id), store.receivers, store.nonces⟩,
        .putApp app true, []⟩
    | .putApp _ true => none

/-- Whether a call waits for an operation. -/
def AdminCall.inFlight : AdminCall → Bool
  | .verify _ (.done _) | .verify _ .failed | .addReceiver _ (.done _) | .addReceiver _ .failed
  | .disableReceiver _ (.done _) | .disableReceiver _ .failed
  | .enableReceiver _ (.done _) | .enableReceiver _ .failed | .putApp _ true => false
  | _ => true

def AdminCall.failed : AdminCall → AdminCall
  | .verify input _ => .verify input .failed
  | .addReceiver opts _ => .addReceiver opts .failed
  | .disableReceiver id _ => .disableReceiver id .failed
  | .enableReceiver id _ => .enableReceiver id .failed
  | .putApp app _ => .putApp app true

def AdminCall.turn (S : AdminService) (store : AdminStore) (c : AdminCall) :
    AdminMove → Option (Turn AdminStore AdminCall)
  | .run w => c.operation S store w
  | .error => if c.inFlight then some ⟨store, c.failed, []⟩ else none
  | .lost w => (c.operation S store w).map fun t => ⟨t.store, c.failed, []⟩

def AdminRequest.call (S : AdminService) : AdminRequest → AdminCall
  | .verify input => .verify input .check
  | .addReceiver opts => .addReceiver opts (addReceiverEntry S opts)
  | .disableReceiver id => .disableReceiver id (toggleEntry id)
  | .enableReceiver id => .enableReceiver id (toggleEntry id)
  | .putApp app => .putApp app false

def receiverAdmin (S : AdminService) : Program AdminStore AdminCall AdminRequest AdminMove where
  accept _ r := some (r.call S)
  turn store _ c m := c.turn S store m

abbrev Admin := Pool AdminStore AdminCall

/-- A run from an empty database and an empty Redis. -/
abbrev AdminRun (S : AdminService) :=
  Run (Pool.step (receiverAdmin S)) (⟨⟨0, [], [], []⟩, []⟩ : Admin)

end Syrotp
