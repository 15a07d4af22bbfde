import Syrotp.Server.Platform
import Syrotp.Misc.Pool

/-!
# Gateway signatures

`services/hmac.ts`: `verifyGatewayHmac`, which both gateway routes call, and the part of Redis it
uses. Any number of calls is in flight at once; the stages of a call are its awaited operations,
and the clock never runs backwards.
-/

namespace Syrotp

/-- The functions of `lib/crypto.ts` and `lib/aead.ts`, which rest on `node:crypto`; `unwrap` has
the master key applied and is `none` where it throws. -/
structure Crypto where
  sha256Hex : List UInt8 → Text
  hmacSha256Hex : Text → Text → Text
  unwrap : Text → Text → Option Text

/-- `VerifyHmacInput`. -/
structure VerifyHmacInput where
  receiverId : Text
  timestampHeader : Text
  nonceHeader : Text
  signatureHeader : Text
  rawBody : List UInt8
  deriving DecidableEq, Repr

/-- The columns of `receivers` that the check selects. -/
structure GatewayReceiver where
  id : Text
  appId : Text
  msisdn : Text
  secretWrapped : Text
  enabled : Bool
  deriving DecidableEq, Repr

structure VerifiedReceiver where
  id : Text
  appId : Text
  msisdn : Text
  deriving DecidableEq, Repr

/-- The reasons of a rejection. -/
inductive HmacReject where
  | badReceiverId
  | badNonce
  | badSignatureFormat
  | badTimestamp
  | timestampSkew
  | unknownReceiver
  | keyUnavailable
  | badSignature
  | replay
  deriving DecidableEq, Repr

def HmacReject.reason : HmacReject → String
  | .badReceiverId => "bad_receiver_id"
  | .badNonce => "bad_nonce"
  | .badSignatureFormat => "bad_signature_format"
  | .badTimestamp => "bad_timestamp"
  | .timestampSkew => "timestamp_skew"
  | .unknownReceiver => "unknown_receiver"
  | .keyUnavailable => "key_unavailable"
  | .badSignature => "bad_signature"
  | .replay => "replay"

/-- `VerifyHmacResult`. -/
abbrev VerifyHmacResult := Except HmacReject VerifiedReceiver

/-! ## Redis -/

/-- A key of Redis and when it is gone. -/
structure RedisEntry where
  key : Text
  expiresAt : Time
  deriving DecidableEq, Repr

/-- `SET key 1 EX seconds NX` at a time: whether it answers `OK`, and the entries it leaves. -/
def redisSet (entries : List RedisEntry) (key : Text) (seconds : Nat) (now : Time) :
    Bool × List RedisEntry :=
  if entries.any fun e => e.key = key ∧ now < e.expiresAt then (false, entries)
  else (true, ⟨key, now + seconds * 1000⟩ :: entries.filter (·.key ≠ key))

/-! ## The check -/

/-- `/^rcv_[A-Za-z0-9]+$/`. -/
def isReceiverId (s : Text) : Bool :=
  Text.startsWith s (text "rcv_") && !(s.drop 4).isEmpty && (s.drop 4).all Text.isAlnum

/-- `/^[0-9a-f]{32,128}$/i`. -/
def isNonce (s : Text) : Bool := 32 ≤ s.length && s.length ≤ 128 && s.all Text.isHexDigit

/-- `/^[0-9a-f]{64}$/i`. -/
def isSignature (s : Text) : Bool := s.length == 64 && s.all Text.isHexDigit

/-- What is checked before anything is awaited: the timestamp, if it is within the window. -/
def checkHeaders (config : Config) (now : Time) (input : VerifyHmacInput) :
    Except HmacReject Int :=
  if !isReceiverId input.receiverId then .error .badReceiverId
  else if !isNonce input.nonceHeader then .error .badNonce
  else if !isSignature input.signatureHeader then .error .badSignatureFormat
  else
    match Text.parseInt input.timestampHeader with
    | none => .error .badTimestamp
    | some ts =>
      let nowSec : Int := (now / 1000 : Nat)
      if config.inboundTimestampSkewSeconds < (nowSec - ts).natAbs then .error .timestampSkew
      else .ok ts

/-- What a gateway signs: `<timestamp>.<nonce>.<sha256(body)>`. -/
def signedPayload (C : Crypto) (input : VerifyHmacInput) (ts : Int) : Text :=
  Text.ofInt ts ++ text "." ++ input.nonceHeader ++ text "." ++ C.sha256Hex input.rawBody

/-- What is checked with the selected row. -/
def checkSignature (C : Crypto) (receivers : List GatewayReceiver) (input : VerifyHmacInput)
    (ts : Int) : VerifyHmacResult :=
  match receivers.find? fun r => r.id = input.receiverId with
  | none => .error .unknownReceiver
  | some receiver =>
    if !receiver.enabled then .error .unknownReceiver
    else
      match C.unwrap receiver.secretWrapped (text "receiver:" ++ receiver.id) with
      | none => .error .keyUnavailable
      | some signingKey =>
        if C.hmacSha256Hex signingKey (signedPayload C input ts) = input.signatureHeader then
          .ok ⟨receiver.id, receiver.appId, receiver.msisdn⟩
        else .error .badSignature

def nonceKey (input : VerifyHmacInput) : Text :=
  text "syrotp:nonce:" ++ input.receiverId ++ text ":" ++ input.nonceHeader

/-- The next operation of `verifyGatewayHmac`. -/
inductive HmacPhase where
  | check
  | select (ts : Int)
  | setNonce (receiver : VerifiedReceiver)
  | done (result : VerifyHmacResult)
  | failed
  deriving DecidableEq

/-- The clock, the receivers and what Redis holds. -/
structure GatewayStore where
  clock : Time
  receivers : List GatewayReceiver
  nonces : List RedisEntry

/-- One operation of `verifyGatewayHmac`. -/
def verifyGatewayHmac (C : Crypto) (config : Config) (store : GatewayStore) (now : Time)
    (input : VerifyHmacInput) : HmacPhase → Option (HmacPhase × List RedisEntry)
  | .check =>
    match checkHeaders config now input with
    | .error e => some (.done (.error e), store.nonces)
    | .ok ts => some (.select ts, store.nonces)
  | .select ts =>
    match checkSignature C store.receivers input ts with
    | .error e => some (.done (.error e), store.nonces)
    | .ok receiver => some (.setNonce receiver, store.nonces)
  | .setNonce receiver =>
    let set := redisSet store.nonces (nonceKey input) config.inboundTimestampSkewSeconds now
    some (.done (if set.1 then .ok receiver else .error .replay), set.2)
  | .done _ => none
  | .failed => none

/-! ## Many calls -/

inductive GatewayRequest where
  | verify (input : VerifyHmacInput)
  /-- A receiver is provisioned, enabled or disabled, or given a new key. -/
  | putReceiver (row : GatewayReceiver)

inductive GatewayCall where
  | verify (input : VerifyHmacInput) (phase : HmacPhase)
  | putReceiver (row : GatewayReceiver) (isDone : Bool)
  deriving DecidableEq

/-- How the turn of a call goes. -/
inductive GatewayMove where
  | run (now : Time)
  /-- The operation throws. -/
  | error
  /-- It takes effect, but its answer is lost and it throws. -/
  | lost (now : Time)

/-- The next operation of a call, at a time not before the last one. -/
def GatewayCall.operation (C : Crypto) (config : Config) (store : GatewayStore) (now : Time)
    (c : GatewayCall) : Option (Turn GatewayStore GatewayCall) :=
  if now < store.clock then none
  else
    match c with
    | .verify input phase =>
      (verifyGatewayHmac C config store now input phase).map fun r =>
        ⟨⟨now, store.receivers, r.2⟩, .verify input r.1, []⟩
    | .putReceiver row false =>
      some ⟨⟨now, row :: store.receivers.filter (·.id ≠ row.id), store.nonces⟩,
        .putReceiver row true, []⟩
    | .putReceiver _ true => none

def GatewayCall.failed : GatewayCall → GatewayCall
  | .verify input _ => .verify input .failed
  | .putReceiver row _ => .putReceiver row true

def GatewayCall.turn (C : Crypto) (config : Config) (store : GatewayStore) (c : GatewayCall) :
    GatewayMove → Option (Turn GatewayStore GatewayCall)
  | .run now => c.operation C config store now
  | .error => if (c.operation C config store store.clock).isSome then some ⟨store, c.failed, []⟩
    else none
  | .lost now => (c.operation C config store now).map fun t => ⟨t.store, c.failed, []⟩

def gateway (C : Crypto) (config : Config) :
    Program GatewayStore GatewayCall GatewayRequest GatewayMove where
  accept _ r :=
    match r with
    | .verify input => some (.verify input .check)
    | .putReceiver row => some (.putReceiver row false)
  turn store _ c m := c.turn C config store m

abbrev Gateway := Pool GatewayStore GatewayCall

def Gateway.init : Gateway := ⟨⟨0, [], []⟩, []⟩

/-- A run of the gateway checks from an empty Redis. -/
abbrev GatewayRun (C : Crypto) (config : Config) :=
  Run (Pool.step (gateway C config)) Gateway.init

end Syrotp
