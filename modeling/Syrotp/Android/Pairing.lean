import Syrotp.Android.Client
import Syrotp.Android.Worker
import Syrotp.Misc.Pool

/-!
# Pairing of the Android gateway

`GatewayConfig.kt`, `SignerMigration.kt`, the buttons of `MainActivity.kt`, and what the workers and
`SmsReceiver.kt` ask before they go on. `apply` changes the preferences in memory at once and their
file later. The stages of a call are its reads and writes of the preferences and of the keystore.
The activity and the receiver have the main thread one after the other; the workers run beside them;
the process may die at any moment.
-/

namespace Syrotp.Android

/-- The preferences `syrotp_gateway_v1`. -/
structure Prefs where
  serverUrl : Option Text
  receiverId : Option Text
  signingKey : Option Text
  deriving DecidableEq, Repr

/-- What is put in or removed. -/
inductive Edit where
  | serverUrl (v : Text)
  | receiverId (v : Text)
  | clearLegacySigningKey
  | clear
  deriving DecidableEq, Repr

def Edit.apply (p : Prefs) : Edit → Prefs
  | .serverUrl v => { p with serverUrl := some v }
  | .receiverId v => { p with receiverId := some v }
  | .clearLegacySigningKey => { p with signingKey := none }
  | .clear => ⟨none, none, none⟩

/-- The preferences in memory, their file, the states that are still to be written to it, in order,
and the key in the keystore. -/
structure Phone where
  prefs : Prefs
  file : Prefs
  unwritten : List Prefs
  keystore : Option (List UInt8)
  deriving DecidableEq, Repr

namespace Phone

/-- `prefs.edit()`, what it edits, and `apply()`. -/
def edit (d : Phone) (e : Edit) : Phone :=
  { d with prefs := e.apply d.prefs, unwritten := d.unwritten ++ [e.apply d.prefs] }

/-- `setEntry` in `importKey`, which tries it again where it fails; the two calls are one step. The
keystore is taken to change as a whole or not at all: a call that fails, or that the death of the
process cuts off, leaves the entry that was there. -/
def setEntry (d : Phone) (key : List UInt8) : Phone := { d with keystore := some key }

/-- `KeystoreSigner.delete`. -/
def delete (d : Phone) : Phone := { d with keystore := none }

/-- One of the states reaches the file; those before it do not any more. -/
def written (d : Phone) (n : Nat) : Phone :=
  match d.unwritten[n]? with
  | none => d
  | some p => { d with file := p, unwritten := d.unwritten.drop (n + 1) }

/-- What the next process finds. -/
def died (d : Phone) : Phone := { d with prefs := d.file, unwritten := [] }

end Phone

/-! ## Stages -/

/-- `SignerMigration.run`. -/
inductive Migrating where
  | hasKey
  | legacySigningKey
  | importKey (legacy : Text)
  | clearLegacySigningKey
  | done
  deriving DecidableEq, Repr

/-- `GatewayConfig.isPaired`. -/
inductive Checking where
  | serverUrl
  | receiverId
  | hasKey
  | legacySigningKey
  | answered (paired : Bool)
  deriving DecidableEq, Repr

/-- The toasts. -/
inductive PairingError where
  | badUrl
  | badReceiver
  | badKey
  deriving DecidableEq, Repr

/-- The listener of the button Save. -/
inductive Saving where
  | serverUrl
  | receiverId
  | importKey
  | clearLegacySigningKey
  | saved
  | refused (e : PairingError)
  deriving DecidableEq, Repr

/-- The listener of the button Unpair. -/
inductive Unpairing where
  | delete
  | clear
  | unpaired
  deriving DecidableEq, Repr

/-- Whom a request is for, and the key it is signed with. -/
structure Post where
  serverUrl : Text
  receiverId : Text
  key : List UInt8
  deriving DecidableEq, Repr

/-- `doWork` of both workers, with what has been posted. -/
inductive Working where
  | migrating (stage : Migrating)
  | checking (stage : Checking)
  | hasKey
  | serverUrl
  | receiverId (serverUrl : Text)
  | posting (serverUrl receiverId : Text) (posts : List Post)
  | returned (result : WorkResult)
  deriving DecidableEq, Repr

/-- What runs: the activity, whose `refresh` is a call of its own, the receiver and the workers. -/
inductive GatewayCall where
  | onCreate (stage : Migrating)
  | save (url rcv key : Text) (stage : Saving)
  | unpair (stage : Unpairing)
  | refresh (stage : Checking)
  | onReceive (stage : Checking)
  | doWork (stage : Working)
  deriving DecidableEq, Repr

/-- What starts them; the fields of Save are trimmed. -/
inductive GatewayRequest where
  | onCreate
  | save (url rcv key : Text)
  | unpair
  | refresh
  | onReceive
  | doWork
  deriving DecidableEq, Repr

/-- A call goes on; or the keystore throws, both times; or a worker posts, or comes to its end. -/
inductive GatewayMove where
  | proceed
  | throws
  | post
  | finish (result : WorkResult)
  deriving DecidableEq, Repr

/-- What the listener of Save says to the trimmed fields. -/
def pairingError (url rcv key : Text) : Option PairingError :=
  if !Text.startsWith url (text "https://") && !Text.startsWith url (text "http://") then
    some .badUrl
  else if !Text.startsWith rcv (text "rcv_") then some .badReceiver
  else if key.length < 32 then some .badKey
  else none

def GatewayRequest.call : GatewayRequest → GatewayCall
  | .onCreate => .onCreate .hasKey
  | .save url rcv key =>
    .save url rcv key ((pairingError url rcv key).elim .serverUrl .refused)
  | .unpair => .unpair .delete
  | .refresh => .refresh .serverUrl
  | .onReceive => .onReceive .serverUrl
  | .doWork => .doWork (.migrating .hasKey)

/-! ## Steps -/

section

variable (P : Primitives) (d : Phone)

def Migrating.next : Migrating → GatewayMove → Option (Phone × Migrating)
  | .hasKey, .proceed => some (d, if d.keystore.isSome then .done else .legacySigningKey)
  | .legacySigningKey, .proceed => some (d, d.prefs.signingKey.elim .done .importKey)
  | .importKey legacy, .proceed =>
    some (d.setEntry (Android.importKey P legacy), .clearLegacySigningKey)
  | .importKey _, .throws => some (d, .done)
  | .clearLegacySigningKey, .proceed => some (d.edit .clearLegacySigningKey, .done)
  | _, _ => none

def Checking.next : Checking → GatewayMove → Option Checking
  | .serverUrl, .proceed =>
    some (if d.prefs.serverUrl.isSome then .receiverId else .answered false)
  | .receiverId, .proceed => some (if d.prefs.receiverId.isSome then .hasKey else .answered false)
  | .hasKey, .proceed => some (if d.keystore.isSome then .answered true else .legacySigningKey)
  | .legacySigningKey, .proceed => some (.answered d.prefs.signingKey.isSome)
  | _, _ => none

def Saving.next (url rcv key : Text) : Saving → GatewayMove → Option (Phone × Saving)
  | .serverUrl, .proceed => some (d.edit (.serverUrl url), .receiverId)
  | .receiverId, .proceed => some (d.edit (.receiverId rcv), .importKey)
  | .importKey, .proceed => some (d.setEntry (Android.importKey P key), .clearLegacySigningKey)
  | .importKey, .throws => some (d, .refused .badKey)
  | .clearLegacySigningKey, .proceed => some (d.edit .clearLegacySigningKey, .saved)
  | _, _ => none

def Unpairing.next : Unpairing → GatewayMove → Option (Phone × Unpairing)
  | .delete, .proceed => some (d.delete, .clear)
  | .clear, .proceed => some (d.edit .clear, .unpaired)
  | _, _ => none

/-- Once it is paired and has a key, a worker takes the two addresses, where `!!` may throw, and
posts what there is; a signature without a key throws, and the post is not made. -/
def Working.next : Working → GatewayMove → Option (Phone × Working)
  | .migrating .done, .proceed => some (d, .checking .serverUrl)
  | .migrating stage, m => (stage.next P d m).map fun r => (r.1, .migrating r.2)
  | .checking (.answered paired), .proceed =>
    some (d, if paired then .hasKey else .returned .failure)
  | .checking stage, m => (stage.next d m).map fun r => (d, .checking r)
  | .hasKey, .proceed => some (d, if d.keystore.isSome then .serverUrl else .returned .retry)
  | .serverUrl, .proceed => some (d, d.prefs.serverUrl.elim (.returned .failure) .receiverId)
  | .receiverId url, .proceed =>
    some (d, d.prefs.receiverId.elim (.returned .failure) fun rcv => .posting url rcv [])
  | .posting url rcv posts, .post =>
    some (d, .posting url rcv (posts ++ (d.keystore.map fun key => ⟨url, rcv, key⟩).toList))
  | .posting _ _ _, .finish result => some (d, .returned result)
  | _, _ => none

def GatewayCall.next : GatewayCall → GatewayMove → Option (Phone × GatewayCall)
  | .onCreate stage, m => (stage.next P d m).map fun r => (r.1, .onCreate r.2)
  | .save url rcv key stage, m =>
    (stage.next P d url rcv key m).map fun r => (r.1, .save url rcv key r.2)
  | .unpair stage, m => (stage.next d m).map fun r => (r.1, .unpair r.2)
  | .refresh stage, m => (stage.next d m).map fun r => (d, .refresh r)
  | .onReceive stage, m => (stage.next d m).map fun r => (d, .onReceive r)
  | .doWork stage, m => (stage.next P d m).map fun r => (r.1, .doWork r.2)

end

/-! ## The main thread -/

def GatewayCall.isMain : GatewayCall → Bool
  | .doWork _ => false
  | _ => true

/-- It has the main thread, and has not given it back. -/
def GatewayCall.isUnderway : GatewayCall → Bool
  | .onCreate stage => stage ≠ .hasKey && stage ≠ .done
  | .save _ _ _ stage =>
    stage = .receiverId || stage = .importKey || stage = .clearLegacySigningKey
  | .unpair stage => stage = .clear
  | .refresh stage | .onReceive stage =>
    stage = .receiverId || stage = .hasKey || stage = .legacySigningKey
  | .doWork _ => false

def gateway (P : Primitives) : Program Phone GatewayCall GatewayRequest GatewayMove where
  accept _ r := some r.call
  turn d others c m :=
    if c.isMain && others.any (·.isUnderway) then none
    else (c.next P d m).map fun r => ⟨r.1, r.2, []⟩

abbrev Gateway := Pool Phone GatewayCall

/-- A call's turn, or the arrival of one; the writing of the file; the death of the process. -/
inductive GatewayAct where
  | act (a : Act GatewayRequest GatewayMove)
  | write (n : Nat)
  | die

def gatewayStep (P : Primitives) (s : Gateway) : GatewayAct → Option Gateway
  | .act a => s.step (gateway P) a
  | .write n => some ⟨s.store.written n, s.calls⟩
  | .die => some ⟨s.store.died, []⟩

end Syrotp.Android
