import Syrotp.Server.Platform
import Syrotp.Misc.Table

/-!
# Transactions under READ COMMITTED

A statement reads the rows committed when it runs. What an open transaction has written is
visible to no one else until it commits, so the model keeps it in the calling code's stage and
commits it in one `Write`; meanwhile the transaction holds `Lock`s, and a statement of another
transaction that needs one of them waits (its step is not enabled) or, with SKIP LOCKED, passes
the row over. A statement outside `db.transaction` is a transaction of its own.

A failed statement, a lost connection and a crash all roll the open transaction back; they are
the `abort` move of the calls.
-/

namespace Syrotp

/-- What an open transaction keeps from the others. -/
inductive Lock where
  /-- `pg_advisory_xact_lock` on the hash of `<app>:<phone>`. -/
  | advisory (appId : Id) (phoneE164 : Text)
  /-- A row of `verifications` it has updated. -/
  | verification (id : Id)
  /-- An uncommitted entry of `verifications_pending_uniq`. -/
  | pendingKey (receiverId : Id) (phoneE164 code : Text)
  /-- An uncommitted primary key. -/
  | key (id : Id)
  deriving DecidableEq, Repr

/-- What one statement sees: the committed rows, which locks other transactions hold, and which
endpoint rows they keep from being deleted (the foreign keys of uncommitted deliveries). -/
structure View where
  db : Db
  held : Lock → Bool
  referenced : Id → Bool

/-- What a committing transaction writes. -/
inductive Write where
  | insertVerification (row : Verification)
  /-- A conditional UPDATE of a verification, its event and deliveries, and the back-link of the
  inbound that claimed it. -/
  | resolveVerification (row : Verification) (event : WebhookEvent)
      (deliveries : List WebhookDelivery) (inbound : Option Id)
  | insertInbound (row : InboundSms)
  | setMatched (inboundId : Id) (matched : Option Id)
  | insertBinding (row : PhoneBinding)
  | verifyBindings (ids : List Id) (boundAt : Time)
  | revokeBinding (appId id : Id) (revokedAt : Time)
  | putReceiver (row : Receiver)
  | insertEndpoint (row : WebhookEndpoint)
  | deleteEndpoint (appId id : Id)
  deriving DecidableEq, Repr

/-- `UPDATE inbound_sms SET matched_verification_id = … WHERE id = …`. -/
def setMatched (inboundId : Id) (matched : Option Id) : List InboundSms → List InboundSms :=
  updateWhere (fun m => m.id = inboundId) fun m => { m with matchedVerificationId := matched }

/-- The rows after a commit. -/
def Db.commit (db : Db) : Write → Db
  | .insertVerification row => { db with verifications := db.verifications ++ [row] }
  | .resolveVerification row event deliveries inbound =>
    { db with
      verifications := updateWhere (fun v => v.id = row.id) (fun _ => row) db.verifications
      webhookEvents := db.webhookEvents ++ [event]
      webhookDeliveries := db.webhookDeliveries ++ deliveries
      inboundSms :=
        match inbound with
        | none => db.inboundSms
        | some i => setMatched i (some row.id) db.inboundSms }
  | .insertInbound row => { db with inboundSms := db.inboundSms ++ [row] }
  | .setMatched i matched => { db with inboundSms := setMatched i matched db.inboundSms }
  | .insertBinding row => { db with phoneBindings := db.phoneBindings ++ [row] }
  | .verifyBindings ids boundAt =>
    { db with
      phoneBindings := updateWhere (fun b => b.id ∈ ids)
        (fun b => { b with status := .verified, boundAt := some boundAt }) db.phoneBindings }
  | .revokeBinding appId id revokedAt =>
    { db with
      phoneBindings := updateWhere (fun b => b.id = id ∧ b.appId = appId)
        (fun b => { b with status := .revoked, revokedAt := some revokedAt }) db.phoneBindings }
  | .putReceiver row =>
    { db with receivers := db.receivers.filter (fun r => r.id ≠ row.id) ++ [row] }
  | .insertEndpoint row => { db with webhookEndpoints := db.webhookEndpoints ++ [row] }
  | .deleteEndpoint appId id =>
    { db with
      webhookEndpoints := db.webhookEndpoints.filter fun e => ¬(e.appId = appId ∧ e.id = id)
      webhookDeliveries := db.webhookDeliveries.filter fun d =>
        ¬∃ e ∈ db.webhookEndpoints, (e.appId = appId ∧ e.id = id) ∧ d.endpointId = e.id }

/-- The rows after a turn that may not have committed anything. -/
def Db.commitOption (db : Db) : Option Write → Db
  | none => db
  | some w => db.commit w

/-- What is asked of the value of an option holds where there is none. -/
theorem forall_of_none {α : Type*} {p : α → Prop} : ∀ a, (none : Option α) = some a → p a := nofun

end Syrotp
