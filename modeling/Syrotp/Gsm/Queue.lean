import Syrotp.Gsm.Storage
import Syrotp.Misc.Table

/-!
# The queue of the GSM gateway

`syrotp_gateway/queue.py`: the SQLite table between the reader of the modem and the upload worker,
and what `service.py` does with it for a message read and for an answer received.
-/

namespace Syrotp.Gsm

open Py

/-- The settings of `config.py` that go into a row. -/
structure GatewayConfig where
  receiverId : Str
  receiverMsisdn : Str
  simSlot : Option Int

/-- What is queued and posted of a message. -/
structure Payload where
  fromMsisdn : Str
  toMsisdn : Str
  body : Str
  receivedAtMs : Int
  idempotencyKey : Str
  simSlot : Option Int
  deriving DecidableEq, Repr

/-- A row of `inbound_queue`. -/
structure QueueItem extends Payload where
  id : Nat
  attempts : Nat
  nextTryAtMs : Int
  createdAtMs : Int
  deriving DecidableEq, Repr

/-- `inbound_queue`, whose idempotency keys are unique, and the next id. -/
structure InboundQueue where
  rows : List QueueItem
  nextId : Nat
  keys_unique : (rows.map (·.idempotencyKey)).Nodup

namespace InboundQueue

def empty : InboundQueue := ⟨[], 1, .nil⟩

/-- `add`: whether the row was inserted, and the table. -/
def add (q : InboundQueue) (now : Int) (p : Payload) : Bool × InboundQueue :=
  if h : hasKey (·.idempotencyKey) p.idempotencyKey q.rows = true then (false, q)
  else (true,
    { rows := q.rows ++ [⟨p, q.nextId, 0, 0, now⟩]
      nextId := q.nextId + 1
      keys_unique := nodup_insert q.keys_unique (by simpa using h) })

/-- `snapshot`. -/
def snapshot (q : InboundQueue) (now : Int) (limit : Nat) : List QueueItem :=
  (q.rows.filter fun r => r.nextTryAtMs ≤ now).take limit

/-- `bump_attempts`. -/
def bumpAttempts (q : InboundQueue) (now : Int) (itemId backoffSeconds : Nat) : InboundQueue where
  rows := updateWhere (·.id = itemId) (fun r =>
    { r with attempts := r.attempts + 1, nextTryAtMs := now + backoffSeconds * 1000 }) q.rows
  nextId := q.nextId
  keys_unique := nodup_updateWhere (fun _ => rfl) q.keys_unique

/-- `remove`. -/
def remove (q : InboundQueue) (itemId : Nat) : InboundQueue where
  rows := q.rows.filter (·.id ≠ itemId)
  nextId := q.nextId
  keys_unique := q.keys_unique.sublist (List.filter_sublist.map _)

end InboundQueue

/-! ## The service -/

/-- `str(n)`. -/
def pyStr : Int → Str
  | .ofNat n => Nat.toDigits 10 n
  | .negSucc n => '-' :: Nat.toDigits 10 (n + 1)

/-- `s[-n:]`. -/
def lastChars (n : Nat) (s : Str) : Str := s.drop (s.length - n)

/-- The key that `_read_once` gives to a message. -/
def idempotencyKey (cfg : GatewayConfig) (sms : IncomingSms) : Str :=
  str "gsm:" ++ (cfg.receiverId ++ ':' :: (pyStr sms.receivedAtMs ++
    ':' :: (Nat.toDigits 10 sms.index ++ ':' :: lastChars 12 sms.sender)))

/-- What `_read_once` adds to the queue. -/
def payload (cfg : GatewayConfig) (sms : IncomingSms) : Payload :=
  ⟨sms.sender, cfg.receiverMsisdn, sms.body, sms.receivedAtMs, idempotencyKey cfg sms, cfg.simSlot⟩

/-- `_BACKOFF_SCHEDULE_SECONDS`. -/
def backoffScheduleSeconds : List Nat := [5, 15, 60, 180, 300, 600]

/-- `_backoff_for_attempt`. -/
def backoffForAttempt (attempt : Nat) : Nat :=
  backoffScheduleSeconds.getD (min attempt (backoffScheduleSeconds.length - 1)) 0

/-- `_MAX_ATTEMPTS_4XX`. -/
def maxAttempts4xx : Nat := 5

/-- `_handle_upload_result`: the queue, and whether the worker has to stop uploading. -/
def handleUploadResult (q : InboundQueue) (now : Int) (itemId attempts status : Nat) :
    InboundQueue × Bool :=
  if 200 ≤ status ∧ status < 300 ∨ status = 409 then (q.remove itemId, false)
  else if status = 401 then (q, true)
  else if 400 ≤ status ∧ status < 500 then
    if maxAttempts4xx ≤ attempts + 1 then (q.remove itemId, false)
    else (q.bumpAttempts now itemId (backoffForAttempt attempts), false)
  else (q.bumpAttempts now itemId (backoffForAttempt attempts), false)

end Syrotp.Gsm
