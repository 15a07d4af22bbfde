import Syrotp.Gsm.Queue
import Syrotp.Misc.Run

/-!
# The GSM gateway at work

The modem with its storage slots, the reader and the worker of `service.py` with the queue between
them, and what the server has stored of this receiver. Messages arrive in free slots at any time,
a deletion may fail, and the process may stop and start again anywhere.
-/

namespace Syrotp.Gsm

open Py

/-- A message in a slot of the modem; its number is its place among all that arrived. -/
structure Slot where
  message : Nat
  sms : StoredSms

/-- A line among all that were received: its message, and its number in it. -/
structure Place where
  message : Nat
  line : Nat
  deriving DecidableEq, Repr

/-- A message as a poll read it: the line that was taken for its header, the timestamp in that line,
the clock that the parser would fall back to, and what the parser made of it. -/
structure Read where
  place : Place
  scts : Str
  clock : Int
  sms : IncomingSms

/-- It was found at the header that the modem printed for it, not at a line of a body. -/
def Read.IsPrinted (r : Read) : Prop := r.place.line = 0

instance (r : Read) : Decidable r.IsPrinted := inferInstanceAs (Decidable (_ = _))

structure Station where
  arrivals : List StoredSms
  slots : List Slot
  /-- What the reader still has of its poll, and whether it has queued the first of it. -/
  reading : List Read
  isQueued : Bool
  queue : InboundQueue
  /-- What the worker still has of its snapshot. -/
  sending : List QueueItem
  authFailed : Bool
  server : List Payload

def Station.init : Station := ⟨[], [], [], false, .empty, [], false, []⟩

/-- What becomes of one upload. -/
inductive Reply where
  /-- The server takes the message, or finds its key stored, and says so. -/
  | answered
  /-- Another status, whether or not the message was stored. -/
  | refused (status : Nat) (stored : Bool)
  /-- A network error. -/
  | lost (stored : Bool)
  /-- The worker, or the process, does not live to do anything about the answer. -/
  | unheard (stored : Bool)

inductive Action where
  | arrive (sms : StoredSms)
  | poll (clock : Nat → Int) (reads : List Bytes)
  | add (now : Int)
  | delete (effective : Bool)
  | readerFails
  | drain (now : Int)
  | upload (reply : Reply) (now : Int)
  | workerFails
  | restart

/-- The lines received of a slot. -/
def Slot.lines (slot : Slot) : List (Place × Str) :=
  slot.sms.received.mapIdx fun i line => (⟨slot.message, i⟩, line)

/-- The lines of the slots that the parser takes for headers, each with the timestamp in it. -/
def Station.headings (s : Station) : List (Place × Str) :=
  (s.slots.flatMap Slot.lines).filterMap fun l => (cmglHeader l.2).map fun h => (l.1, h.scts)

/-- `readline` brings the listing of the slots, or the beginning of it. -/
def Station.Brings (s : Station) (reads : List Bytes) : Prop :=
  (reads.filter (· ≠ [])).map decodeAscii <+: readlines (sent (s.slots.map Slot.sms))

instance (s : Station) (reads : List Bytes) : Decidable (s.Brings reads) :=
  inferInstanceAs (Decidable (_ <+: _))

/-- What a poll reads: the messages that `list_sms` returns, and for each the line it was found
at. -/
def Station.listed (s : Station) (clock : Nat → Int) (reads : List Bytes) : List Read :=
  if listSmsRaises true reads then []
  else (listSms true clock reads).mapIdx fun i sms =>
    let heading := s.headings.getD i (⟨0, 0⟩, [])
    ⟨heading.1, heading.2, clock i, sms⟩

/-- What the server stores of a post: a message under a new key. -/
def store (server : List Payload) (p : Payload) : List Payload :=
  if hasKey (·.idempotencyKey) p.idempotencyKey server then server else server ++ [p]

/-- The status of an answer. -/
def answerStatus (server : List Payload) (p : Payload) : Nat :=
  if hasKey (·.idempotencyKey) p.idempotencyKey server then 409 else 202

/-- What the worker and the server do about one item. -/
def Station.post (s : Station) (item : QueueItem) (rest : List QueueItem) (now : Int) :
    Reply → Station
  | .answered =>
    let status := answerStatus s.server item.toPayload
    let handled := handleUploadResult s.queue now item.id item.attempts status
    { s with queue := handled.1, authFailed := s.authFailed || handled.2, sending := rest,
             server := store s.server item.toPayload }
  | .refused status stored =>
    let handled := handleUploadResult s.queue now item.id item.attempts status
    { s with queue := handled.1, authFailed := s.authFailed || handled.2, sending := rest,
             server := if stored then store s.server item.toPayload else s.server }
  | .lost stored =>
    { s with queue := s.queue.bumpAttempts now item.id (backoffForAttempt item.attempts),
             sending := rest,
             server := if stored then store s.server item.toPayload else s.server }
  | .unheard stored =>
    { s with sending := [],
             server := if stored then store s.server item.toPayload else s.server }

/-- A status that is neither a success nor a conflict. -/
def Reply.isOther : Reply → Bool
  | .refused status _ => !(200 ≤ status && status < 300 || status == 409)
  | _ => true

/-- One step of the modem, of a loop of the gateway, or of the process. -/
def Station.step (cfg : GatewayConfig) (s : Station) : Action → Option Station
  | .arrive sms =>
    if s.slots.any fun slot => slot.sms.index = sms.index then none
    else some { s with arrivals := s.arrivals ++ [sms],
                       slots := s.slots ++ [⟨s.arrivals.length, sms⟩] }
  | .poll clock reads =>
    match s.reading with
    | [] =>
      if s.Brings reads then some { s with reading := s.listed clock reads, isQueued := false }
      else none
    | _ :: _ => none
  | .add now =>
    match s.reading, s.isQueued with
    | r :: _, false =>
      some { s with queue := (s.queue.add now (payload cfg r.sms)).2, isQueued := true }
    | _, _ => none
  | .delete effective =>
    match s.reading, s.isQueued with
    | r :: rest, true =>
      let kept := s.slots.filter fun slot => slot.sms.index ≠ r.sms.index
      some { s with slots := if effective then kept else s.slots, reading := rest,
                    isQueued := false }
    | _, _ => none
  | .readerFails => some { s with reading := [], isQueued := false }
  | .drain now =>
    match s.sending, s.authFailed with
    | [], false => some { s with sending := s.queue.snapshot now 50 }
    | _, _ => none
  | .upload reply now =>
    match s.sending with
    | item :: rest => if reply.isOther then some (s.post item rest now reply) else none
    | [] => none
  | .workerFails => some { s with sending := [] }
  | .restart => some { s with reading := [], isQueued := false, sending := [], authFailed := false }

abbrev StationRun (cfg : GatewayConfig) := Run (Station.step cfg) Station.init

/-- The messages read at one step of a log. -/
def readsAt (e : Station × Action) : List Read :=
  match e.2 with
  | .poll clock reads => e.1.listed clock reads
  | _ => []

/-- All messages read in a run. -/
def reads (log : List (Station × Action)) : List Read := log.flatMap readsAt

end Syrotp.Gsm
