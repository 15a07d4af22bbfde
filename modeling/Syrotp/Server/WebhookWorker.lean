import Syrotp.Server.SsrfGuard
import Syrotp.Server.Webhooks
import Syrotp.Misc.Pool
import Mathlib.Data.List.Sort

/-!
# The webhook worker

`services/webhookWorker.ts`: a tick claims a batch of due deliveries, posts them one after another
and writes each outcome back. Any number of workers share the database, so any number of ticks is
under way at once, interleaved with the transactions of the server. The clocks that a step reads
are arbitrary, and a worker may stop anywhere.
-/

namespace Syrotp

/-! ## Retry policy -/

/-- `RETRY_DELAY_SECONDS` of `services/webhooks.ts`. -/
def retryDelaySeconds : List Nat := [30, 120, 600, 1800, 7200]

/-- `MAX_DELIVERY_ATTEMPTS` of `services/webhooks.ts`. -/
def maxDeliveryAttempts : Nat := 6

/-- `nextRetryDelaySeconds` of `services/webhooks.ts`. -/
def nextRetryDelaySeconds : Nat → Option Nat
  | 0 => none
  | n + 1 => if maxDeliveryAttempts ≤ n + 1 then none else retryDelaySeconds[n]?

/-- `IN_FLIGHT_LEASE_SECONDS`. -/
def inFlightLeaseSeconds : Nat := 60

/-- `BATCH_SIZE`. -/
def batchSize : Nat := 25

/-! ## One delivery -/

/-- The functions that allow, unlock and sign a request; `unwrap` has the master key applied and is
`none` where it throws. -/
structure WebhookPlatform where
  isUrlAllowedForDelivery : Text → Bool
  unwrap : Text → Id → Option Text
  signDeliveryBody : Text → Nat → VerificationEventEnvelope → Text

/-- `DueRow`. -/
structure DueRow where
  deliveryId : Id
  endpointId : Id
  eventId : Id
  eventType : VerificationEventType
  attemptCount : Nat
  url : Text
  enabled : Bool
  secretCiphertext : Text
  payload : VerificationEventEnvelope
  deriving DecidableEq, Repr

inductive FailReason where
  | networkError
  | timeout
  | client4xx
  | server5xx
  | rateLimited
  | badResponse
  deriving DecidableEq, Repr

/-- `DeliveryOutcome`. -/
inductive DeliveryOutcome where
  | delivered (statusCode : Nat)
  | retry (reason : FailReason) (statusCode : Option Nat) (message : Text)
  | permanent (reason : FailReason) (statusCode : Nat) (message : Text)
  | endpointDisabled
  deriving DecidableEq, Repr

/-- The request that `deliver` makes. -/
structure DeliveryRequest where
  url : Text
  webhookId : Id
  timestampSec : Nat
  signature : Text
  event : VerificationEventType
  attempt : Nat
  body : VerificationEventEnvelope
  redirect : RequestRedirect
  deriving DecidableEq, Repr

/-- What `fetch` throws. -/
inductive Thrown where
  | domException (name message : Text)
  | error (message : Text)
  | other (string : Text)
  deriving DecidableEq, Repr

/-- `/timed?\s?out|abort/i.test(message)`. -/
def saysTimedOut (message : Text) : Bool :=
  (Text.asciiUpper message).tails.any fun t =>
    let afterTime := t.drop 4
    let afterD := if afterTime.head? = some 68 then afterTime.tail else afterTime
    let afterSpace := if afterD.head?.any Text.isSpace then afterD.tail else afterD
    Text.startsWith t (text "ABORT") ||
      Text.startsWith t (text "TIME") && Text.startsWith afterSpace (text "OUT")

example : saysTimedOut (text "Request timed out!") = true := by decide +kernel

def Thrown.isTimeout : Thrown → Bool
  | .domException name _ => name = text "TimeoutError"
  | .error message => saysTimedOut message
  | .other _ => false

def Thrown.message : Thrown → Text
  | .domException _ message => message
  | .error message => message
  | .other string => string

/-- `deliver` up to its request, which it makes unless the outcome is clear without. -/
def deliver (W : WebhookPlatform) (now : Time) (row : DueRow) (attempt : Nat) :
    Except DeliveryOutcome DeliveryRequest :=
  if !row.enabled then .error .endpointDisabled
  else if !W.isUrlAllowedForDelivery row.url then
    .error (.permanent .badResponse 0 (text "url_blocked_by_ssrf_guard"))
  else
    match W.unwrap row.secretCiphertext row.endpointId with
    | none => .error (.permanent .badResponse 0 (text "secret_unwrap_failed"))
    | some secret =>
      let timestampSec := now / 1000
      .ok ⟨row.url, row.deliveryId, timestampSec,
        W.signDeliveryBody secret timestampSec row.payload, row.eventType, attempt, row.payload,
        .manual⟩

/-- `deliver` from the response on. -/
def deliveryOutcome : Except Thrown Nat → DeliveryOutcome
  | .error e => .retry (if e.isTimeout then .timeout else .networkError) none (e.message.take 500)
  | .ok status =>
    if 200 ≤ status ∧ status < 300 then .delivered status
    else if status = 429 then .retry .rateLimited (some status) (text "429 from receiver")
    else if 400 ≤ status ∧ status < 500 then
      .permanent .client4xx status (Text.ofInt status ++ text " from receiver")
    else if 500 ≤ status ∧ status < 600 then
      .retry .server5xx (some status) (Text.ofInt status ++ text " from receiver")
    else .permanent .badResponse status (text "unexpected status " ++ Text.ofInt status)

/-- What `applyOutcome` sets in a row; for a retry it reads the clock a second time. -/
def applyOutcome (now later : Time) (attempt : Nat) (outcome : DeliveryOutcome)
    (d : WebhookDelivery) : WebhookDelivery :=
  match outcome with
  | .delivered statusCode =>
    { d with
      status := .delivered, attemptCount := attempt, lastStatusCode := some statusCode
      lastError := none, updatedAt := now }
  | .endpointDisabled =>
    { d with
      status := .abandoned, attemptCount := attempt
      lastError := some (text "endpoint_disabled"), updatedAt := now }
  | .permanent _ statusCode message =>
    { d with
      status := .failed, attemptCount := attempt, lastStatusCode := some statusCode
      lastError := some (message.take 500), updatedAt := now }
  | .retry _ statusCode message =>
    let failed : WebhookDelivery :=
      { d with
        attemptCount := attempt, lastStatusCode := statusCode
        lastError := some (message.take 500), updatedAt := now }
    match nextRetryDelaySeconds attempt with
    | none => { failed with status := .abandoned }
    | some delay =>
      if maxDeliveryAttempts ≤ attempt then { failed with status := .abandoned }
      else { failed with status := .pending, nextAttemptAt := later + delay * 1000 }

/-! ## A tick -/

/-- What the outside answers during one step: the two clocks, that of the process read once and once
more, the order of deliveries that are due since the same time, and the response to a request. -/
structure WorkerWorld where
  now : Time
  later : Time
  dbNow : Time
  rank : Id → Nat
  response : Except Thrown Nat

/-- The row of the joins for a delivery. -/
def dueRow (db : Db) (d : WebhookDelivery) : Option DueRow :=
  match db.webhookEndpoints.find? (·.id = d.endpointId),
    db.webhookEvents.find? (·.id = d.eventId) with
  | some e, some ev =>
    some ⟨d.id, d.endpointId, d.eventId, d.eventType, d.attemptCount, e.url, e.enabled,
      e.secretCiphertext, ev.payload⟩
  | _, _ => none

/-- The deliveries that are due, those that wait longest first. -/
def dueDeliveries (db : Db) (locked : Id → Bool) (w : WorkerWorld) : List WebhookDelivery :=
  (db.webhookDeliveries.filter fun d =>
    d.status = .pending ∧ d.nextAttemptAt ≤ w.dbNow ∧ locked d.id = false).insertionSort
    fun d d' => d.nextAttemptAt < d'.nextAttemptAt ∨
      d.nextAttemptAt = d'.nextAttemptAt ∧ w.rank d.id ≤ w.rank d'.id

/-- The SELECT of `claimBatch`. -/
def selectDue (db : Db) (locked : Id → Bool) (w : WorkerWorld) : List DueRow :=
  ((dueDeliveries db locked w).filterMap (dueRow db)).take batchSize

/-- The UPDATE of `claimBatch`. -/
def leaseRows (now later : Time) (rows : List DueRow) : List WebhookDelivery → List WebhookDelivery :=
  updateWhere (fun d => d.id ∈ rows.map (·.deliveryId)) fun d =>
    { d with nextAttemptAt := now + inFlightLeaseSeconds * 1000, updatedAt := later }

/-- How far a tick is. -/
inductive WorkerPhase where
  | select
  /-- In the transaction of `claimBatch`, whose rows are locked. -/
  | lease (rows : List DueRow)
  /-- Before `deliver` of the next row, if there is one. -/
  | deliver (rows : List DueRow)
  /-- A request for `row` is in flight. -/
  | fetch (row : DueRow) (request : DeliveryRequest) (rest : List DueRow)
  | applyOutcome (row : DueRow) (outcome : DeliveryOutcome) (rest : List DueRow)
  /-- Something threw. -/
  | failed
  deriving DecidableEq, Repr

/-- The rows a tick has claimed and not written yet. -/
def WorkerPhase.rows : WorkerPhase → List DueRow
  | .select => []
  | .lease rows => rows
  | .deliver rows => rows
  | .fetch row _ rest => row :: rest
  | .applyOutcome row _ rest => row :: rest
  | .failed => []

/-- The rows it has locked. -/
def WorkerPhase.locks : WorkerPhase → List Id
  | .lease rows => rows.map (·.deliveryId)
  | _ => []

def WorkerPhase.isOver : WorkerPhase → Bool
  | .deliver [] => true
  | .failed => true
  | _ => false

/-- The next step of `tick`. -/
def webhookTick (W : WebhookPlatform) (locked : Id → Bool) (w : WorkerWorld) (db : Db) :
    WorkerPhase → Option (WorkerPhase × Db)
  | .select =>
    match selectDue db locked w with
    | [] => some (.deliver [], db)
    | rows => some (.lease rows, db)
  | .lease rows =>
    some (.deliver rows,
      { db with webhookDeliveries := leaseRows w.now w.later rows db.webhookDeliveries })
  | .deliver [] => none
  | .deliver (row :: rest) =>
    match deliver W w.now row (row.attemptCount + 1) with
    | .error outcome => some (.applyOutcome row outcome rest, db)
    | .ok request => some (.fetch row request rest, db)
  | .fetch row _ rest => some (.applyOutcome row (deliveryOutcome w.response) rest, db)
  | .applyOutcome row outcome rest =>
    if locked row.deliveryId then none
    else some (.deliver rest,
      { db with
        webhookDeliveries := updateWhere (fun d => d.id = row.deliveryId)
          (applyOutcome w.now w.later (row.attemptCount + 1) outcome) db.webhookDeliveries })
  | .failed => none

/-! ## Many workers -/

/-- The database, and the ids of the deliveries there have been; no ULID is drawn twice. -/
structure WorkerStore where
  db : Db
  drawn : List Id
  deriving DecidableEq, Repr

inductive WorkerRequest where
  | tick
  /-- A transaction of the server. -/
  | commit (w : Write)

inductive WorkerCall where
  | tick (phase : WorkerPhase)
  | commit (w : Write) (isDone : Bool)
  deriving DecidableEq, Repr

/-- How the turn of a call goes. -/
inductive WorkerMove where
  | run (w : WorkerWorld)
  /-- The step throws. -/
  | error
  /-- It takes effect, but its answer is lost and it throws. -/
  | lost (w : WorkerWorld)

def WorkerMove.takesEffect : WorkerMove → Bool
  | .error => false
  | _ => true

/-- The world a turn takes effect in. -/
def WorkerMove.world? : WorkerMove → Option WorkerWorld
  | .run w => some w
  | .lost w => some w
  | .error => none

def WorkerCall.rows : WorkerCall → List DueRow
  | .tick phase => phase.rows
  | .commit .. => []

def WorkerCall.locks : WorkerCall → List Id
  | .tick phase => phase.locks
  | .commit .. => []

/-- The ids of the deliveries a transaction inserts. -/
def Write.newDeliveries : Write → List Id
  | .resolveVerification _ _ deliveries _ => deliveries.map (·.id)
  | _ => []

/-- A transaction can commit: its deliveries are new, and none that it deletes is locked. -/
def Write.commits (store : WorkerStore) (locked : Id → Bool) (w : Write) : Bool :=
  w.newDeliveries.Nodup && w.newDeliveries.all (· ∉ store.drawn) &&
    store.db.webhookDeliveries.all fun d =>
      d ∈ (store.db.commit w).webhookDeliveries || !locked d.id

def WorkerCall.step (W : WebhookPlatform) (store : WorkerStore) (locked : Id → Bool)
    (world : WorkerWorld) : WorkerCall → Option (WorkerStore × WorkerCall)
  | .tick phase =>
    (webhookTick W locked world store.db phase).map fun r => (⟨r.2, store.drawn⟩, .tick r.1)
  | .commit w isDone =>
    if !isDone && w.commits store locked then
      some (⟨store.db.commit w, w.newDeliveries ++ store.drawn⟩, .commit w true)
    else none

/-- The call after something threw, unless it is over. -/
def WorkerCall.failed : WorkerCall → Option WorkerCall
  | .tick phase => if phase.isOver then none else some (.tick .failed)
  | .commit w isDone => if isDone then none else some (.commit w true)

def WorkerCall.turn (W : WebhookPlatform) (store : WorkerStore) (others : List WorkerCall)
    (c : WorkerCall) : WorkerMove → Option (Turn WorkerStore WorkerCall)
  | .run world =>
    (c.step W store (fun id => others.any fun o => id ∈ o.locks) world).map fun r =>
      ⟨r.1, r.2, []⟩
  | .error => c.failed.map fun f => ⟨store, f, []⟩
  | .lost world =>
    match c.step W store (fun id => others.any fun o => id ∈ o.locks) world, c.failed with
    | some r, some f => some ⟨r.1, f, []⟩
    | _, _ => none

/-- Any number of workers, and the server beside them. -/
def webhookWorkers (W : WebhookPlatform) :
    Program WorkerStore WorkerCall WorkerRequest WorkerMove where
  accept _ r :=
    match r with
    | .tick => some (.tick .select)
    | .commit w => some (.commit w false)
  turn store others c m := c.turn W store others m

abbrev WorkerPool := Pool WorkerStore WorkerCall

/-- A run of the workers from a store in which nothing is under way. -/
abbrev WorkerRun (W : WebhookPlatform) (store : WorkerStore) :=
  Run (Pool.step (webhookWorkers W)) ⟨store, []⟩

end Syrotp
