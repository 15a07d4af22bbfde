import Syrotp.Server.Verifications
import Mathlib.Data.List.Sort

/-!
# Receivers

What keeps a receiver routable and who asks whether it is: `pickReceiver` of
`services/verifications.ts`, the heartbeat route of `routes/inbound.ts`, the lists of
`admin/receivers.ts` and `admin/web/queries.ts`, and `services/receiverGauges.ts`. Differences of
two clock readings are integers, since a stored heartbeat may lie ahead of the clock.
-/

namespace Syrotp

/-! ## Routing -/

/-- The `preferredOperator` that is given, that is, truthy. -/
def givenOperator (preferredOperator : Option Text) : Option Text :=
  preferredOperator.filter fun o => !o.isEmpty

/-- `pickReceiver` on the rows of one moment. Each of its two queries breaks ties in its own way. -/
def pickReceiver (env : Env) (db : Db) (appId : Id) (preferredOperator : Option Text)
    (dbNow : Time) (tie tie' : Nat) : Option PickedReceiver :=
  let preferred := match givenOperator preferredOperator with
    | none => none
    | some o => runHealthyReceiverQuery env db appId (some o) dbNow tie
  match preferred with
  | some r => some (r.picked .preferred)
  | none =>
    match runHealthyReceiverQuery env db appId none dbNow tie' with
    | none => none
    | some r =>
      some (r.picked (if (givenOperator preferredOperator).isSome then .fallback else .none))

/-! ## Heartbeats -/

/-- `coalesceThresholdSec`. -/
def coalesceThresholdSec (env : Env) : Nat := env.config.receiverHeartbeatTimeoutSeconds / 4

/-- `next_heartbeat_seconds` of the answer. -/
def nextHeartbeatSeconds (env : Env) : Nat := env.config.receiverHeartbeatTimeoutSeconds / 2

/-- `ageSec > coalesceThresholdSec`, in milliseconds. A receiver that was never heard of is
infinitely old. -/
def heartbeatDue (env : Env) (now : Time) (lastHb : Option Time) : Bool :=
  match lastHb with
  | none => true
  | some heartbeat => (coalesceThresholdSec env * 1000 : Nat) < (now : Int) - heartbeat

/-- What `POST /v1/receivers/:id/heartbeat` answers. -/
structure HeartbeatResponse where
  ok : Bool
  serverTime : Time
  nextHeartbeatSeconds : Nat
  deriving DecidableEq, Repr

/-- The heartbeat route from its SELECT on, for a heartbeat that was accepted. -/
def heartbeat (env : Env) (receivers : List Receiver) (now : Time) (receiverId : Id) :
    List Receiver × HeartbeatResponse :=
  let lastHb := (receivers.find? fun r => r.id = receiverId).bind (·.lastHeartbeatAt)
  let written := if heartbeatDue env now lastHb then
      updateWhere (fun r => r.id = receiverId) (fun r => { r with lastHeartbeatAt := some now })
        receivers
    else receivers
  (written, ⟨true, now, nextHeartbeatSeconds env⟩)

/-! ## Health views -/

/-- `now - ts <= fresh`, on the clock of the process. -/
def withinTimeout (env : Env) (now heartbeat : Time) : Bool :=
  (now : Int) - heartbeat ≤ (env.config.receiverHeartbeatTimeoutSeconds * 1000 : Nat)

/-- `last_heartbeat_at > now() - timeout`, on the clock of the database. -/
def withinInterval (env : Env) (dbNow heartbeat : Time) : Bool :=
  dbNow < heartbeat + env.config.receiverHeartbeatTimeoutSeconds * 1000

/-- `ReceiverRecord` of `admin/receivers.ts`. -/
structure ReceiverRecord where
  id : Id
  appId : Id
  operator : Option Text
  msisdn : Text
  enabled : Bool
  lastHeartbeatAt : Option Time
  lastHeartbeatAgoSeconds : Option Int
  healthy : Bool
  createdAt : Time
  deriving DecidableEq, Repr

structure ListReceiversOptions where
  appId : Option Id
  includeDisabled : Option Bool
  deriving DecidableEq, Repr

/-- What `listReceivers` makes of a row. -/
def receiverRecord (env : Env) (now : Time) (r : Receiver) : ReceiverRecord where
  id := r.id
  appId := r.appId
  operator := r.operator
  msisdn := r.msisdn
  enabled := r.enabled
  lastHeartbeatAt := r.lastHeartbeatAt
  lastHeartbeatAgoSeconds := r.lastHeartbeatAt.map fun h => ((now : Int) - h) / 1000
  healthy := r.enabled && r.lastHeartbeatAt.any (withinTimeout env now)
  createdAt := r.createdAt

/-- `ORDER BY created_at DESC`; the database is free to order the receivers of one time. -/
def newestFirst (rank : Id → Nat) (rows : List Receiver) : List Receiver :=
  rows.insertionSort fun r r' =>
    r'.createdAt < r.createdAt ∨ r.createdAt = r'.createdAt ∧ rank r.id ≤ rank r'.id

/-- `listReceivers`. -/
def listReceivers (env : Env) (db : Db) (now : Time) (rank : Id → Nat)
    (opts : ListReceiversOptions) : List ReceiverRecord :=
  let rows := db.receivers.filter fun r =>
    (match opts.appId with
      | none => true
      | some appId => decide (r.appId = appId)) &&
    (opts.includeDisabled ≠ some false || r.enabled)
  (newestFirst rank rows).map (receiverRecord env now)

/-- `AdminReceiverRow` of `admin/web/queries.ts`. -/
structure AdminReceiverRow where
  id : Id
  appId : Id
  operator : Option Text
  msisdn : Text
  enabled : Bool
  lastHeartbeatAt : Option Time
  createdAt : Time
  healthy : Bool
  deriving DecidableEq, Repr

/-- `PAGE_LIMIT` of `admin/web/queries.ts`. -/
def pageLimit : Nat := 100

/-- What `fetchReceivers` makes of a row. -/
def adminReceiverRow (env : Env) (now : Time) (r : Receiver) : AdminReceiverRow where
  id := r.id
  appId := r.appId
  operator := r.operator
  msisdn := r.msisdn
  enabled := r.enabled
  lastHeartbeatAt := r.lastHeartbeatAt
  createdAt := r.createdAt
  healthy := r.enabled && r.lastHeartbeatAt.any (withinTimeout env now)

/-- `fetchReceivers`. -/
def fetchReceivers (env : Env) (db : Db) (now : Time) (rank : Id → Nat) :
    List AdminReceiverRow :=
  ((newestFirst rank db.receivers).take pageLimit).map (adminReceiverRow env now)

/-- What `runOnce` hands to `setReceiverGauges`. -/
structure ReceiverGauges where
  enabledTotal : Nat
  disabledTotal : Nat
  healthyTotal : Nat
  perReceiverHeartbeatAge : List (Id × Nat)
  deriving DecidableEq, Repr

/-- One turn of the loop in `runOnce`. A receiver that was never heard of is a year old. -/
def countReceiver (env : Env) (now : Time) (g : ReceiverGauges) (r : Receiver) :
    ReceiverGauges where
  enabledTotal := if r.enabled then g.enabledTotal + 1 else g.enabledTotal
  disabledTotal := if r.enabled then g.disabledTotal else g.disabledTotal + 1
  healthyTotal :=
    if r.enabled && r.lastHeartbeatAt.any (withinTimeout env now) then g.healthyTotal + 1
    else g.healthyTotal
  perReceiverHeartbeatAge := g.perReceiverHeartbeatAge ++
    [(r.id, match r.lastHeartbeatAt with
      | none => 365 * 24 * 3600
      | some ts => (((now : Int) - ts) / 1000).toNat)]

/-- `runOnce` of `services/receiverGauges.ts`. -/
def receiverGauges (env : Env) (now : Time) (rows : List Receiver) : ReceiverGauges :=
  rows.foldl (countReceiver env now) ⟨0, 0, 0, []⟩

/-- `receiverCounts` of `fetchOverview`. -/
structure ReceiverCounts where
  total : Nat
  enabled : Nat
  healthy : Nat
  deriving DecidableEq, Repr

def fetchOverviewCounts (env : Env) (dbNow : Time) (rows : List Receiver) : ReceiverCounts where
  total := rows.length
  enabled := rows.countP (·.enabled)
  healthy := rows.countP fun r => r.enabled && r.lastHeartbeatAt.any (withinInterval env dbNow)

/-- `receivers` of `fetchHealth`. -/
structure ReceiverBreakdown where
  healthy : Nat
  stale : Nat
  disabled : Nat
  deriving DecidableEq, Repr

def fetchHealthCounts (env : Env) (dbNow : Time) (rows : List Receiver) : ReceiverBreakdown where
  healthy := rows.countP fun r => r.enabled && r.lastHeartbeatAt.any (withinInterval env dbNow)
  stale := rows.countP fun r =>
    r.enabled && r.lastHeartbeatAt.all fun heartbeat => !withinInterval env dbNow heartbeat
  disabled := rows.countP fun r => !r.enabled

end Syrotp
