import Syrotp.Server.System
import Syrotp.Server.WebhookEndpoints
import Syrotp.Server.WebhookWorker
import Syrotp.Server.Webauthn

/-!
# The whole deployment

Every operation of the API, the webhook workers and the maintenance writes on one database. The
calls of `System` keep their turns; the other operations of an app stand beside them.
-/

namespace Syrotp

structure Database where
  core : Db
  webauthn : WebauthnDb
  deriving DecidableEq, Repr

def Database.empty : Database := ⟨.empty, .empty⟩

/-- The settings and libraries of every service. -/
structure Services where
  env : Env
  webhooks : WebhookService
  worker : WebhookPlatform
  webauthn : Webauthn

/-- What the outside answers to a step of any service. -/
structure ServiceWorld extends WebhookWorld where
  later : Time
  response : Except Thrown Nat

def ServiceWorld.toWorkerWorld (w : ServiceWorld) : WorkerWorld :=
  ⟨w.now, w.later, w.dbNow, w.rank, w.response⟩

/-! ## Operations -/

/-- The reads of an app's own rows that are one statement. -/
inductive AppQuery where
  | binding (appId id : Id)
  | webhooks (appId : Id)
  | webhook (appId id : Id)
  deriving DecidableEq, Repr

inductive AppAnswer where
  | binding (result : Except ApiError PublicBinding)
  | webhooks (result : List WebhookEndpointPublic)
  | webhook (result : Except ApiError WebhookEndpointPublic)
  deriving DecidableEq

def AppQuery.answer (db : Db) (rank : Id → Nat) : AppQuery → AppAnswer
  | .binding appId id => .binding (getBinding db appId id)
  | .webhooks appId => .webhooks (listWebhookEndpoints db rank appId)
  | .webhook appId id => .webhook (getWebhookEndpoint db appId id)

inductive Operation where
  | core (r : Request)
  | query (q : AppQuery)
  | createWebhook (input : CreateWebhookInput)
  | deleteWebhook (appId id : Id)
  | webauthn (r : WebauthnRequest)
  /-- A worker wakes up. -/
  | tick

inductive Job where
  | core (c : Call)
  | query (q : AppQuery) (phase : OneShot AppAnswer)
  | createWebhook (input : CreateWebhookInput) (phase : CreateWebhookPhase)
  | deleteWebhook (appId id : Id) (phase : OneShot (Except ApiError Unit))
  | webauthn (c : WebauthnCall)
  | tick (phase : WorkerPhase)
  deriving DecidableEq

def Job.core? : Job → Option Call
  | .core c => some c
  | _ => none

/-- The calls of `System` among the jobs. -/
def coreCalls (jobs : List Job) : List Call := jobs.filterMap Job.core?

/-- The deliveries a job has locked. -/
def Job.deliveryLocks : Job → List Id
  | .tick phase => phase.locks
  | _ => []

/-- The challenges a job has locked. -/
def Job.challengeLocks : Job → List Id
  | .webauthn c => c.locks
  | _ => []

def lockedDelivery (jobs : List Job) (id : Id) : Bool := jobs.any fun t => id ∈ t.deliveryLocks

def lockedChallenge (jobs : List Job) (id : Id) : Bool :=
  jobs.any fun t => id ∈ t.challengeLocks

/-- What a statement of a webhook operation sees: a delivery that a worker has locked keeps its
endpoint, too. -/
def webhookView (db : Db) (others : List Job) : View :=
  let v := viewOf db (coreCalls others)
  { v with
    referenced := fun id => v.referenced id || db.webhookDeliveries.any fun d =>
      d.endpointId = id && lockedDelivery others d.id }

/-! ## Turns -/

/-- Whether a job waits for a statement. -/
def Job.inFlight : Job → Bool
  | .core c => c.inFlight
  | .query _ .ready => true
  | .query .. => false
  | .createWebhook _ (.done _) | .createWebhook _ .failed => false
  | .createWebhook .. => true
  | .deleteWebhook _ _ .ready => true
  | .deleteWebhook .. => false
  | .webauthn c => c.inFlight
  | .tick phase => !phase.isOver

/-- The job after something threw; that of `System` has its own way. -/
def Job.failed : Job → Job
  | .core c => .core c.crashed
  | .query q _ => .query q .failed
  | .createWebhook input _ => .createWebhook input .failed
  | .deleteWebhook appId id _ => .deleteWebhook appId id .failed
  | .webauthn c => .webauthn c.failed
  | .tick _ => .tick .failed

/-- The next statement of a job. -/
def Job.statement (S : Services) (d : Database) (others : List Job) (w : ServiceWorld) :
    Job → Option (Turn Database Job)
  | .core c => (c.statement S.env (viewOf d.core (coreCalls others)) w.toWorld).map fun t =>
      ⟨{ d with core := t.store }, .core t.call, t.spawned.map .core⟩
  | .query q .ready => some ⟨d, .query q (.done (q.answer d.core w.rank)), []⟩
  | .query .. => none
  | .createWebhook input phase =>
    (createWebhookEndpoint S.webhooks (webhookView d.core others) w.toWebhookWorld input phase).map
      fun r => ⟨{ d with core := d.core.commitOption r.2 }, .createWebhook input r.1, []⟩
  | .deleteWebhook appId id .ready =>
    (deleteWebhookEndpoint (webhookView d.core others) appId id).map fun r =>
      ⟨{ d with core := d.core.commitOption r.2 }, .deleteWebhook appId id (.done r.1), []⟩
  | .deleteWebhook .. => none
  | .webauthn c =>
    (c.statement S.webauthn d.webauthn (lockedChallenge others) w.toWorld).map fun r =>
      ⟨{ d with webauthn := d.webauthn.commitOption r.2 }, .webauthn r.1, []⟩
  | .tick phase =>
    (webhookTick S.worker (lockedDelivery others) w.toWorkerWorld d.core phase).map fun r =>
      ⟨{ d with core := r.2 }, .tick r.1, []⟩

/-- How a job's turn goes; see `Move`. -/
inductive ServiceMove where
  | statement (w : ServiceWorld)
  | error
  | lost (w : ServiceWorld)
  | crash

/-- What the outside answers, if the statement takes effect. -/
def ServiceMove.world? : ServiceMove → Option ServiceWorld
  | .statement w => some w
  | .lost w => some w
  | .error => none
  | .crash => none

/-- Where an exception from the statement leads. -/
def Job.thrown : Job → Job
  | .core c => .core c.thrown
  | job => job.failed

def Job.turn (S : Services) (d : Database) (others : List Job) (job : Job) :
    ServiceMove → Option (Turn Database Job)
  | .statement w => job.statement S d others w
  | .error => if job.inFlight then some ⟨d, job.thrown, []⟩ else none
  | .lost w => (job.statement S d others w).map fun t => ⟨t.store, job.thrown, []⟩
  | .crash => if job.inFlight then some ⟨d, job.failed, []⟩ else none

def Operation.job (S : Services) (d : Database) : Operation → Option Job
  | .core r => (accept S.env d.core r).map .core
  | .query q => some (.query q .ready)
  | .createWebhook input => some (.createWebhook input .validate)
  | .deleteWebhook appId id => some (.deleteWebhook appId id .ready)
  | .webauthn r => some (.webauthn r.call)
  | .tick => some (.tick .select)

def deployment (S : Services) : Program Database Job Operation ServiceMove where
  accept d r := r.job S d
  turn d others job m := job.turn S d others m

abbrev Deployment := Pool Database Job

/-- A run of the deployment from its first start. -/
abbrev DeploymentRun (S : Services) := Run (Pool.step (deployment S)) ⟨.empty, []⟩

end Syrotp
