import Syrotp.Server.Proofs.Confinement
import Syrotp.Server.Proofs.Egress
import Syrotp.Server.Proofs.Lifecycle

/-!
# Tenants are isolated

Whatever operations an app runs, in any order, with any failures: what they answer and what becomes
of the app's rows depends on the app's rows only, and no other row changes. The pool of the app's
jobs is followed step by step by the same pool on the app's share of the database.
-/

namespace Syrotp

/-! ## Operations of an app -/

/-- The operation comes with the app's API key, or from a gateway of one of its receivers. -/
def Operation.AuthenticatedFor (A : Id) (d : Database) : Operation → Prop
  | .core (.startVerification r) => r.appId = A
  | .core (.inbound receiverId _) => d.core.Owns A receiverId
  | .core (.cancelVerification appId _) => appId = A
  | .core (.read (.getVerification appId _)) => appId = A
  | .core (.startBinding input) => input.appId = A
  | .core (.revokeBinding appId _) => appId = A
  | .core _ => False
  | .query q => q.appId = A
  | .createWebhook input => input.appId = A
  | .deleteWebhook appId _ => appId = A
  | .webauthn r => r.call.appId = A
  | .tick => False

/-- Which receivers are an app's can be seen from its rows. -/
theorem Operation.AuthenticatedFor.agree {A : Id} {d d' : Database} {op : Operation}
    (own : op.AuthenticatedFor A d) (agree : d.share A true = d'.share A true) :
    op.AuthenticatedFor A d' := by
  cases op with
  | core r =>
    cases r with
    | inbound receiverId body =>
      obtain ⟨x, hx, id, app⟩ := own
      have mine : x ∈ (d.share A true).core.receivers := List.mem_filter.mpr ⟨hx, (inShare app).1⟩
      rw [agree] at mine
      exact ⟨x, (List.mem_filter.mp mine).1, id, app⟩
    | read r => cases r <;> exact own
    | _ => exact own
  | _ => exact own

/-- What becomes of a database on which nothing is in flight. -/
def serve (S : Services) (d : Database) (acts : List (Act Operation ServiceMove)) :
    Option Deployment :=
  (exec (Pool.step (deployment S)) ⟨d, []⟩ acts).map (·.2)

section

variable {S : Services} {A : Id} {d : Database}

/-- An inbound request finds the app's receiver among the app's. -/
theorem job_share (T : d.core.Tenancy) {op : Operation} (own : op.AuthenticatedFor A d) :
    op.job S d = op.job S (d.share A true) := by
  cases op with
  | core r =>
    cases r with
    | inbound receiverId body =>
      have found : (d.share A true).core.receivers.find?
          (fun r => r.id = receiverId ∧ r.enabled = true) =
            d.core.receivers.find? fun r => r.id = receiverId ∧ r.enabled = true := by
        refine find?_part fun r hr hit => (inShare ?_).1
        exact T.owner ⟨r, hr, (of_decide_eq_true hit).1, rfl⟩ own
      simp only [Operation.job, accept, found]
    | _ => rfl
  | _ => rfl

theorem toInput_appId {env : Env} {r : StartRequest} {input : StartVerificationInput}
    (h : r.toInput env = .ok input) : input.appId = r.appId := by
  unfold StartRequest.toInput at h
  split at h
  · exact nomatch h
  · split at h
    · exact nomatch h
    · obtain rfl := Except.ok.inj h
      rfl

theorem job_admitted {op : Operation} (own : op.AuthenticatedFor A d) {job : Job}
    (h : op.job S d = some job) : job.Scoped A d := by
  cases op with
  | core r =>
    obtain ⟨c, hc, rfl⟩ := Option.map_eq_some_iff.mp h
    cases r with
    | startVerification r =>
      simp only [accept] at hc
      split at hc
      · obtain rfl := Option.some.inj hc
        trivial
      · next input accepted =>
        obtain rfl := Option.some.inj hc
        exact ⟨(toInput_appId accepted).trans own, trivial⟩
    | inbound receiverId body =>
      simp only [accept] at hc
      split at hc
      · cases hc
      · obtain rfl := Option.some.inj hc
        exact ⟨own, forall_of_none, trivial⟩
    | cancelVerification appId id => exact Option.some.inj hc ▸ own
    | read r =>
      obtain rfl := Option.some.inj hc
      cases r with
      | getVerification appId id => exact ⟨id, congrArg (Read.getVerification · id) own⟩
      | _ => exact own.elim
    | startBinding input =>
      obtain rfl := Option.some.inj hc
      unfold startBindingEntry
      split
      · exact own
      · exact own
    | revokeBinding appId id => exact Option.some.inj hc ▸ own
    | maintain m => exact own.elim
  | query q => exact Option.some.inj h ▸ own
  | createWebhook input => exact Option.some.inj h ▸ ⟨own, trivial⟩
  | deleteWebhook appId id => exact Option.some.inj h ▸ own
  | webauthn r =>
    obtain rfl := Option.some.inj h
    cases r <;>
      exact ⟨own, fun id hid => absurd hid List.not_mem_nil, by rintro _ _ _ ⟨⟩⟩
  | tick => exact own.elim

/-! ## One run on the share -/

/-- A pool that the app's operations have led to, from a database on which nothing was in flight. -/
structure Within (S : Services) (A : Id) (d : Database) (p : Deployment) : Prop where
  good : Pool.Good Job.tokens (Database.Inv S) (Job.Ok S) p
  foreign : p.store.share A false = d.share A false
  receivers : p.store.core.receivers = d.core.receivers
  jobs : ∀ job ∈ p.calls, job.Scoped A p.store

theorem Within.start (I : d.Inv S) : Within S A d ⟨d, []⟩ where
  good := ⟨I, fun i c h => by simp at h, fun i j a b h => by simp at h⟩
  foreign := rfl
  receivers := rfl
  jobs := fun job hj => absurd hj List.not_mem_nil

/-- An operation of the app arrives, or a job takes a turn whose ids are not those of other rows. -/
def Act.Of (A : Id) (d : Database) : Act Operation ServiceMove → Prop
  | .arrive op => op.AuthenticatedFor A d
  | .turn _ m => ∀ w, m.world? = some w → w.Fresh (d.share A false)

variable {p q : Deployment} {a : Act Operation ServiceMove}

theorem Within.authenticated (h : Within S A d p) {op : Operation}
    (own : op.AuthenticatedFor A d) : op.AuthenticatedFor A p.store := by
  cases op with
  | core r =>
    cases r with
    | inbound receiverId body =>
      obtain ⟨x, hx, hit⟩ := own
      exact ⟨x, h.receivers ▸ hx, hit⟩
    | read r => cases r <;> exact own
    | _ => exact own
  | _ => exact own

/-- On the app's share a step goes as on the whole database. -/
theorem Within.follows (h : Within S A d p) (of : a.Of A d) :
    (p.step (deployment S) a).map (Pool.mapStore (Database.share · A true)) =
      (p.mapStore (Database.share · A true)).step (deployment S) a := by
  refine Pool.step_mapStore ?_ ?_
  · rintro op rfl
    exact job_share h.good.inv.tenancy (h.authenticated of)
  · rintro i m job rfl hc
    have theirs : ∀ o ∈ p.others i, o.Scoped A p.store := by
      intro o ho
      obtain ⟨j, _, hj⟩ := Pool.mem_others.mp ho
      exact h.jobs o (List.mem_of_getElem? hj)
    exact turn_local h.good.inv (h.good.ok i job hc) (h.jobs job (List.mem_of_getElem? hc)) theirs
      fun w hw => h.foreign ▸ of w hw

theorem Within.step (h : Within S A d p) (of : a.Of A d)
    (hs : p.step (deployment S) a = some q) : Within S A d q := by
  have good := (deployment_discipline S).step h.good hs
  cases a with
  | arrive op =>
    obtain ⟨job, hj, rfl⟩ := Pool.step_arrive hs
    refine ⟨good, h.foreign, h.receivers, ?_⟩
    intro x hx
    rcases List.mem_append.mp hx with old | new
    · exact h.jobs x old
    · obtain rfl := List.mem_singleton.mp new
      exact job_admitted (h.authenticated of) hj
  | turn i m =>
    obtain ⟨job, t, hc, ht, rfl⟩ := Pool.step_turn hs
    have theirs : ∀ o ∈ p.others i, o.Scoped A p.store := by
      intro o ho
      obtain ⟨j, _, hj⟩ := Pool.mem_others.mp ho
      exact h.jobs o (List.mem_of_getElem? hj)
    have turn := turn_inside h.good.inv (h.good.ok i job hc) (h.jobs job (List.mem_of_getElem? hc))
      theirs (fun w hw => h.foreign ▸ of w hw) ht
    refine ⟨good, turn.foreign.trans h.foreign, turn.receivers.trans h.receivers, ?_⟩
    intro x hx
    obtain ⟨j, hj⟩ := List.mem_iff_getElem?.mp hx
    rcases Pool.turned_call hc hj with ⟨ne, hj⟩ | ⟨_, rfl⟩ | ⟨_, new⟩
    · have other : x ∈ p.others i := Pool.mem_others.mpr ⟨j, ne, hj⟩
      exact turn.theirs x (.inr other) (theirs x other)
    · exact turn.call
    · exact turn.spawned x new

/-- A run of the app's operations on the whole database is one on the app's share. -/
theorem serve_share (I : d.Inv S) {acts : List (Act Operation ServiceMove)}
    (of : ∀ a ∈ acts, a.Of A d) :
    (serve S d acts).map (Pool.mapStore (Database.share · A true)) = serve S (d.share A true) acts ∧
      ∀ q, serve S d acts = some q → Within S A d q := by
  have followed := exec_follows
    (fun p (h : Within S A d p) a (ha : a ∈ acts) => h.follows (of a ha))
    (fun p h a ha q hs => h.step (of a ha) hs)
    (Within.start (A := A) I)
  refine ⟨?_, ?_⟩
  · unfold serve
    rw [Option.map_map]
    exact followed.1
  · intro q hq
    obtain ⟨r, hr, rfl⟩ := Option.map_eq_some_iff.mp hq
    exact followed.2 r hr

end

/-! ## Isolation -/

/-- On two reachable databases with the same rows of an app, its operations go the same way: the
same steps are possible, every call answers the same, and the app's rows are the same afterwards.
No other row has changed. -/
theorem tenant_isolation {S : Services} {A : Id}
    {log₁ log₂ : List (Deployment × Act Operation ServiceMove)} {p₁ p₂ : Deployment}
    (run₁ : DeploymentRun S log₁ p₁) (run₂ : DeploymentRun S log₂ p₂)
    (agree : p₁.store.share A true = p₂.store.share A true)
    {acts : List (Act Operation ServiceMove)}
    (authenticated : ∀ op, .arrive op ∈ acts → op.AuthenticatedFor A p₁.store)
    (fresh : ∀ i m w, .turn i m ∈ acts → m.world? = some w →
      w.Fresh (p₁.store.share A false) ∧ w.Fresh (p₂.store.share A false)) :
    (serve S p₁.store acts).map (fun q => (q.calls, q.store.share A true)) =
        (serve S p₂.store acts).map (fun q => (q.calls, q.store.share A true)) ∧
      (∀ q, serve S p₁.store acts = some q → q.store.share A false = p₁.store.share A false) ∧
      ∀ q, serve S p₂.store acts = some q → q.store.share A false = p₂.store.share A false := by
  have of₁ : ∀ a ∈ acts, a.Of A p₁.store := by
    intro a ha
    cases a with
    | arrive op => exact authenticated op ha
    | turn i m => exact fun w hw => (fresh i m w ha hw).1
  have of₂ : ∀ a ∈ acts, a.Of A p₂.store := by
    intro a ha
    cases a with
    | arrive op => exact (authenticated op ha).agree agree
    | turn i m => exact fun w hw => (fresh i m w ha hw).2
  obtain ⟨seen₁, within₁⟩ := serve_share run₁.inv of₁
  obtain ⟨seen₂, within₂⟩ := serve_share run₂.inv of₂
  refine ⟨?_, fun q hq => (within₁ q hq).foreign, fun q hq => (within₂ q hq).foreign⟩
  have view : ∀ d, (serve S d acts).map (fun q => (q.calls, q.store.share A true)) =
      ((serve S d acts).map (Pool.mapStore (Database.share · A true))).map
        fun q => (q.calls, q.store) := by
    intro d
    rw [Option.map_map]
    rfl
  rw [view, view, seen₁, seen₂, agree]

/-- ULIDs grow with time, so one drawn later than all rows is none of theirs. -/
def Db.below (db : Db) (n : Nat) : Bool :=
  db.verifications.all (·.id.ulid < n) && db.phoneBindings.all (·.id.ulid < n) &&
    db.inboundSms.all (·.id.ulid < n) && db.webhookEndpoints.all (·.id.ulid < n) &&
    db.webhookEvents.all (·.id.ulid < n) && db.webhookDeliveries.all (·.id.ulid < n) &&
    db.webhookDeliveries.all (·.endpointId.ulid < n)

def WebauthnDb.below (db : WebauthnDb) (n : Nat) : Bool :=
  db.credentials.all (·.id.ulid < n) && db.challenges.all (·.id.ulid < n)

theorem hasKey_below {ρ : Type*} {column : ρ → Id} {t : List ρ} {n ulid : Nat}
    (below : t.all (fun r => decide ((column r).ulid < n)) = true) (above : n ≤ ulid)
    (kind : IdKind) : hasKey column (newId kind ulid) t = false := by
  rw [hasKey_eq_false]
  intro r hr same
  have old := of_decide_eq_true (List.all_eq_true.mp below r hr)
  rw [same] at old
  exact absurd old (Nat.not_lt.mpr above)

theorem ServiceWorld.fresh_of_below {w : ServiceWorld} {d : Database} {n : Nat}
    (above : ∀ k, n ≤ w.ulid k) (core : d.core.below n = true)
    (webauthn : d.webauthn.below n = true) : w.Fresh d := by
  simp only [Db.below, WebauthnDb.below, Bool.and_eq_true] at core webauthn
  obtain ⟨⟨⟨⟨⟨⟨verifications, bindings⟩, inbound⟩, endpoints⟩, events⟩, deliveries⟩, referenced⟩ :=
    core
  constructor
  · exact ⟨fun k => hasKey_below verifications (above k) _,
      fun k => hasKey_below bindings (above k) _, fun k => hasKey_below inbound (above k) _,
      fun k => hasKey_below endpoints (above k) _, fun k => hasKey_below events (above k) _,
      fun k => hasKey_below deliveries (above k) _, fun k => hasKey_below referenced (above k) _⟩
  · exact ⟨fun k => hasKey_below webauthn.1 (above k) _,
      fun k => hasKey_below webauthn.2 (above k) _⟩

namespace Script

/-- No one uses WebAuthn here. -/
def noWebauthn : Webauthn where
  config := ⟨false, none, none, [], 300, challengeTtl_default⟩
  library :=
    { generateRegistrationOptions := fun _ _ _ _ _ _ => ⟨[], []⟩
      verifyRegistrationResponse := fun _ _ => none
      generateAuthenticationOptions := fun _ _ _ => ⟨[], []⟩
      verifyAuthenticationResponse := fun _ _ _ => none
      hashCredentialId := id }

def services : Services := ⟨.ascii, WorkerScript.service, WorkerScript.guardedPlatform, noWebauthn⟩

def serviceWorld (n : Nat) : ServiceWorld :=
  ⟨⟨world n, WorkerScript.dnsAt false, fun _ => 0⟩, n, .ok 200⟩

/-- `n` turns of the job at position `i` without a failure. -/
def jobTurns (i n : Nat) (w : ServiceWorld) : List (Act Operation ServiceMove) :=
  List.replicate n (.turn i (.statement w))

/-- The app registers its receiver. -/
def alone : List (Act Operation ServiceMove) :=
  [.arrive (.core (.maintain (.putReceiver (receiverRow 1))))] ++ jobTurns 0 1 (serviceWorld 500)

def neighbour : Id := newId .app 2

/-- Another app is there, too, and a binding of the same phone waits for the same nonce. -/
def shared : List (Act Operation ServiceMove) :=
  alone ++
  [.arrive (.core (.maintain (.putReceiver { receiverRow 2 with appId := neighbour })))] ++
  jobTurns 1 1 (serviceWorld 510) ++
  [.arrive (.core (.startBinding ⟨neighbour, newId .receiver 2, phone⟩))] ++
  jobTurns 2 3 (serviceWorld 520)

/-- The app binds the phone, starts a verification and receives its message, with an endpoint
created on the way. -/
def visit : List (Act Operation ServiceMove) :=
  [.arrive (.core (.startBinding ⟨app, receiver, phone⟩))] ++ jobTurns 0 3 (serviceWorld 1010) ++
  [.arrive (.core (.inbound receiver bindMessage))] ++ jobTurns 1 3 (serviceWorld 1020) ++
  [.arrive (.createWebhook ⟨app, WorkerScript.endpoint.url, [.verified]⟩)] ++
  jobTurns 2 3 (serviceWorld 1025) ++
  [.arrive (.core (.startVerification start))] ++ jobTurns 3 6 (serviceWorld 1030) ++
  [.arrive (.core (.inbound receiver verifyMessage))] ++ jobTurns 4 8 (serviceWorld 1050)

def deployed (acts : List (Act Operation ServiceMove)) :
    Option (List (Deployment × Act Operation ServiceMove) × Deployment) :=
  exec (Pool.step (deployment services)) ⟨.empty, []⟩ acts

theorem deployed_run {acts : List (Act Operation ServiceMove)}
    (h : (deployed acts).isSome = true) :
    DeploymentRun services ((deployed acts).get h).1 ((deployed acts).get h).2 :=
  run_of_exec (Option.some_get h).symm

theorem alone_runs : (deployed alone).isSome = true := by decide +kernel

theorem shared_runs : (deployed shared).isSome = true := by decide +kernel

/-- Where the two set-ups lead. -/
def aloneDb : Database := ((deployed alone).get alone_runs).2.store

def sharedDb : Database := ((deployed shared).get shared_runs).2.store

theorem visit_runs : (serve services aloneDb visit).isSome = true := by decide +kernel

theorem visit_own : ∀ op, .arrive op ∈ visit → op.AuthenticatedFor app aloneDb := by
  have mine : aloneDb.core.Owns app receiver := by decide +kernel
  intro op h
  simp only [visit, jobTurns, List.mem_append, List.mem_singleton, List.mem_replicate, reduceCtorEq,
    and_false, or_false, Act.arrive.injEq] at h
  rcases h with (((rfl | rfl) | rfl) | rfl) | rfl
  · rfl
  · exact mine
  · rfl
  · rfl
  · exact mine

theorem visit_fresh : ∀ i m w, .turn i m ∈ visit → m.world? = some w →
    w.Fresh (aloneDb.share app false) ∧ w.Fresh (sharedDb.share app false) := by
  have late : ∀ n, 1000 ≤ n → (serviceWorld n).Fresh (aloneDb.share app false) ∧
      (serviceWorld n).Fresh (sharedDb.share app false) := by
    intro n above
    have drawn : ∀ k, 1000 ≤ (serviceWorld n).ulid k :=
      fun k => Nat.le_trans above (Nat.le_add_right n k)
    exact ⟨ServiceWorld.fresh_of_below drawn (by decide +kernel) (by decide +kernel),
      ServiceWorld.fresh_of_below drawn (by decide +kernel) (by decide +kernel)⟩
  intro i m w h hw
  simp only [visit, jobTurns, List.mem_append, List.mem_singleton, List.mem_replicate, reduceCtorEq,
    false_or, or_false, Act.turn.injEq] at h
  rcases h with (((⟨_, _, rfl⟩ | ⟨_, _, rfl⟩) | ⟨_, _, rfl⟩) | ⟨_, _, rfl⟩) | ⟨_, _, rfl⟩
  all_goals
    obtain rfl := Option.some.inj hw
    exact late _ (by decide)

end Script

/-- Beside another app that waits for the same nonce from the same phone, the app's operations go
as they go alone, up to its verified row. -/
theorem tenant_isolation_script :
    (serve Script.services Script.aloneDb Script.visit).map
        (fun q => (q.calls, q.store.share Script.app true)) =
      (serve Script.services Script.sharedDb Script.visit).map
        (fun q => (q.calls, q.store.share Script.app true)) ∧
    Script.aloneDb.share Script.app false ≠ Script.sharedDb.share Script.app false ∧
    ∃ q, serve Script.services Script.aloneDb Script.visit = some q ∧
      q.store.share Script.app false = Script.aloneDb.share Script.app false ∧
      ∃ v ∈ (q.store.share Script.app true).core.verifications, v.status = .verified := by
  have agree : Script.aloneDb.share Script.app true = Script.sharedDb.share Script.app true := by
    decide +kernel
  obtain ⟨same, kept, _⟩ := tenant_isolation (Script.deployed_run Script.alone_runs)
    (Script.deployed_run Script.shared_runs) agree Script.visit_own Script.visit_fresh
  refine ⟨same, by decide +kernel, _, (Option.some_get Script.visit_runs).symm, ?_, ?_⟩
  · exact kept _ (Option.some_get Script.visit_runs).symm
  · decide +kernel

end Syrotp
