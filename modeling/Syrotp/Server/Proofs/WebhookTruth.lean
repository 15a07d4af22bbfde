import Syrotp.Server.Proofs.Refinement

/-!
# Webhooks tell the truth

Whatever a worker posts in a run of the deployment is the stored payload of an event whose
verification has the status it reports, for an endpoint of the same app that was enabled and
subscribed to events of its type, at the URL and under the secret of that endpoint. The rows are
the server's, so what is said of them is proved there and carried over.
-/

namespace Syrotp

/-! ## Payloads -/

/-- The payload of every event describes the verification as it is. -/
def Db.Truthful (db : Db) : Prop :=
  ∀ ev ∈ db.webhookEvents, ∃ v ∈ db.verifications, ev.verificationId = some v.id ∧
    v.status = ev.eventType.terminal ∧ ev.appId = v.appId ∧
    ev.payload = ⟨ev.id, ev.eventType, ev.createdAt, buildVerificationEventData v ev.eventType⟩

section Commit

variable {env : Env} {db : Db} {w : Write}

/-- A verification that has a terminal status stays as it is. -/
theorem terminal_commit (I : Db.Inv env db) (J : Justified env db w) {v : Verification}
    (hv : v ∈ db.verifications) (terminal : v.status ≠ .pending) :
    v ∈ (db.commit w).verifications := by
  rcases verification_successor w hv with kept | ⟨row, event, deliveries, inbound, rfl, _, same⟩
  · exact kept
  · obtain ⟨x, hx, _, _, _, _, pending, resolves, _⟩ := J.resolve
    have : v = x := I.verification_ext hv hx (same.symm.trans resolves.id)
    rw [this] at terminal
    exact absurd pending terminal

theorem VerificationEventType.terminal_ne (t : VerificationEventType) : t.terminal ≠ .pending := by
  cases t <;> simp [VerificationEventType.terminal]

theorem Db.Truthful.commit (T : db.Truthful) (I : Db.Inv env db) (J : Justified env db w) :
    (db.commit w).Truthful := by
  have kept : ∀ ev ∈ db.webhookEvents, ∃ v ∈ (db.commit w).verifications,
      ev.verificationId = some v.id ∧ v.status = ev.eventType.terminal ∧ ev.appId = v.appId ∧
      ev.payload =
        ⟨ev.id, ev.eventType, ev.createdAt, buildVerificationEventData v ev.eventType⟩ := by
    intro ev hev
    obtain ⟨v, hv, names, status, rest⟩ := T ev hev
    refine ⟨v, terminal_commit I J hv ?_, names, status, rest⟩
    rw [status]
    exact ev.eventType.terminal_ne
  cases w with
  | resolveVerification row event deliveries inbound =>
    intro ev hev
    rcases List.mem_append.mp hev with old | new
    · exact kept ev old
    · rw [List.mem_singleton.mp new]
      obtain ⟨v, hv, eventType, eventId, t, ds, _, resolves, _, _, rfl, _⟩ := J.resolve
      have there : row ∈ (updateWhere (fun x => x.id = row.id) (fun _ => row)
          db.verifications) := mem_updateWhere_of_pos hv (by simp [resolves.id])
      exact ⟨row, there, rfl, resolves.status, rfl, rfl⟩
  | _ => exact kept

end Commit

variable {env : Env}

theorem ServerRun.truthful {log : List (Server × Act Request Move)} {q : Server}
    (run : ServerRun env log q) : q.store.Truthful := by
  induction run with
  | start => exact fun _ h => nomatch h
  | next run hs ih =>
    rcases Server.step_write (ServerRun.good run) hs with
      same | ⟨_, _, _, x, _, _, written, justified, _⟩
    · rw [same]
      exact ih
    · rw [written]
      exact ih.commit (ServerRun.good run).inv justified

/-! ## Events and deliveries -/

/-- Events stay. -/
theorem events_commit (db : Db) (w : Write) : db.webhookEvents ⊆ (db.commit w).webhookEvents := by
  cases w with
  | resolveVerification row event deliveries inbound => exact List.subset_append_left _ _
  | _ => exact List.Subset.refl _

theorem ServerRun.events_pairwise {log : List (Server × Act Request Move)} {q : Server}
    (run : ServerRun env log q) :
    (moments log q).Pairwise fun a b => a.store.webhookEvents ⊆ b.store.webhookEvents := by
  rw [Run.pairwise_moments (R := fun a b : Server =>
    a.store.webhookEvents ⊆ b.store.webhookEvents) (fun _ => List.Subset.refl _)
    (fun _ _ _ => List.Subset.trans) run]
  intro e he v hv
  obtain ⟨_, _, _, _, before, _, _⟩ := run.split he
  rcases Server.step_write (ServerRun.good before) hv with
    same | ⟨_, _, _, x, _, _, written, _⟩
  · rw [same]
    exact List.Subset.refl _
  · rw [written]
    exact events_commit _ x

/-- A delivery has its event, and its endpoint was subscribed to it at some moment. -/
def Sent (states : List Db) (db : Db) (d : WebhookDelivery) : Prop :=
  ∃ ev ∈ db.webhookEvents, d.eventId = ev.id ∧ d.eventType = ev.eventType ∧
    ∃ s ∈ states, ∃ e ∈ s.webhookEndpoints, e.id = d.endpointId ∧
      subscribed ev.eventType ev.appId e = true

theorem Sent.mono {states states' : List Db} {db db' : Db} {d : WebhookDelivery}
    (h : Sent states db d) (more : states ⊆ states')
    (stays : db.webhookEvents ⊆ db'.webhookEvents) : Sent states' db' d := by
  obtain ⟨ev, hev, id, type, s, hs, rest⟩ := h
  exact ⟨ev, stays hev, id, type, s, more hs, rest⟩

/-- The rows at the moments of a run of the server. -/
def stores (log : List (Server × Act Request Move)) (q : Server) : List Db :=
  (moments log q).map (·.store)

/-- The deliveries that a step creates go to endpoints that its call has selected. -/
theorem Server.sent_step {p q : Server} {log : List (Server × Act Request Move)}
    {a : Act Request Move} (run : ServerRun env log p) (hs : p.step (server env) a = some q)
    {d : WebhookDelivery} (new : d ∈ q.store.webhookDeliveries)
    (old : d ∉ p.store.webhookDeliveries) : Sent (stores log p) q.store d := by
  rcases Server.step_write (ServerRun.good run) hs with
    same | ⟨i, m, c, x, rfl, hc, written, justified, _, origin⟩
  · exact absurd (same ▸ new) old
  · rw [written] at new ⊢
    cases x with
    | resolveVerification row event deliveries inbound =>
      rcases List.mem_append.mp new with before | here
      · exact absurd before old
      · obtain ⟨eventType, em, committing, hw⟩ := origin.resolution _ _ _ _ rfl
        have during := Call.emission_of_committing committing
        obtain ⟨eventId, t, ds, rfl, same⟩ := Emission.write?_eq_some hw
        injection same with _ hevent hdeliveries
        rw [hdeliveries] at here
        obtain ⟨pair, hpair, rfl⟩ := List.mem_map.mp here
        obtain ⟨s, _, _, logged, _, _, selected⟩ :=
          run.traced hc eventType row _ during eventId _ rfl
        have chosen : pair.2 ∈ subscribedEndpoints eventType row.appId s.store :=
          selected ▸ List.mem_map_of_mem hpair
        obtain ⟨e, he, names⟩ := List.mem_map.mp chosen
        obtain ⟨he, subscribes⟩ := List.mem_filter.mp he
        refine ⟨event, List.mem_append_right _ (List.mem_singleton_self _), ?_, ?_, s.store, ?_,
          e, he, names, ?_⟩
        · rw [hevent]
          rfl
        · rw [hevent]
          rfl
        · exact List.mem_map_of_mem (List.mem_append_left _ (List.mem_map_of_mem logged))
        · rw [hevent]
          exact subscribes
    | deleteEndpoint appId id => exact absurd (List.mem_filter.mp new).1 old
    | _ => exact absurd new old

theorem ServerRun.sent {log : List (Server × Act Request Move)} {q : Server}
    (run : ServerRun env log q) : ∀ d ∈ q.store.webhookDeliveries, Sent (stores log q) q.store d := by
  induction run with
  | start => exact fun _ h => nomatch h
  | @next log p q a run hs ih =>
    have more : stores log p ⊆ stores (log ++ [(p, a)]) q := by
      rw [stores, stores, moments_next, List.map_append]
      exact List.subset_append_left _ _
    have stays : p.store.webhookEvents ⊆ q.store.webhookEvents := by
      rcases Server.step_write (ServerRun.good run) hs with
        same | ⟨_, _, _, x, _, _, written, _⟩
      · rw [same]
        exact List.Subset.refl _
      · rw [written]
        exact events_commit _ x
    intro d hd
    by_cases old : d ∈ p.store.webhookDeliveries
    · exact (ih d old).mono more stays
    · exact (Server.sent_step run hs hd old).mono more (List.Subset.refl _)

/-! ## The same of the deployment -/

section Deployed

variable {S : Services} {log : List (Deployment × Act Operation ServiceMove)} {p : Deployment}

theorem DeploymentRun.truthful (run : DeploymentRun S log p) : p.store.core.Truthful := by
  obtain ⟨_, q, run', refines, _⟩ := deployment_refines_server run
  obtain ⟨rows, same, _⟩ := refines.store
  have truthful : q.store.Truthful := ServerRun.truthful run'
  rw [same] at truthful
  exact truthful

theorem DeploymentRun.events_pairwise (run : DeploymentRun S log p) :
    (moments log p).Pairwise fun a b =>
      a.store.core.webhookEvents ⊆ b.store.core.webhookEvents := by
  obtain ⟨_, _, run', _, shadowed, _⟩ := deployment_refines_server run
  refine shadowed.pairwise (fun _ => List.Subset.refl _) ?_ (ServerRun.events_pairwise run')
  intro a b a' b' before after stays
  obtain ⟨rows, same, _⟩ := before.store
  obtain ⟨rows', same', _⟩ := after.store
  rw [same, same'] at stays
  exact stays

theorem DeploymentRun.sent (run : DeploymentRun S log p) : ∀ d ∈ p.store.core.webhookDeliveries,
    Sent ((moments log p).map (·.store.core)) p.store.core d := by
  obtain ⟨log', q, run', refines, _, passed⟩ := deployment_refines_server run
  obtain ⟨rows, same, drawn⟩ := refines.store
  intro d hd
  have mem : d.drawn ∈ q.store.webhookDeliveries.map (·.drawn) := by
    rw [same, drawn]
    exact List.mem_map_of_mem hd
  obtain ⟨x, hx, alike⟩ := List.mem_map.mp mem
  simp only [WebhookDelivery.drawn, WebhookDelivery.key, Prod.mk.injEq] at alike
  obtain ⟨⟨_, endpoint, event⟩, type, _⟩ := alike
  obtain ⟨ev, hev, id, isType, s, hs, e, he, names, subscribes⟩ := ServerRun.sent run' x hx
  obtain ⟨u, hu, rfl⟩ := List.mem_map.mp hs
  obtain ⟨s, hs, rows', same', _⟩ := passed u hu
  rw [same] at hev
  rw [same'] at he
  exact ⟨ev, hev, event ▸ id, type ▸ isType, s.store.core, List.mem_map_of_mem hs, e, he,
    endpoint ▸ names, subscribes⟩

/-! ## Endpoints -/

/-- Any endpoint of a state that still has its id in the next is still there. -/
def EndpointsKept (db db' : Db) : Prop :=
  ∀ e ∈ db.webhookEndpoints, hasKey (·.id) e.id db'.webhookEndpoints = true →
    e ∈ db'.webhookEndpoints

theorem endpointsKept_commit {env : Env} {db : Db} (I : Db.Inv env db) (w : Write) :
    EndpointsKept db (db.commit w) := by
  intro e he key
  cases w with
  | insertEndpoint row => exact List.mem_append_left _ he
  | deleteEndpoint appId id =>
    obtain ⟨x, hx, same⟩ := hasKey_iff.mp key
    have old := (List.mem_filter.mp hx).1
    rw [← eq_of_key I.endpointIds old he same]
    exact hx
  | _ => exact he

theorem DeploymentRun.good (run : DeploymentRun S log p) :
    Pool.Good Job.tokens (Database.Inv S) (Job.Ok S) p := by
  have start : Pool.Good Job.tokens (Database.Inv S) (Job.Ok S) (⟨.empty, []⟩ : Deployment) :=
    ⟨.empty S, fun i c h => by simp at h, fun i j a b h => by simp at h⟩
  exact (deployment_discipline S).run start run

theorem DeploymentRun.endpoints_step {a : Act Operation ServiceMove} {q : Deployment}
    (run : DeploymentRun S log p) (hs : p.step (deployment S) a = some q) :
    EndpointsKept p.store.core q.store.core := by
  have good := run.good
  have kept := endpointsKept_commit good.inv.core
  cases a with
  | arrive r =>
    obtain ⟨_, _, rfl⟩ := Pool.step_arrive hs
    exact fun e he _ => he
  | turn i m =>
    obtain ⟨job, t, hi, ht, rfl⟩ := Pool.step_turn hs
    rcases core_or_aside job with ⟨c, rfl⟩ | other
    · obtain ⟨m', t', ht', rfl⟩ := core_turn ht
      have settled := settled_core (good.settled hi)
      rcases turn_write settled.inv settled.self ht' with same | ⟨x, written, _⟩
      · intro e he _
        show e ∈ t'.store.webhookEndpoints
        rw [same]
        exact he
      · intro e he
        show hasKey (·.id) e.id t'.store.webhookEndpoints = true → e ∈ t'.store.webhookEndpoints
        rw [written]
        exact kept x e he
    · cases aside_turn_maintained other ht with
      | unseen same =>
        obtain ⟨rows, same, _⟩ := same
        intro e he _
        show e ∈ t.store.core.webhookEndpoints
        rw [same]
        exact he
      | @wrote m x made written =>
        intro e he
        show hasKey (·.id) e.id t.store.core.webhookEndpoints = true →
          e ∈ t.store.core.webhookEndpoints
        rw [written]
        exact kept x e he

/-- An id of an endpoint that has been deleted is not drawn again. -/
def IdsSpent (states : List Deployment) : Prop :=
  ∀ (i j k : Nat) (a b c : Deployment), i ≤ j → j ≤ k → states[i]? = some a →
    states[j]? = some b → states[k]? = some c → ∀ e ∈ a.store.core.webhookEndpoints,
      hasKey (·.id) e.id c.store.core.webhookEndpoints = true →
        hasKey (·.id) e.id b.store.core.webhookEndpoints = true

theorem IdsSpent.through {step : Deployment → Act Operation ServiceMove → Option Deployment}
    {log₁ log₂ : List (Deployment × Act Operation ServiceMove)} {s t : Deployment}
    (h : IdsSpent (moments (log₁ ++ log₂) t)) (later : Run step s log₂ t) :
    IdsSpent (moments log₁ s) := by
  have early : ∀ {i : Nat} {a : Deployment}, (moments log₁ s)[i]? = some a →
      (moments (log₁ ++ log₂) t)[i]? = some a := by
    intro i a ha
    obtain ⟨more, all⟩ := later.moments_prefix log₁
    rw [← all, List.getElem?_append_left (List.getElem?_eq_some_iff.mp ha).1]
    exact ha
  intro i j k a b c ij jk ha hb hc
  exact h i j k a b c ij jk (early ha) (early hb) (early hc)

/-- While its id is there, an endpoint stays as it was created. -/
theorem DeploymentRun.endpoint_stays (run : DeploymentRun S log p)
    {log' : List (Deployment × Act Operation ServiceMove)} {q : Deployment}
    (later : Run (Pool.step (deployment S)) p log' q) {e : WebhookEndpoint}
    (he : e ∈ p.store.core.webhookEndpoints)
    (key : ∀ s ∈ moments log' q, hasKey (·.id) e.id s.store.core.webhookEndpoints = true) :
    e ∈ q.store.core.webhookEndpoints := by
  induction later with
  | start => exact he
  | @next log' s u a before hs ih =>
    have now := ih fun x hx => key x (by rw [moments_next]; exact List.mem_append_left _ hx)
    exact DeploymentRun.endpoints_step (run.trans before) hs e now (key u (by simp [moments]))

/-- Where ids are not drawn again, the endpoints of any two moments with the same id are the
same. -/
theorem DeploymentRun.endpoint_unique (run : DeploymentRun S log p)
    (spent : IdsSpent (moments log p)) {s : Deployment} (hs : s ∈ moments log p)
    {e e' : WebhookEndpoint} (he : e ∈ s.store.core.webhookEndpoints)
    (he' : e' ∈ p.store.core.webhookEndpoints) (same : e.id = e'.id) : e = e' := by
  obtain ⟨log₁, log₂, rfl, before, later⟩ := run.through hs
  have place : ∀ {k x}, (moments log₂ p)[k]? = some x →
      (moments (log₁ ++ log₂) p)[log₁.length + k]? = some x := by
    intro k x hx
    rw [moments, List.map_append, List.append_assoc, List.getElem?_append_right (by simp)]
    simpa [moments] using hx
  have first : (moments log₂ p)[0]? = some s := later.moments_head
  have last : (moments log₂ p)[log₂.length]? = some p := by simp [moments]
  have key : hasKey (·.id) e.id p.store.core.webhookEndpoints = true :=
    hasKey_iff.mpr ⟨e', he', same.symm⟩
  have stays : e ∈ p.store.core.webhookEndpoints := by
    refine DeploymentRun.endpoint_stays before later he fun x hx => ?_
    obtain ⟨k, hk⟩ := List.mem_iff_getElem?.mp hx
    have bound : k < (moments log₂ p).length := (List.getElem?_eq_some_iff.mp hk).1
    have bound : k ≤ log₂.length := by
      simp only [moments, List.length_append, List.length_map, List.length_singleton] at bound
      omega
    exact spent _ _ _ s x p (by omega) (by omega) (place first) (place hk) (place last) e he key
  exact eq_of_key (DeploymentRun.inv run).core.endpointIds stays he' same

/-! ## Rows of a worker -/

/-- The row was joined from the tables at some state of the log. -/
def Joined (log : List (Deployment × Act Operation ServiceMove)) (row : DueRow) : Prop :=
  ∃ s ∈ log.map (·.1), ∃ d ∈ s.store.core.webhookDeliveries, dueRow s.store.core d = some row

theorem Joined.mono {row : DueRow} (h : Joined log row) (e : Deployment × Act Operation ServiceMove) :
    Joined (log ++ [e]) row := by
  obtain ⟨s, hs, rest⟩ := h
  exact ⟨s, by rw [List.map_append]; exact List.mem_append_left _ hs, rest⟩

/-- The rows of a tick were joined by its SELECT, and a request in flight was made from its row. -/
structure Claimed (S : Services) (log : List (Deployment × Act Operation ServiceMove))
    (phase : WorkerPhase) : Prop where
  rows : ∀ row ∈ phase.rows, Joined log row
  request : ∀ row request rest, phase = .fetch row request rest →
    ∃ now attempt, deliver S.worker now row attempt = .ok request

theorem Claimed.mono {phase : WorkerPhase} (h : Claimed S log phase)
    (e : Deployment × Act Operation ServiceMove) : Claimed S (log ++ [e]) phase :=
  ⟨fun row hrow => (h.rows row hrow).mono e, h.request⟩

/-- A request is in flight. -/
def WorkerPhase.isPosting : WorkerPhase → Bool
  | .fetch .. => true
  | _ => false

theorem Claimed.of_rows {phase : WorkerPhase} (idle : phase.isPosting = false)
    (rows : ∀ row ∈ phase.rows, Joined log row) : Claimed S log phase where
  rows := rows
  request := by
    rintro row request rest rfl
    exact nomatch idle

theorem Claimed.of_idle {phase : WorkerPhase} (idle : phase.rows = []) : Claimed S log phase := by
  refine .of_rows ?_ fun row hrow => ?_
  · cases phase with
    | fetch row request rest => exact nomatch idle
    | _ => rfl
  · rw [idle] at hrow
    exact absurd hrow List.not_mem_nil

theorem selectDue_joined {db : Db} {locked : Id → Bool} {w : WorkerWorld} {row : DueRow}
    (h : row ∈ selectDue db locked w) : ∃ d ∈ db.webhookDeliveries, dueRow db d = some row := by
  obtain ⟨d, due, joined⟩ := List.mem_filterMap.mp (List.mem_of_mem_take h)
  rw [dueDeliveries, List.mem_insertionSort, List.mem_filter] at due
  exact ⟨d, due.1, joined⟩

/-- What a step of a tick makes of its rows. -/
theorem Claimed.step {locked : Id → Bool} {w : WorkerWorld} {db' : Db}
    {phase phase' : WorkerPhase} {a : Act Operation ServiceMove} (h : Claimed S log phase)
    (step : webhookTick S.worker locked w p.store.core phase = some (phase', db')) :
    Claimed S (log ++ [(p, a)]) phase' := by
  have before := h.mono (p, a)
  cases webhookTick_step step with
  | idle none => exact .of_idle rfl
  | selected some =>
    refine .of_rows rfl fun row hrow => ?_
    obtain ⟨d, hd, joined⟩ := selectDue_joined hrow
    exact ⟨p, by simp, d, hd, joined⟩
  | leased => exact .of_rows rfl before.rows
  | refused => exact .of_rows rfl before.rows
  | @posted row rest request ok =>
    constructor
    · exact before.rows
    · intro row' request' rest' same
      obtain ⟨sameRow, sameRequest, _⟩ := WorkerPhase.fetch.inj same
      exact ⟨w.now, row.attemptCount + 1, sameRow ▸ sameRequest ▸ ok⟩
  | answered => exact .of_rows rfl before.rows
  | applied =>
    refine .of_rows rfl fun row hrow => ?_
    exact before.rows row (List.mem_cons_of_mem _ hrow)

theorem DeploymentRun.claimed (run : DeploymentRun S log p) {i : Nat} {phase : WorkerPhase}
    (hi : p.calls[i]? = some (.tick phase)) : Claimed S log phase := by
  refine Pool.call_history (K := fun log _ job => ∀ phase, job = Job.tick phase →
    Claimed S log phase) ?_ ?_ ?_ ?_ ?_ run i _ hi phase rfl
  · intro log q a i job _ h phase same
    exact (h phase same).mono _
  · intro i job hi
    exact nomatch hi
  · intro d r job accepted log i _ phase same
    rw [same] at accepted
    cases r with
    | tick =>
      obtain rfl := Job.tick.inj (Option.some.inj accepted)
      exact .of_idle rfl
    | core r =>
      obtain ⟨_, _, other⟩ := Option.map_eq_some_iff.mp accepted
      exact nomatch other
    | _ => exact nomatch accepted
  · intro log q i job m t run _ turn n hn
    rcases core_or_aside job with ⟨c, rfl⟩ | other
    · obtain ⟨_, t', _, rfl⟩ := core_turn turn
      obtain ⟨x, _, rfl⟩ := List.mem_map.mp hn
      exact fun _ _ _ _ same => nomatch same
    · rw [(aside_turn_call other turn).2] at hn
      exact absurd hn List.not_mem_nil
  · intro log q i job m t run _ turn h phase same
    have failing : ∀ {phase : WorkerPhase}, job.failed = .tick phase → Claimed S (log ++
        [(q, .turn i m)]) phase := by
      intro phase same
      cases job with
      | tick phase' =>
        obtain rfl := Job.tick.inj same
        exact .of_idle rfl
      | _ => exact nomatch same
    have throwing : ∀ {phase : WorkerPhase}, job.thrown = .tick phase → Claimed S (log ++
        [(q, .turn i m)]) phase := by
      intro phase same
      cases job with
      | core c => exact nomatch same
      | _ => exact failing same
    cases m with
    | statement w =>
      cases job with
      | tick before =>
        obtain ⟨⟨phase', db'⟩, hr, rfl⟩ := Option.map_eq_some_iff.mp turn
        obtain rfl := Job.tick.inj same
        exact (h before rfl).step hr
      | query q x =>
        cases x with
        | ready =>
          obtain rfl := Option.some.inj turn
          exact nomatch same
        | _ => exact nomatch turn
      | deleteWebhook appId id x =>
        cases x with
        | ready =>
          obtain ⟨_, _, rfl⟩ := Option.map_eq_some_iff.mp turn
          exact nomatch same
        | _ => exact nomatch turn
      | _ =>
        obtain ⟨_, _, rfl⟩ := Option.map_eq_some_iff.mp turn
        exact nomatch same
    | error =>
      obtain rfl := Option.some.inj (Option.ite_none_right_eq_some.mp turn).2
      exact throwing same
    | lost w =>
      obtain ⟨_, _, rfl⟩ := Option.map_eq_some_iff.mp turn
      exact throwing same
    | crash =>
      obtain rfl := Option.some.inj (Option.ite_none_right_eq_some.mp turn).2
      exact failing same

end Deployed

/-! ## The request -/

/-- What a request says, checked against the tables. -/
structure Genuine (S : Services) (db : Db) (endpoint : WebhookEndpoint)
    (request : DeliveryRequest) (ev : WebhookEvent) (v : Verification) : Prop where
  event : ev ∈ db.webhookEvents
  verification : v ∈ db.verifications
  /-- The body is the envelope of the event, with the verification as it is. -/
  body : request.body =
    ⟨ev.id, ev.eventType, ev.createdAt, buildVerificationEventData v ev.eventType⟩
  type : request.event = ev.eventType
  status : v.status = ev.eventType.terminal
  app : endpoint.appId = v.appId
  enabled : endpoint.enabled = true
  subscribes : ev.eventType ∈ endpoint.eventTypes
  url : request.url = endpoint.url
  signature : ∃ secret, S.worker.unwrap endpoint.secretCiphertext endpoint.id = some secret ∧
    request.signature = S.worker.signDeliveryBody secret request.timestampSec request.body

theorem dueRow_some {db : Db} {d : WebhookDelivery} {row : DueRow} (h : dueRow db d = some row) :
    ∃ e ∈ db.webhookEndpoints, ∃ ev ∈ db.webhookEvents, e.id = d.endpointId ∧
      ev.id = d.eventId ∧ row = ⟨d.id, d.endpointId, d.eventId, d.eventType, d.attemptCount, e.url,
        e.enabled, e.secretCiphertext, ev.payload⟩ := by
  unfold dueRow at h
  split at h
  · next e ev he hev =>
    have named := List.find?_some he
    have named' := List.find?_some hev
    simp only [decide_eq_true_eq] at named named'
    exact ⟨e, List.mem_of_find?_eq_some he, ev, List.mem_of_find?_eq_some hev, named, named',
      (Option.some.inj h).symm⟩
  · exact nomatch h

theorem deliver_request {W : WebhookPlatform} {now : Time} {row : DueRow} {attempt : Nat}
    {request : DeliveryRequest} (h : deliver W now row attempt = .ok request) :
    ∃ secret, W.unwrap row.secretCiphertext row.endpointId = some secret ∧
      request.url = row.url ∧ request.event = row.eventType ∧ request.body = row.payload ∧
      request.signature = W.signDeliveryBody secret request.timestampSec row.payload := by
  unfold deliver at h
  split at h
  · exact nomatch h
  · split at h
    · exact nomatch h
    · split at h
      · exact nomatch h
      · next secret unwrapped =>
        obtain rfl := Except.ok.inj h
        exact ⟨secret, unwrapped, rfl, rfl, rfl, rfl⟩

/-- In every run of the deployment in which no endpoint id is drawn a second time, every request that
a worker has in flight is genuine. -/
theorem webhooks_tell_the_truth {S : Services}
    {log : List (Deployment × Act Operation ServiceMove)} {p : Deployment}
    (run : DeploymentRun S log p) (spent : IdsSpent (moments log p)) {i : Nat} {row : DueRow}
    {request : DeliveryRequest} {rest : List DueRow}
    (posting : p.calls[i]? = some (.tick (.fetch row request rest))) :
    ∃ s ∈ moments log p, ∃ endpoint ∈ s.store.core.webhookEndpoints, ∃ ev v,
      Genuine S p.store.core endpoint request ev v := by
  have claimed := run.claimed posting
  obtain ⟨now, attempt, delivered⟩ := claimed.request row request rest rfl
  obtain ⟨s, hs, d, hd, joined⟩ := claimed.rows row (List.mem_cons_self ..)
  have hs : s ∈ moments log p := List.mem_append_left _ hs
  obtain ⟨log₁, log₂, rfl, before, later⟩ := run.through hs
  obtain ⟨e, he, ev, hev, endpointOf, eventOf, rfl⟩ := dueRow_some joined
  -- the endpoint that the delivery was created for is the one that was joined
  obtain ⟨ev', hev', id, type, db, hdb, e', he', names, subscribes⟩ :=
    DeploymentRun.sent before d hd
  obtain ⟨u, hu, rfl⟩ := List.mem_map.mp hdb
  have inv := DeploymentRun.inv before
  obtain rfl : e' = e := DeploymentRun.endpoint_unique before (spent.through later) hu he' he
    (names.trans endpointOf.symm)
  obtain rfl : ev = ev' := eq_of_key inv.core.eventIds hev hev' (eventOf.trans id)
  -- its event is still there, and tells of the verification as it is now
  have stays : ev ∈ p.store.core.webhookEvents :=
    pairwise_last (R := fun a b : Deployment =>
      a.store.core.webhookEvents ⊆ b.store.core.webhookEvents) (fun _ => List.Subset.refl _)
      (DeploymentRun.events_pairwise run) hs hev
  obtain ⟨v, hv, _, status, app, payload⟩ := run.truthful ev stays
  obtain ⟨secret, unwrapped, url, isType, body, signature⟩ := deliver_request delivered
  simp only [subscribed, decide_eq_true_eq] at subscribes
  obtain ⟨ofApp, enabled, subscribes⟩ := subscribes
  refine ⟨s, hs, e', he, ev, v, ?_⟩
  constructor
  · exact stays
  · exact hv
  · rw [body]
    exact payload
  · rw [isType]
    exact type
  · exact status
  · exact ofApp.trans app
  · exact enabled
  · exact subscribes
  · exact url
  · refine ⟨secret, ?_, ?_⟩
    · rw [endpointOf]
      exact unwrapped
    · rw [body]
      exact signature

/-- Ids that stay are not drawn again. -/
theorem IdsSpent.of_pairwise {states : List Deployment}
    (stays : states.Pairwise fun a b => ∀ e ∈ a.store.core.webhookEndpoints,
      hasKey (·.id) e.id b.store.core.webhookEndpoints = true) : IdsSpent states := by
  intro i j k a b c ij jk ha hb hc e he _
  rcases Nat.lt_or_eq_of_le ij with before | rfl
  · obtain ⟨hi, rfl⟩ := List.getElem?_eq_some_iff.mp ha
    obtain ⟨hj, rfl⟩ := List.getElem?_eq_some_iff.mp hb
    exact List.pairwise_iff_getElem.mp stays i j hi hj before e he
  · obtain rfl : a = b := Option.some.inj (ha.symm.trans hb)
    exact hasKey_iff.mpr ⟨e, he, rfl⟩

/-- The request that the worker of the script has in flight. -/
theorem webhooks_tell_the_truth_script : ∃ log p s request endpoint ev v,
    DeploymentRun Script.openServices log p ∧ s ∈ moments log p ∧
      endpoint ∈ s.store.core.webhookEndpoints ∧
      Genuine Script.openServices p.store.core endpoint request ev v ∧ v.status = .verified := by
  obtain ⟨log, p, run, verified, _, posting, stays⟩ := Script.posted
  obtain ⟨request, hr⟩ := Option.isSome_iff_exists.mp posting
  obtain ⟨job, hj, posts⟩ := Option.bind_eq_some_iff.mp hr
  unfold Script.request? at posts
  split at posts
  · next row request rest =>
    obtain ⟨s, hs, endpoint, there, ev, v, genuine⟩ :=
      webhooks_tell_the_truth run (.of_pairwise stays) hj
    refine ⟨log, p, s, request, endpoint, ev, v, run, hs, there, genuine, ?_⟩
    have : v.status ∈ p.store.core.verifications.map (·.status) :=
      List.mem_map_of_mem genuine.verification
    rw [verified] at this
    exact List.mem_singleton.mp this
  · exact nomatch posts

end Syrotp
