import Syrotp.Server.Proofs.Discipline

/-!
# The life of a verification

Every step of the server leaves a verification's status alone or takes it from `pending` to
`verified`, `expired` or `cancelled`, with exactly one event, whose deliveries are those of the
endpoints that its transaction selected.
-/

namespace Syrotp

variable {env : Env}

/-- A step of the server that touches the database is a turn that made one write. -/
theorem Server.step_write {p q : Server} {a : Act Request Move} (good : p.Good env)
    (hs : p.step (server env) a = some q) : q.store = p.store ∨
      ∃ i m c x, a = .turn i m ∧ p.calls[i]? = some c ∧ q.store = p.store.commit x ∧
        Justified env p.store x ∧ (∀ k ∈ x.tokens, k ∈ c.tokens) ∧
        Origin env p.store c (some x) := by
  cases a with
  | arrive r =>
    obtain ⟨_, _, rfl⟩ := Pool.step_arrive hs
    exact .inl rfl
  | turn i m =>
    obtain ⟨c, t, hc, ht, rfl⟩ := Pool.step_turn hs
    have settled := good.settled hc
    rcases turn_write settled.inv settled.self ht with same | ⟨x, h⟩
    · exact .inl same
    · exact .inr ⟨i, m, c, x, rfl, hc, h⟩

/-! ## Statuses -/

/-- What can become of a status. -/
def StatusStep (before after : VerificationStatus) : Prop :=
  after = before ∨ before = .pending ∧
    (after = .verified ∨ after = .expired ∨ after = .cancelled)

theorem StatusStep.trans {a b c : VerificationStatus} (h : StatusStep a b)
    (h' : StatusStep b c) : StatusStep a c := by
  rcases h with rfl | ⟨rfl, h⟩
  · exact h'
  · rcases h' with rfl | ⟨rfl, h'⟩
    · exact .inr ⟨rfl, h⟩
    · exact .inr ⟨rfl, h'⟩

/-- Every verification of `d` is in `d'`, with the fields a resolution keeps and a status that
its old one can become. -/
def Follows (d d' : Db) : Prop :=
  ∀ v ∈ d.verifications, ∃ v' ∈ d'.verifications, v'.id = v.id ∧ StatusStep v.status v'.status ∧
    v'.appId = v.appId ∧ v'.phoneE164 = v.phoneE164 ∧ v'.receiverId = v.receiverId ∧
    v'.code = v.code ∧ v'.expiresAt = v.expiresAt

theorem Follows.refl (d : Db) : Follows d d :=
  fun v hv => ⟨v, hv, rfl, .inl rfl, rfl, rfl, rfl, rfl, rfl⟩

theorem Follows.trans {a b c : Db} (h : Follows a b) (h' : Follows b c) : Follows a c := by
  intro v hv
  obtain ⟨x, hx, id, status, app, phone, receiver, code, expires⟩ := h v hv
  obtain ⟨y, hy, id', status', app', phone', receiver', code', expires'⟩ := h' x hx
  exact ⟨y, hy, id'.trans id, status.trans status', app'.trans app, phone'.trans phone,
    receiver'.trans receiver, code'.trans code, expires'.trans expires⟩

theorem follows_commit {db : Db} {w : Write} (I : Db.Inv env db) (J : Justified env db w) :
    Follows db (db.commit w) := by
  intro v hv
  rcases verification_successor w hv with kept | ⟨row, event, deliveries, inbound, rfl, hrow, same⟩
  · exact ⟨v, kept, rfl, .inl rfl, rfl, rfl, rfl, rfl, rfl⟩
  · obtain ⟨x, hx, _, _, _, _, pending, resolves, _⟩ := J.resolve
    obtain rfl := I.verification_ext hv hx (same.symm.trans resolves.id)
    obtain ⟨_, app, phone, receiver, code, expires⟩ := resolves.same
    refine ⟨row, hrow, same, .inr ⟨pending, ?_⟩, app, phone, receiver, code, expires⟩
    cases resolves with
    | cancelled t => exact .inr (.inr rfl)
    | expired => exact .inr (.inl rfl)
    | verified i t before => exact .inl rfl

theorem Server.follows_step {p q : Server} {a : Act Request Move} (good : p.Good env)
    (hs : p.step (server env) a = some q) : Follows p.store q.store := by
  rcases step_write good hs with same | ⟨_, _, _, x, _, _, written, justified, _⟩
  · exact same ▸ .refl _
  · exact written ▸ follows_commit good.inv justified

theorem Server.good_run {p q : Server} {log : List (Server × Act Request Move)}
    (good : p.Good env) (run : Run (Pool.step (server env)) p log q) : q.Good env :=
  (server_discipline env).run good run

theorem Server.follows_run {p q : Server} {log : List (Server × Act Request Move)}
    (good : p.Good env) (run : Run (Pool.step (server env)) p log q) :
    Follows p.store q.store := by
  induction run with
  | start => exact .refl _
  | next run hs ih => exact ih.trans (follows_step (good_run good run) hs)

/-! ## Deliveries -/

/-- The deliveries of one event. -/
def deliveriesOf (db : Db) (eventId : Id) : List WebhookDelivery :=
  db.webhookDeliveries.filter fun d => d.eventId = eventId

/-- The call is about to select the endpoints for this event. -/
def Call.selects (c : Call) (eventType : VerificationEventType) (row : Verification)
    (eventId : Id) : Prop :=
  ∃ t, c.emission = some (eventType, row, .selectEndpoints eventId t)

/-- The log has the step at which the call at position `i` selected these endpoints. -/
def Selected (log : List (Server × Act Request Move)) (i : Nat)
    (eventType : VerificationEventType) (row : Verification) (eventId : Id)
    (endpoints : List Id) : Prop :=
  ∃ s w c, (s, Act.turn i (.statement w)) ∈ log ∧ s.calls[i]? = some c ∧
    c.selects eventType row eventId ∧
    endpoints = subscribedEndpoints eventType row.appId s.store

/-- If the call at position `i` has read its endpoints, it did so at a step of the log. -/
def Traced (log : List (Server × Act Request Move)) (i : Nat) (c : Call) : Prop :=
  ∀ eventType row e, c.emission = some (eventType, row, e) → ∀ eventId endpoints,
    e.endpoints = some (eventId, endpoints) → Selected log i eventType row eventId endpoints

/-- The statement that gives an emission its endpoints. -/
theorem emit_endpoints {v : View} {w : World} {eventType : VerificationEventType} {appId : Id}
    {e e' : Emission} (h : emitVerificationEventInTx v w eventType appId e = some e')
    {eventId : Id} {endpoints : List Id} (he : e'.endpoints = some (eventId, endpoints)) :
    (∃ t, e = .selectEndpoints eventId t ∧
      endpoints = subscribedEndpoints eventType appId v.db) ∨
      e.endpoints = some (eventId, endpoints) := by
  cases e with
  | insertEvent =>
    simp only [emitVerificationEventInTx, Option.ite_none_right_eq_some, Option.some.injEq] at h
    obtain ⟨_, rfl⟩ := h
    cases he
  | selectEndpoints k t =>
    simp only [emitVerificationEventInTx] at h
    split at h
    · next empty =>
      obtain rfl := Option.some.inj h
      obtain ⟨rfl, rfl⟩ := Prod.mk.inj (Option.some.inj he)
      exact .inl ⟨t, rfl, empty.symm⟩
    · obtain rfl := Option.some.inj h
      obtain ⟨rfl, rfl⟩ := Prod.mk.inj (Option.some.inj he)
      exact .inl ⟨t, rfl, rfl⟩
  | insertDeliveries k t eps =>
    simp only [emitVerificationEventInTx, Option.ite_none_right_eq_some, Option.some.injEq] at h
    obtain ⟨_, rfl⟩ := h
    obtain ⟨rfl, rfl⟩ := Prod.mk.inj (Option.some.inj he)
    refine .inr ?_
    simp only [Emission.endpoints, Option.some.injEq, Prod.mk.injEq, true_and]
    refine List.ext_getElem (by simp) fun n h₁ h₂ => ?_
    simp
  | returned k t ds => simp [emitVerificationEventInTx] at h

theorem Selected.mono {log log' : List (Server × Act Request Move)} {i : Nat}
    {eventType : VerificationEventType} {row : Verification} {eventId : Id}
    {endpoints : List Id} (h : Selected log i eventType row eventId endpoints)
    (sub : ∀ e ∈ log, e ∈ log') : Selected log' i eventType row eventId endpoints := by
  obtain ⟨s, w, c, logged, h⟩ := h
  exact ⟨s, w, c, sub _ logged, h⟩

theorem Call.idle_emission {c : Call} : c.thrown.emission = none ∧ c.crashed.emission = none := by
  cases c with
  | inbound input phase => cases phase <;> exact ⟨rfl, rfl⟩
  | _ => exact ⟨rfl, rfl⟩

/-- In every run, every call that has read its endpoints did so at a step of the run. -/
theorem ServerRun.traced {log : List (Server × Act Request Move)} {p : Server}
    (run : ServerRun env log p) {i : Nat} {c : Call} (hc : p.calls[i]? = some c) :
    Traced log i c := by
  refine run.call_history (K := Traced) ?_ ?_ ?_ i c hc
  · exact fun _ _ _ _ _ _ h eventType row e he eventId endpoints hend =>
      (h eventType row e he eventId endpoints hend).mono fun _ he => List.mem_append_left _ he
  · intro log i c new _ eventType row e he
    have idle : c.emission = none := by
      cases c with
      | inbound input phase => cases phase <;> simp_all [Call.isNew, Call.emission]
      | cancel appId id phase => cases phase <;> simp_all [Call.isNew, Call.emission]
      | expire id phase => cases phase <;> simp_all [Call.isNew, Call.emission]
      | _ => rfl
    rw [idle] at he
    contradiction
  · intro log q i c m t _ hc turn h eventType row e he eventId endpoints hend
    cases turn with
    | @statement w t x _ _ _ _ ran =>
      rcases statement_continues ran eventType row e he with rfl | kept | ⟨e₀, before, taken⟩
      · exact nomatch hend
      · exact (h _ _ _ kept _ _ hend).mono fun _ he => List.mem_append_left _ he
      · rcases emit_endpoints taken hend with ⟨t₀, rfl, read⟩ | already
        · exact ⟨q, w, c, by simp, hc, ⟨t₀, before⟩, read⟩
        · exact (h _ _ _ before _ _ already).mono fun _ he => List.mem_append_left _ he
    | error => simp [Call.idle_emission] at he
    | lost => simp [Call.idle_emission] at he
    | crash => simp [Call.idle_emission] at he

/-- A step that commits an event: the endpoints of its deliveries are those that the committing
call had selected. -/
theorem Server.selected_of_new {log : List (Server × Act Request Move)} {p q : Server}
    {a : Act Request Move} (run : ServerRun env log p) (hs : p.step (server env) a = some q)
    {e : WebhookEvent} (new : e ∈ q.store.webhookEvents) (old : e ∉ p.store.webhookEvents) :
    ∃ i m row, a = .turn i m ∧ e.verificationId = some row.id ∧ e.appId = row.appId ∧
      Selected log i e.eventType row e.id ((deliveriesOf q.store e.id).map (·.endpointId)) ∧
      ((deliveriesOf q.store e.id).map (·.endpointId)).Nodup := by
  have good := run.good
  rcases step_write good hs with same | ⟨i, m, c, x, rfl, hc, written, justified, _, origin⟩
  · exact absurd (same ▸ new) old
  · rw [written] at new
    cases x with
    | resolveVerification row event deliveries inbound =>
      obtain rfl : e = event := by
        rcases List.mem_append.mp new with before | here
        · exact absurd before old
        · exact List.mem_singleton.mp here
      obtain ⟨eventType, em, committing, hw⟩ := origin.resolution _ _ _ _ rfl
      have during := Call.emission_of_committing committing
      obtain ⟨eventId, t, ds, rfl, same⟩ := Emission.write?_eq_some hw
      injection same with _ hevent hdeliveries
      -- no delivery of the event existed before it did
      have fresh : deliveriesOf p.store e.id = [] := by
        rw [deliveriesOf, List.filter_eq_nil_iff]
        intro d hd of
        obtain ⟨e', he', same⟩ := good.inv.deliveryOf d hd
        obtain ⟨_, _, _, _, _, _, _, _, _, fresh, hevent', _⟩ := justified.resolve
        refine hasKey_eq_false.mp fresh.1 e' he' ?_
        have : d.eventId = e.id := by simpa using of
        rw [← same, this, hevent']
        rfl
      have all : deliveriesOf q.store e.id = deliveries := by
        have added : deliveriesOf q.store e.id = deliveriesOf p.store e.id ++
            deliveries.filter fun d => d.eventId = e.id := by
          rw [written]
          exact List.filter_append ..
        rw [added, fresh, List.nil_append, List.filter_eq_self, hdeliveries, hevent]
        intro d hd
        obtain ⟨_, _, rfl⟩ := List.mem_map.mp hd
        simp [deliveryRow, eventRow]
      have endpoints : deliveries.map (·.endpointId) = ds.map (·.2) := by
        rw [hdeliveries, List.map_map]
        rfl
      have selected : Selected log i e.eventType row e.id (ds.map (·.2)) := by
        rw [hevent]
        exact run.traced hc eventType row _ during eventId _ rfl
      rw [all, endpoints]
      refine ⟨i, m, row, rfl, by rw [hevent]; rfl, by rw [hevent]; rfl, selected, ?_⟩
      obtain ⟨s, w, c', logged, _, _, read⟩ := selected
      obtain ⟨_, _, _, _, before, _, _⟩ := run.split logged
      rw [read]
      exact (ServerRun.good before).inv.endpointIds.sublist (List.filter_sublist.map _)
    | _ => exact absurd new old

/-- At state `s` of the log the call at position `i` selects the endpoints for this event. -/
def SelectsAt (log : List (Server × Act Request Move)) (i : Nat)
    (eventType : VerificationEventType) (row : Verification) (eventId : Id) (s : Server) : Prop :=
  ∃ w c, (s, Act.turn i (.statement w)) ∈ log ∧ s.calls[i]? = some c ∧
    c.selects eventType row eventId

/-- Exactly one delivery of the event for each of these endpoints that is of its app, enabled and
subscribed to its type, and none for any other. -/
structure FannedOut (db : Db) (e : WebhookEvent) (endpoints : List WebhookEndpoint) : Prop where
  each : ∀ x ∈ endpoints, x.appId = e.appId → x.enabled = true → e.eventType ∈ x.eventTypes →
    db.webhookDeliveries.countP (fun d => d.eventId = e.id ∧ d.endpointId = x.id) = 1
  only : ∀ d ∈ db.webhookDeliveries, d.eventId = e.id → ∃ x ∈ endpoints, x.id = d.endpointId ∧
    x.appId = e.appId ∧ x.enabled = true ∧ e.eventType ∈ x.eventTypes

theorem fannedOut_of_selected {db : Db} {e : WebhookEvent} {endpoints : List WebhookEndpoint}
    (same : (deliveriesOf db e.id).map (·.endpointId) =
      (endpoints.filter (subscribed e.eventType e.appId)).map (·.id))
    (distinct : ((deliveriesOf db e.id).map (·.endpointId)).Nodup) : FannedOut db e endpoints where
  each x hx app enabled type := by
    have there : x.id ∈ (deliveriesOf db e.id).map (·.endpointId) := by
      rw [same]
      exact List.mem_map_of_mem (List.mem_filter.mpr ⟨hx, decide_eq_true ⟨app, enabled, type⟩⟩)
    have once := List.count_eq_one_of_mem distinct there
    rw [List.count, List.countP_map, deliveriesOf, List.countP_filter] at once
    rw [← once]
    refine List.countP_congr fun d _ => ?_
    simp only [decide_eq_true_eq, Function.comp_apply, Bool.and_eq_true, beq_iff_eq]
    exact and_comm
  only d hd of := by
    have there : d.endpointId ∈ (deliveriesOf db e.id).map (·.endpointId) :=
      List.mem_map_of_mem (List.mem_filter.mpr ⟨hd, decide_eq_true of⟩)
    rw [same] at there
    obtain ⟨x, hx, id⟩ := List.mem_map.mp there
    obtain ⟨hx, wants⟩ := List.mem_filter.mp hx
    exact ⟨x, hx, id, of_decide_eq_true wants⟩

/-- A step that commits an event fans it out to the endpoints as they were when the committing call
selected them. -/
theorem Server.emits_once {log : List (Server × Act Request Move)} {p q : Server}
    {a : Act Request Move} (run : ServerRun env log p) (hs : p.step (server env) a = some q)
    {e : WebhookEvent} (new : e ∈ q.store.webhookEvents) (old : e ∉ p.store.webhookEvents) :
    ∃ i m row s, a = .turn i m ∧ e.verificationId = some row.id ∧ e.appId = row.appId ∧
      SelectsAt log i e.eventType row e.id s ∧ FannedOut q.store e s.store.webhookEndpoints := by
  obtain ⟨i, m, row, turn, of, app, ⟨s, w, c, logged, hc, selects, same⟩, distinct⟩ :=
    selected_of_new run hs new old
  rw [← app] at same
  exact ⟨i, m, row, s, turn, of, app, ⟨w, c, logged, hc, selects⟩,
    fannedOut_of_selected same distinct⟩

/-- A delivery is only ever created together with its event. -/
theorem Server.delivered_with_event {p q : Server} {a : Act Request Move} (good : p.Good env)
    (hs : p.step (server env) a = some q) {d : WebhookDelivery}
    (new : d ∈ q.store.webhookDeliveries) (old : d ∉ p.store.webhookDeliveries) :
    ∃ e ∈ q.store.webhookEvents, e ∉ p.store.webhookEvents ∧ d.eventId = e.id := by
  rcases step_write good hs with same | ⟨_, _, _, x, _, _, written, justified, _⟩
  · exact absurd (same ▸ new) old
  · rw [written] at new ⊢
    cases x with
    | resolveVerification row event deliveries inbound =>
      obtain ⟨_, _, _, _, _, ds, _, _, _, fresh, rfl, rfl⟩ := justified.resolve
      refine ⟨_, List.mem_append_right _ (List.mem_singleton_self _), ?_, ?_⟩
      · exact fun before => hasKey_eq_false.mp fresh.1 _ before rfl
      · rcases List.mem_append.mp new with before | here
        · exact absurd before old
        · obtain ⟨_, _, rfl⟩ := List.mem_map.mp here
          rfl
    | deleteEndpoint appId id => exact absurd (List.mem_filter.mp new).1 old
    | _ => exact absurd new old

/-! ## The lifecycle -/

/-- In every reachable server, for every verification: it is not `failed`, it has no event while
it is pending and exactly one, of its app and of the matching type, once it is terminal; later it
has the same status or has gone from `pending` to a terminal one; and a step that commits an
event commits exactly one delivery for each endpoint of the app that was enabled and subscribed to
its type when the committing call selected them, which is the only way a delivery comes about. -/
theorem verification_lifecycle {log : List (Server × Act Request Move)} {p : Server}
    (run : ServerRun env log p) :
    (p.store.verifications.map (·.id)).Nodup ∧
    (∀ v ∈ p.store.verifications, v.status ≠ .failed ∧
      (v.status = .pending → eventsOf p.store v.id = []) ∧
      (v.status ≠ .pending → ∃ e, eventsOf p.store v.id = [e] ∧
        v.status = e.eventType.terminal ∧ e.appId = v.appId)) ∧
    (∀ log' q, Run (Pool.step (server env)) p log' q → ∀ v ∈ p.store.verifications,
      ∃ v' ∈ q.store.verifications, v'.id = v.id ∧ StatusStep v.status v'.status) ∧
    (∀ a q, p.step (server env) a = some q →
      (∀ e ∈ q.store.webhookEvents, e ∉ p.store.webhookEvents → ∃ i m row s, a = .turn i m ∧
        e.verificationId = some row.id ∧ e.appId = row.appId ∧
        SelectsAt log i e.eventType row e.id s ∧
        FannedOut q.store e s.store.webhookEndpoints) ∧
      ∀ d ∈ q.store.webhookDeliveries, d ∉ p.store.webhookDeliveries →
        ∃ e ∈ q.store.webhookEvents, e ∉ p.store.webhookEvents ∧ d.eventId = e.id) := by
  have good := run.good
  refine ⟨good.inv.verificationIds, fun v hv => ?_, fun log' q later v hv => ?_,
    fun a q hs => ⟨fun e new old => ?_, fun d new old => ?_⟩⟩
  · rcases good.inv.lifecycle v hv with ⟨pending, none⟩ | ⟨e, one, terminal, app⟩
    · exact ⟨by simp [pending], fun _ => none, fun other => absurd pending other⟩
    · have terminal' : v.status ≠ .failed ∧ v.status ≠ .pending := by
        rw [terminal]
        cases e.eventType <;> exact ⟨nofun, nofun⟩
      exact ⟨terminal'.1, fun pending => absurd pending terminal'.2,
        fun _ => ⟨e, one, terminal, app⟩⟩
  · obtain ⟨v', hv', same, status, _⟩ := Server.follows_run good later v hv
    exact ⟨v', hv', same, status⟩
  · exact Server.emits_once run hs new old
  · exact Server.delivered_with_event good hs new old

/-! ## A first script

The whole ceremony on one receiver: an endpoint is registered, a phone is bound by SMS, a
verification is started and its message arrives. -/

namespace Script

/-- Clocks at `n`, identifiers drawn from `n` on, and always the first letter of an alphabet. -/
def world (n : Nat) : World := ⟨n, n, (n + ·), fun _ => 0, 0⟩

/-- `n` turns of the call at position `i` without a failure. -/
def turns (i n : Nat) (w : World) : List (Act Request Move) :=
  List.replicate n (.turn i (.statement w))

/-- The clock of a turn. -/
def clock : Act Request Move → Option Time
  | .turn _ (.statement w) => some w.now
  | _ => none

def app : Id := newId .app 1

def receiver : Id := newId .receiver 1

def phone : Text := text "+963991234567"

def receiverRow (n : Nat) : Receiver :=
  ⟨newId .receiver n, app, none, text "+963110000000", true, some 1000, 1000⟩

/-- The message that answers a start whose code is all `A`. -/
def verifyMessage : InboundBody :=
  ⟨phone, text "+963110000000", text "VERIFY AAAAAA", 1000, text "key-verify", by decide,
    by decide, by decide, by decide⟩

def bindMessage : InboundBody :=
  ⟨phone, text "+963110000000", text "BIND AAAAAAAAAAAAAAAAAAAAAAAA", 1000, text "key-bind",
    by decide, by decide, by decide, by decide⟩

def start : StartRequest := ⟨app, phone, text "login", none, none, none, none⟩

/-- The receiver is registered and the phone is bound to the app on it: calls 0 to 2. -/
def bound : List (Act Request Move) :=
  [.arrive (.maintain (.putReceiver (receiverRow 1)))] ++ turns 0 1 (world 1000) ++
  [.arrive (.startBinding ⟨app, receiver, phone⟩)] ++ turns 1 3 (world 1010) ++
  [.arrive (.inbound receiver bindMessage)] ++ turns 2 3 (world 1020)

/-- A verification is started: call 3. -/
def started : List (Act Request Move) :=
  bound ++ [.arrive (.startVerification start)] ++ turns 3 6 (world 1030)

def endpoint : WebhookEndpoint where
  id := newId .webhookEndpoint 1
  appId := app
  url := text "https://example.com/hook"
  secretCiphertext := []
  enabled := true
  eventTypes := [.verified]
  createdAt := 1040
  updatedAt := 1040

/-- An endpoint subscribes and the message verifies the phone: calls 4 and 5. -/
def verified : List (Act Request Move) :=
  started ++
  [.arrive (.maintain (.createEndpoint endpoint))] ++
  turns 4 1 (world 1040) ++ [.arrive (.inbound receiver verifyMessage)] ++ turns 5 8 (world 1050)

/-- Where a script leads on a fresh server. -/
def result (acts : List (Act Request Move)) : Option (List (Server × Act Request Move) × Server) :=
  exec (Pool.step (server .ascii)) .init acts

/-- A script whose actions are all enabled is a run. -/
theorem run (acts : List (Act Request Move)) (h : (result acts).isSome = true) :
    ServerRun .ascii ((result acts).get h).1 ((result acts).get h).2 :=
  run_of_exec (Option.some_get h).symm

theorem verified_runs : (result verified).isSome = true := by decide +kernel

theorem verified_reached :
    ∃ v ∈ ((result verified).get verified_runs).2.store.verifications, v.status = .verified := by
  decide +kernel

end Script

/-- The script ends with a verified row, and the lifecycle gives it its one event. -/
theorem verification_lifecycle_script : ∃ log p, ServerRun .ascii log p ∧
    ∃ v ∈ p.store.verifications, v.status = .verified ∧
      ∃ e, eventsOf p.store v.id = [e] ∧ e.eventType = .verified := by
  obtain ⟨v, hv, verified⟩ := Script.verified_reached
  have lifecycle := verification_lifecycle (Script.run _ Script.verified_runs)
  obtain ⟨e, one, terminal, _⟩ := (lifecycle.2.1 v hv).2.2 (by simp [verified])
  refine ⟨_, _, Script.run _ Script.verified_runs, v, hv, verified, e, one, ?_⟩
  rw [verified] at terminal
  cases h : e.eventType <;> simp [h, VerificationEventType.terminal] at terminal ⊢

end Syrotp
