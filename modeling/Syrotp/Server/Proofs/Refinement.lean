import Syrotp.Misc.Simulation
import Syrotp.Server.Proofs.Isolation

/-!
# The deployment refines the server

What the deployment adds to `System` is seen there as maintenance, or not at all: a worker only
writes in deliveries, which no call of `System` reads, a ceremony stays in its own tables, and the
routes that create and delete an endpoint make one maintenance write each. So every run of the
deployment is followed by a run of the server, and what holds of every run of the server holds of
the deployment.
-/

namespace Syrotp

/-! ## Databases that differ in what workers write -/

/-- What an emission draws of a delivery, and a worker leaves alone. -/
def WebhookDelivery.drawn (d : WebhookDelivery) : (Id × Id × Id) × VerificationEventType × Time :=
  (d.key, d.eventType, d.createdAt)

/-- The same rows, but for what a worker writes in a delivery. -/
def Db.Alike (db db' : Db) : Prop :=
  ∃ rows, db' = { db with webhookDeliveries := rows } ∧
    rows.map (·.drawn) = db.webhookDeliveries.map (·.drawn)

theorem Db.Alike.refl (db : Db) : db.Alike db := ⟨db.webhookDeliveries, rfl, rfl⟩

theorem Db.Alike.symm {db db' : Db} (h : db.Alike db') : db'.Alike db := by
  obtain ⟨rows, rfl, same⟩ := h
  exact ⟨db.webhookDeliveries, rfl, same.symm⟩

theorem Db.Alike.trans {a b c : Db} (h : a.Alike b) (h' : b.Alike c) : a.Alike c := by
  obtain ⟨rows, rfl, same⟩ := h
  obtain ⟨rows', rfl, same'⟩ := h'
  exact ⟨rows', rfl, same'.trans same⟩

/-- A condition on the endpoint alone keeps the rows alike. -/
theorem map_drawn_filter {rows rows' : List WebhookDelivery} (kept : Id → Bool)
    (same : rows'.map (·.drawn) = rows.map (·.drawn)) :
    (rows'.filter fun d => kept d.endpointId).map (·.drawn) =
      (rows.filter fun d => kept d.endpointId).map (·.drawn) := by
  have keyed : ∀ rows : List WebhookDelivery,
      (rows.filter fun d => kept d.endpointId).map (·.drawn) =
        (rows.map (·.drawn)).filter fun k => kept k.1.2.1 := by
    intro rows
    rw [List.filter_map]
    rfl
  rw [keyed, keyed, same]

theorem Db.Alike.commit {db db' : Db} (h : db.Alike db') (w : Write) :
    (db.commit w).Alike (db'.commit w) := by
  obtain ⟨rows, rfl, same⟩ := h
  cases w with
  | resolveVerification row event deliveries inbound =>
    refine ⟨rows ++ deliveries, rfl, ?_⟩
    rw [List.map_append, same]
    simp [Db.commit]
  | deleteEndpoint appId id =>
    refine ⟨_, rfl, ?_⟩
    exact map_drawn_filter (fun endpointId => ¬∃ e ∈ db.webhookEndpoints,
      (e.appId = appId ∧ e.id = id) ∧ endpointId = e.id) same
  | _ => exact ⟨rows, rfl, same⟩

theorem Db.Alike.commitOption {db db' : Db} (h : db.Alike db') (x : Option Write) :
    (db.commitOption x).Alike (db'.commitOption x) := by
  cases x with
  | none => exact h
  | some w => exact h.commit w

/-- A worker only writes in deliveries, and not in what was drawn. -/
theorem webhookTick_alike {W : WebhookPlatform} {locked : Id → Bool} {w : WorkerWorld}
    {db db' : Db} {phase phase' : WorkerPhase}
    (h : webhookTick W locked w db phase = some (phase', db')) : db.Alike db' := by
  cases webhookTick_step h with
  | leased => exact ⟨_, rfl, map_updateWhere fun _ => rfl⟩
  | applied =>
    refine ⟨_, rfl, map_updateWhere fun d => ?_⟩
    unfold applyOutcome
    repeat' split
    all_goals rfl
  | _ => exact .refl db

/-! ## Statements read no more than what was drawn -/

section Statement

variable {env : Env} {v : View} {w : World} {rows : List WebhookDelivery}

/-- The view with other deliveries. -/
def View.withDeliveries (v : View) (rows : List WebhookDelivery) : View :=
  { v with db := { v.db with webhookDeliveries := rows } }

theorem hasKey_of_drawn {rows rows' : List WebhookDelivery}
    (same : rows'.map (·.drawn) = rows.map (·.drawn)) (k : Id) :
    hasKey (·.id) k rows' = hasKey (·.id) k rows := by
  have keyed : ∀ rows : List WebhookDelivery,
      hasKey (·.id) k rows = hasKey (·.1.1) k (rows.map (·.drawn)) := by
    intro rows
    rw [hasKey, hasKey, List.any_map]
    rfl
  rw [keyed, keyed, same]

theorem emit_withDeliveries (same : rows.map (·.drawn) = v.db.webhookDeliveries.map (·.drawn))
    (eventType : VerificationEventType) (appId : Id) (e : Emission) :
    emitVerificationEventInTx (v.withDeliveries rows) w eventType appId e =
      emitVerificationEventInTx v w eventType appId e := by
  cases e with
  | insertDeliveries eventId createdAt endpoints =>
    simp only [emitVerificationEventInTx, View.withDeliveries, View.freshKey,
      hasKey_of_drawn same]
    rfl
  | _ => rfl

theorem startVerification_withDeliveries {input : StartVerificationInput} {phase : StartPhase} :
    startVerification env (v.withDeliveries rows) w input phase =
      startVerification env v w input phase := by
  cases phase <;> rfl

theorem startBinding_withDeliveries {input : StartBindingInput} {phase : StartBindingPhase} :
    startBinding env (v.withDeliveries rows) w input phase =
      startBinding env v w input phase := by
  cases phase <;> rfl

theorem processInbound_withDeliveries
    (same : rows.map (·.drawn) = v.db.webhookDeliveries.map (·.drawn)) {input : MatchInput}
    {phase : InboundPhase} : processInbound env (v.withDeliveries rows) w input phase =
      processInbound env v w input phase := by
  cases phase with
  | emit i row e => simp only [processInbound, emit_withDeliveries same]
  | _ => rfl

theorem cancelVerification_withDeliveries
    (same : rows.map (·.drawn) = v.db.webhookDeliveries.map (·.drawn)) {appId id : Id}
    {phase : CancelPhase} : cancelVerification (v.withDeliveries rows) w appId id phase =
      cancelVerification v w appId id phase := by
  cases phase with
  | emit row e => simp only [cancelVerification, emit_withDeliveries same]
  | _ => rfl

theorem lazyExpireAndEmit_withDeliveries
    (same : rows.map (·.drawn) = v.db.webhookDeliveries.map (·.drawn)) {id : Id}
    {phase : ExpirePhase} : lazyExpireAndEmit (v.withDeliveries rows) w id phase =
      lazyExpireAndEmit v w id phase := by
  cases phase with
  | emit row e => simp only [lazyExpireAndEmit, emit_withDeliveries same]
  | _ => rfl

/-- What a turn leaves behind in a database and in one alike. -/
structure Turn.Alike (t t' : Turn Db Call) : Prop where
  store : t.store.Alike t'.store
  call : t'.call = t.call
  spawned : t'.spawned = t.spawned

theorem statement_withDeliveries (same : rows.map (·.drawn) = v.db.webhookDeliveries.map (·.drawn))
    {c : Call} {t : Turn Db Call} (h : c.statement env v w = some t) :
    ∃ t', c.statement env (v.withDeliveries rows) w = some t' ∧ t.Alike t' := by
  have alike : v.db.Alike (v.withDeliveries rows).db := ⟨rows, rfl, same⟩
  -- the same decision, committed in either database
  have committed : ∀ {ρ : Type} {decided : Option ρ} {write : ρ → Option Write}
      {next : ρ → Call} {spawned : ρ → List Call},
      decided.map (fun r => (⟨v.db.commitOption (write r), next r, spawned r⟩ : Turn Db Call)) =
        some t →
      ∃ t', decided.map (fun r => (⟨(v.withDeliveries rows).db.commitOption (write r), next r,
        spawned r⟩ : Turn Db Call)) = some t' ∧ t.Alike t' := by
    intro ρ decided write next spawned h
    obtain ⟨r, rfl, rfl⟩ := Option.map_eq_some_iff.mp h
    exact ⟨_, rfl, alike.commitOption _, rfl, rfl⟩
  cases c with
  | start input phase =>
    simp only [Call.statement, startVerification_withDeliveries] at h ⊢
    exact committed h
  | rejected error => cases h
  | inbound input phase =>
    simp only [Call.statement, processInbound_withDeliveries same] at h ⊢
    exact committed h
  | cancel appId id phase =>
    simp only [Call.statement, cancelVerification_withDeliveries same] at h ⊢
    exact committed h
  | expire id phase =>
    simp only [Call.statement, lazyExpireAndEmit_withDeliveries same] at h ⊢
    exact committed h
  | read r phase =>
    cases phase with
    | select | tell =>
      obtain rfl := Option.some.inj h
      cases r <;> exact ⟨_, rfl, alike, rfl, rfl⟩
    | _ => cases h
  | bind input phase =>
    simp only [Call.statement, startBinding_withDeliveries] at h ⊢
    exact committed h
  | revoke appId id phase =>
    cases phase with
    | ready =>
      obtain rfl := Option.some.inj h
      exact ⟨_, rfl, alike.commitOption _, rfl, rfl⟩
    | _ => cases h
  | maintain m phase =>
    cases phase with
    | ready =>
      obtain ⟨x, hx, rfl⟩ := Option.map_eq_some_iff.mp h
      have seen : m.write? (v.withDeliveries rows) = some x := by
        rw [← hx]
        cases m <;> rfl
      refine ⟨⟨(v.withDeliveries rows).db.commit x, .maintain m (.done ()), []⟩, ?_,
        alike.commit x, rfl, rfl⟩
      simp only [Call.statement, seen, Option.map_some]
    | _ => cases h

end Statement

theorem accept_alike {env : Env} {db db' : Db} (alike : db.Alike db') (r : Request) :
    accept env db' r = accept env db r := by
  obtain ⟨rows, rfl, _⟩ := alike
  cases r <;> rfl

/-- A turn of a call goes the same way in a database alike, among calls with the same locks. -/
theorem turn_alike {env : Env} {db db' : Db} (alike : db.Alike db') {others others' : List Call}
    (locks : ∀ l, (∃ o ∈ others', l ∈ o.locks) ↔ ∃ o ∈ others, l ∈ o.locks)
    (references : ∀ id, (∃ o ∈ others', id ∈ o.references) ↔ ∃ o ∈ others, id ∈ o.references)
    {c : Call} {m : Move} {t : Turn Db Call} (h : c.turn env db others m = some t) :
    ∃ t', c.turn env db' others' m = some t' ∧ t.Alike t' := by
  obtain ⟨rows, rfl, same⟩ := alike
  have view : viewOf { db with webhookDeliveries := rows } others' =
      (viewOf db others).withDeliveries rows := by
    simp only [viewOf, View.withDeliveries, View.mk.injEq, true_and]
    constructor
    · funext l
      rw [Bool.eq_iff_iff]
      simpa only [List.any_eq_true, decide_eq_true_eq] using locks l
    · funext id
      rw [Bool.eq_iff_iff]
      simpa only [List.any_eq_true, decide_eq_true_eq] using references id
  have stays : db.Alike { db with webhookDeliveries := rows } := ⟨rows, rfl, same⟩
  cases m with
  | statement w =>
    simp only [Call.turn, view]
    exact statement_withDeliveries same h
  | error =>
    obtain ⟨flying, done⟩ := Option.ite_none_right_eq_some.mp h
    obtain rfl := Option.some.inj done
    exact ⟨_, if_pos flying, stays, rfl, rfl⟩
  | lost w =>
    obtain ⟨t₀, h₀, rfl⟩ := Option.map_eq_some_iff.mp h
    obtain ⟨t', h', after⟩ := statement_withDeliveries same h₀
    simp only [Call.turn, view]
    exact ⟨⟨t'.store, c.thrown, []⟩, by rw [h']; rfl, after.store, rfl, rfl⟩
  | crash =>
    obtain ⟨flying, done⟩ := Option.ite_none_right_eq_some.mp h
    obtain rfl := Option.some.inj done
    exact ⟨_, if_pos flying, stays, rfl, rfl⟩

/-! ## Where the calls are -/

/-- A maintenance write that has been made. -/
def Call.isMaintained : Call → Bool
  | .maintain _ (.done _) => true
  | _ => false

theorem Call.isMaintained_idle {c : Call} (h : c.isMaintained = true) :
    c.locks = [] ∧ c.references = [] := by
  cases c with
  | maintain m phase => exact ⟨rfl, rfl⟩
  | _ => exact nomatch h

/-- Each call of `System` among the jobs is at its position among the calls, in the same order, and
the calls at other positions are maintenance writes that have been made. -/
structure Placed (jobs : List Job) (calls : List Call) (pos : Nat → Nat) : Prop where
  here : ∀ i c, jobs[i]? = some (.core c) → calls[pos i]? = some c
  ordered : ∀ i j a b, jobs[i]? = some (.core a) → jobs[j]? = some (.core b) → i < j →
    pos i < pos j
  others : ∀ k c, calls[k]? = some c →
    (∃ i, pos i = k ∧ jobs[i]? = some (.core c)) ∨ c.isMaintained = true

namespace Placed

variable {jobs : List Job} {calls : List Call} {pos : Nat → Nat}

theorem injective (h : Placed jobs calls pos) {i j : Nat} {a b : Call}
    (hi : jobs[i]? = some (.core a)) (hj : jobs[j]? = some (.core b)) (same : pos i = pos j) :
    i = j := by
  rcases Nat.lt_trichotomy i j with before | rfl | after
  · exact absurd same (h.ordered i j a b hi hj before).ne
  · rfl
  · exact absurd same.symm (h.ordered j i b a hj hi after).ne

/-- What some other call owns, some other job owns, and the other way round. -/
theorem owned (h : Placed jobs calls pos) {τ : Type*} (own : Call → List τ)
    (idle : ∀ c : Call, c.isMaintained = true → own c = []) {i : Nat} {c : Call}
    (hi : jobs[i]? = some (.core c)) (k : τ) :
    (∃ o ∈ calls.eraseIdx (pos i), k ∈ own o) ↔
      ∃ o ∈ coreCalls (jobs.eraseIdx i), k ∈ own o := by
  constructor
  · rintro ⟨o, ho, owns⟩
    obtain ⟨j, ne, hj⟩ := List.mem_eraseIdx_iff_getElem?.mp ho
    rcases h.others j o hj with ⟨x, rfl, hx⟩ | maintained
    · refine ⟨o, mem_coreCalls.mpr (List.mem_eraseIdx_iff_getElem?.mpr ⟨x, ?_, hx⟩), owns⟩
      rintro rfl
      exact ne rfl
    · rw [idle o maintained] at owns
      exact absurd owns List.not_mem_nil
  · rintro ⟨o, ho, owns⟩
    obtain ⟨x, ne, hx⟩ := List.mem_eraseIdx_iff_getElem?.mp (mem_coreCalls.mp ho)
    refine ⟨o, List.mem_eraseIdx_iff_getElem?.mpr ⟨pos x, ?_, h.here x o hx⟩, owns⟩
    exact fun same => ne (h.injective hx hi same)

/-- Another job goes on. -/
theorem aside (h : Placed jobs calls pos) {i : Nat} {job job' : Job} (hi : jobs[i]? = some job)
    (before : job.core? = none) (after : job'.core? = none) :
    Placed (jobs.set i job') calls pos := by
  have bound : i < jobs.length := (List.getElem?_eq_some_iff.mp hi).1
  have unmoved : ∀ (j : Nat) (c : Call),
      (jobs.set i job')[j]? = some (.core c) ↔ jobs[j]? = some (.core c) := by
    intro j c
    by_cases same : i = j
    · subst same
      simp only [List.getElem?_set_self bound, hi, Option.some.injEq]
      constructor
      · rintro rfl
        exact nomatch after
      · rintro rfl
        exact nomatch before
    · rw [List.getElem?_set_ne same]
  constructor
  · simpa only [unmoved] using h.here
  · simpa only [unmoved] using h.ordered
  · simpa only [unmoved] using h.others

/-- Another job arrives. -/
theorem arrive_aside (h : Placed jobs calls pos) {job : Job} (other : job.core? = none) :
    Placed (jobs ++ [job]) calls pos := by
  have unmoved : ∀ (j : Nat) (c : Call),
      (jobs ++ [job])[j]? = some (.core c) ↔ jobs[j]? = some (.core c) := by
    intro j c
    rcases Nat.lt_or_ge j jobs.length with inside | outside
    · rw [List.getElem?_append_left inside]
    · rw [List.getElem?_append_right outside, List.getElem?_eq_none outside,
        List.getElem?_singleton]
      constructor
      · intro new
        obtain ⟨_, same⟩ := Option.ite_none_right_eq_some.mp new
        obtain rfl := Option.some.inj same
        exact nomatch other
      · exact nofun
  constructor
  · simpa only [unmoved] using h.here
  · simpa only [unmoved] using h.ordered
  · simpa only [unmoved] using h.others

/-- A maintenance write is made beside the jobs. -/
theorem maintained (h : Placed jobs calls pos) {c : Call} (made : c.isMaintained = true) :
    Placed jobs (calls ++ [c]) pos where
  here := by
    intro i x hi
    have at' := h.here i x hi
    rw [List.getElem?_append_left (List.getElem?_eq_some_iff.mp at').1]
    exact at'
  ordered := h.ordered
  others := by
    intro k x hk
    rcases Nat.lt_or_ge k calls.length with inside | outside
    · rw [List.getElem?_append_left inside] at hk
      exact h.others k x hk
    · rw [List.getElem?_append_right outside] at hk
      exact .inr (List.mem_singleton.mp (List.mem_of_getElem? hk) ▸ made)

/-- A call goes on. -/
theorem turned (h : Placed jobs calls pos) {i : Nat} {c c' : Call}
    (hi : jobs[i]? = some (.core c)) :
    Placed (jobs.set i (.core c')) (calls.set (pos i) c') pos := by
  have bound : i < jobs.length := (List.getElem?_eq_some_iff.mp hi).1
  have bound' : pos i < calls.length := (List.getElem?_eq_some_iff.mp (h.here i c hi)).1
  have core : ∀ {j : Nat} {x : Call}, (jobs.set i (.core c'))[j]? = some (.core x) →
      ∃ y, jobs[j]? = some (.core y) := by
    intro j x hj
    by_cases same : i = j
    · exact ⟨c, same ▸ hi⟩
    · exact ⟨x, (List.getElem?_set_ne same).symm.trans hj⟩
  constructor
  · intro j x hj
    obtain ⟨y, hy⟩ := core hj
    by_cases same : i = j
    · subst same
      rw [List.getElem?_set_self bound] at hj
      rw [List.getElem?_set_self bound', Job.core.inj (Option.some.inj hj)]
    · rw [List.getElem?_set_ne same] at hj
      rw [List.getElem?_set_ne fun at' => same (h.injective hi hy at')]
      exact h.here j x hj
  · intro j k a b hj hk before
    obtain ⟨_, hj⟩ := core hj
    obtain ⟨_, hk⟩ := core hk
    exact h.ordered j k _ _ hj hk before
  · intro k x hk
    by_cases same : pos i = k
    · subst same
      rw [List.getElem?_set_self bound'] at hk
      obtain rfl := Option.some.inj hk
      exact .inl ⟨i, rfl, List.getElem?_set_self bound⟩
    · rw [List.getElem?_set_ne same] at hk
      refine (h.others k x hk).imp ?_ id
      rintro ⟨j, rfl, hj⟩
      refine ⟨j, rfl, ?_⟩
      rw [List.getElem?_set_ne fun at' => same (congrArg pos at')]
      exact hj

/-- Calls arrive or are started. -/
theorem added (h : Placed jobs calls pos) (news : List Call) :
    ∃ pos', Placed (jobs ++ news.map .core) (calls ++ news) pos' := by
  refine ⟨fun i => if i < jobs.length then pos i else calls.length + (i - jobs.length), ?_⟩
  have bound : ∀ {i : Nat} {c : Call}, jobs[i]? = some (.core c) →
      i < jobs.length ∧ pos i < calls.length :=
    fun hi => ⟨(List.getElem?_eq_some_iff.mp hi).1, (List.getElem?_eq_some_iff.mp
      (h.here _ _ hi)).1⟩
  have place : ∀ {i : Nat} {c : Call}, (jobs ++ news.map .core)[i]? = some (.core c) →
      i < jobs.length ∧ jobs[i]? = some (.core c) ∨
        jobs.length ≤ i ∧ news[i - jobs.length]? = some c := by
    intro i c hi
    rcases Nat.lt_or_ge i jobs.length with inside | outside
    · exact .inl ⟨inside, (List.getElem?_append_left inside).symm.trans hi⟩
    · rw [List.getElem?_append_right outside, List.getElem?_map] at hi
      obtain ⟨x, hx, same⟩ := Option.map_eq_some_iff.mp hi
      exact .inr ⟨outside, Job.core.inj same ▸ hx⟩
  constructor
  · intro i c hi
    rcases place hi with ⟨inside, old⟩ | ⟨outside, new⟩
    · rw [if_pos inside, List.getElem?_append_left (bound old).2]
      exact h.here i c old
    · rw [if_neg (Nat.not_lt.mpr outside), List.getElem?_append_right (Nat.le_add_right _ _),
        Nat.add_sub_cancel_left]
      exact new
  · intro i j a b hi hj before
    rcases place hi with ⟨inside, old⟩ | ⟨outside, new⟩
    · rcases place hj with ⟨inside', old'⟩ | ⟨outside', new'⟩
      · simp only [inside, inside', if_true]
        exact h.ordered i j a b old old' before
      · have := (bound old).2
        simp only [inside, if_true, Nat.not_lt.mpr outside', if_false]
        omega
    · have outside' : jobs.length ≤ j := by omega
      simp only [Nat.not_lt.mpr outside, Nat.not_lt.mpr outside', if_false]
      omega
  · intro k c hk
    rcases Nat.lt_or_ge k calls.length with inside | outside
    · rw [List.getElem?_append_left inside] at hk
      refine (h.others k c hk).imp ?_ id
      rintro ⟨i, rfl, hi⟩
      have here := (bound hi).1
      exact ⟨i, if_pos here, (List.getElem?_append_left here).trans hi⟩
    · rw [List.getElem?_append_right outside] at hk
      refine .inl ⟨jobs.length + (k - calls.length), ?_, ?_⟩
      · simp only [Nat.not_lt.mpr (Nat.le_add_right _ _), if_false]
        omega
      · rw [List.getElem?_append_right (Nat.le_add_right _ _), Nat.add_sub_cancel_left,
          List.getElem?_map, hk]
        rfl

end Placed

/-! ## Steps -/

/-- The deployment as the server sees it. -/
structure Refines (p : Deployment) (q : Server) : Prop where
  store : p.store.core.Alike q.store
  calls : ∃ pos, Placed p.calls q.calls pos

section

variable {S : Services} {d : Database} {others : List Job}

/-- What another job writes in the rows of `System` is maintenance. -/
inductive Maintained (v : View) (db' : Db) : Prop
  | unseen : v.db.Alike db' → Maintained v db'
  | wrote {m : Maintenance} {x : Write} : m.write? v = some x → db' = v.db.commit x →
      Maintained v db'

theorem createWebhookEndpoint_maintained {W : WebhookService} {others : List Job}
    {w : WebhookWorld} {input : CreateWebhookInput} {phase phase' : CreateWebhookPhase}
    {x : Option Write} {db : Db}
    (h : createWebhookEndpoint W (webhookView db others) w input phase = some (phase', x)) :
    Maintained (viewOf db (coreCalls others)) (db.commitOption x) := by
  cases x with
  | none => exact .unseen (.refl db)
  | some write =>
    cases phase with
    | insert row secret =>
      simp only [createWebhookEndpoint] at h
      split at h
      · cases h
      · next fresh =>
        obtain ⟨_, same⟩ := Prod.mk.inj (Option.some.inj h)
        obtain rfl := Option.some.inj same
        exact .wrote (m := .createEndpoint row) (if_neg fresh) rfl
    | validate =>
      simp only [createWebhookEndpoint] at h
      split at h <;> cases h
    | selectExisting events =>
      simp only [createWebhookEndpoint] at h
      split at h <;> cases h
    | _ => cases h

theorem deleteWebhookEndpoint_maintained {others : List Job} {db : Db} {appId id : Id}
    {result : Except ApiError Unit} {x : Option Write}
    (h : deleteWebhookEndpoint (webhookView db others) appId id = some (result, x)) :
    Maintained (viewOf db (coreCalls others)) (db.commitOption x) := by
  unfold deleteWebhookEndpoint at h
  split at h
  · obtain ⟨_, rfl⟩ := Prod.mk.inj (Option.some.inj h)
    exact .unseen (.refl db)
  · next row found =>
    obtain ⟨free, same⟩ := Option.ite_none_left_eq_some.mp h
    obtain ⟨_, rfl⟩ := Prod.mk.inj (Option.some.inj same)
    have named := List.find?_some found
    simp only [decide_eq_true_eq] at named
    have unreferenced : ¬(viewOf db (coreCalls others)).referenced id = true := by
      intro referenced
      exact free (named.2 ▸ Bool.or_eq_true_iff.mpr (.inl referenced))
    exact .wrote (m := .deleteEndpoint appId id) (if_neg unreferenced) rfl

theorem aside_maintained {job : Job} (other : job.core? = none) {w : ServiceWorld}
    {t : Turn Database Job} (h : job.statement S d others w = some t) :
    Maintained (viewOf d.core (coreCalls others)) t.store.core := by
  cases job with
  | core c => exact nomatch other
  | query q phase =>
    cases phase with
    | ready => exact Option.some.inj h ▸ .unseen (.refl _)
    | _ => exact nomatch h
  | createWebhook input phase =>
    obtain ⟨⟨phase', x⟩, hr, rfl⟩ := Option.map_eq_some_iff.mp h
    exact createWebhookEndpoint_maintained hr
  | deleteWebhook appId id phase =>
    cases phase with
    | ready =>
      obtain ⟨⟨result, x⟩, hr, rfl⟩ := Option.map_eq_some_iff.mp h
      exact deleteWebhookEndpoint_maintained hr
    | _ => exact nomatch h
  | webauthn c =>
    obtain ⟨⟨c', x⟩, hr, rfl⟩ := Option.map_eq_some_iff.mp h
    exact .unseen (.refl _)
  | tick phase =>
    obtain ⟨⟨phase', db'⟩, hr, rfl⟩ := Option.map_eq_some_iff.mp h
    exact .unseen (webhookTick_alike hr)

theorem aside_turn_maintained {job : Job} (other : job.core? = none) {m : ServiceMove}
    {t : Turn Database Job} (h : job.turn S d others m = some t) :
    Maintained (viewOf d.core (coreCalls others)) t.store.core := by
  cases m with
  | statement w => exact aside_maintained other h
  | error =>
    obtain ⟨_, same⟩ := Option.ite_none_right_eq_some.mp h
    exact Option.some.inj same ▸ .unseen (.refl _)
  | lost w =>
    obtain ⟨t', ht', rfl⟩ := Option.map_eq_some_iff.mp h
    have wrote := aside_maintained other ht'
    exact wrote
  | crash =>
    obtain ⟨_, same⟩ := Option.ite_none_right_eq_some.mp h
    exact Option.some.inj same ▸ .unseen (.refl _)

/-- It stays outside `System`, and starts nothing there. -/
theorem aside_turn_call {job : Job} (other : job.core? = none) {m : ServiceMove}
    {t : Turn Database Job} (h : job.turn S d others m = some t) :
    t.call.core? = none ∧ t.spawned = [] := by
  have idle : job.thrown.core? = none ∧ job.failed.core? = none := by
    cases job with
    | core c => exact nomatch other
    | _ => exact ⟨rfl, rfl⟩
  cases m with
  | statement w =>
    cases job with
    | core c => exact nomatch other
    | query q phase =>
      cases phase with
      | ready => exact Option.some.inj h ▸ ⟨rfl, rfl⟩
      | _ => exact nomatch h
    | deleteWebhook appId id phase =>
      cases phase with
      | ready =>
        obtain ⟨_, _, rfl⟩ := Option.map_eq_some_iff.mp h
        exact ⟨rfl, rfl⟩
      | _ => exact nomatch h
    | _ =>
      obtain ⟨_, _, rfl⟩ := Option.map_eq_some_iff.mp h
      exact ⟨rfl, rfl⟩
  | error =>
    obtain ⟨_, same⟩ := Option.ite_none_right_eq_some.mp h
    exact Option.some.inj same ▸ ⟨idle.1, rfl⟩
  | lost w =>
    obtain ⟨_, _, rfl⟩ := Option.map_eq_some_iff.mp h
    exact ⟨idle.1, rfl⟩
  | crash =>
    obtain ⟨_, same⟩ := Option.ite_none_right_eq_some.mp h
    exact Option.some.inj same ▸ ⟨idle.2, rfl⟩

/-- A maintenance write as the server makes it: the request arrives, and its call takes its turn. -/
theorem maintenance_run {env : Env} {q : Server} {m : Maintenance} {x : Write}
    (h : m.write? (viewOf q.store q.calls) = some x) :
    ∃ log p, p = (⟨q.store.commit x, q.calls ++ [.maintain m (.done ())]⟩ : Server) ∧
      Run (Pool.step (server env)) q log p ∧
      ∀ u ∈ moments log p, u.store = q.store ∨ u.store = p.store := by
  obtain ⟨world⟩ : Nonempty World := ⟨⟨0, 0, fun _ => 0, fun _ => 0, 0⟩⟩
  have arrives : q.step (server env) (.arrive (.maintain m)) =
      some ⟨q.store, q.calls ++ [.maintain m .ready]⟩ := rfl
  have alone : (⟨q.store, q.calls ++ [.maintain m .ready]⟩ : Server).others q.calls.length =
      q.calls := by
    simp [Pool.others, List.eraseIdx_append_of_length_le]
  have turns : (⟨q.store, q.calls ++ [.maintain m .ready]⟩ : Server).step (server env)
      (.turn q.calls.length (.statement world)) =
        some ⟨q.store.commit x, q.calls ++ [.maintain m (.done ())]⟩ := by
    simp only [Pool.step, List.getElem?_concat_length, alone, server, Call.turn, Call.statement, h,
      Option.map_some]
    simp [viewOf]
  refine ⟨_, _, rfl, (Run.start.next arrives).next turns, ?_⟩
  simp [moments]

end

/-- The server with nothing of its own under way sees what the others hold. -/
theorem maintenance_alike {db db' : Db} (alike : db.Alike db') {others : List Call}
    {others' : List Call} (references : ∀ id, (∃ o ∈ others', id ∈ o.references) →
      ∃ o ∈ others, id ∈ o.references) {m : Maintenance} {x : Write}
    (h : m.write? (viewOf db others) = some x) : m.write? (viewOf db' others') = some x := by
  obtain ⟨rows, rfl, _⟩ := alike
  cases m with
  | deleteEndpoint appId id =>
    obtain ⟨free, same⟩ := Option.ite_none_left_eq_some.mp h
    refine Option.ite_none_left_eq_some.mpr ⟨fun held => free ?_, same⟩
    simp only [viewOf, List.any_eq_true, decide_eq_true_eq] at held ⊢
    exact references id held
  | _ => exact h

/-- Every step of the deployment is followed by steps of the server. -/
theorem deployment_simulates (S : Services) :
    Simulates (Pool.step (deployment S)) (Pool.step (server S.env)) Refines
      fun p q => p.store.core.Alike q.store := by
  intro p q a p' related hs
  obtain ⟨alike, pos, placed⟩ := related
  have one : ∀ {a' : Act Request Move} {q' : Server}, p'.store.core.Alike q'.store →
      ∀ u ∈ moments [(q, a')] q', p.store.core.Alike u.store ∨ p'.store.core.Alike u.store := by
    intro a' q' after u hu
    simp only [moments, List.map_cons, List.map_nil, List.cons_append, List.nil_append,
      List.mem_cons, List.not_mem_nil, or_false] at hu
    rcases hu with rfl | rfl
    · exact .inl alike
    · exact .inr after
  have none : ∀ u ∈ moments ([] : List (Server × Act Request Move)) q,
      p.store.core.Alike u.store ∨ p'.store.core.Alike u.store := by
    intro u hu
    rw [moments_start, List.mem_singleton] at hu
    exact .inl (hu ▸ alike)
  cases a with
  | arrive r =>
    obtain ⟨job, accepted, rfl⟩ := Pool.step_arrive hs
    rcases core_or_aside job with ⟨c, rfl⟩ | other
    · cases r with
      | core r =>
        obtain ⟨x, hx, same⟩ := Option.map_eq_some_iff.mp accepted
        obtain rfl := Job.core.inj same
        have arrives : q.step (server S.env) (.arrive r) = some ⟨q.store, q.calls ++ [x]⟩ := by
          simp only [Pool.step, server, accept_alike alike, hx, Option.map_some]
        exact ⟨_, _, .single arrives, ⟨alike, placed.added [x]⟩, one alike⟩
      | _ => cases accepted
    · exact ⟨[], q, .start, ⟨alike, pos, placed.arrive_aside other⟩, none⟩
  | turn i m =>
    obtain ⟨job, t, hi, ht, rfl⟩ := Pool.step_turn hs
    rcases core_or_aside job with ⟨c, rfl⟩ | other
    · obtain ⟨m', t', ht', rfl⟩ := core_turn ht
      obtain ⟨t'', turned, store, call, spawned⟩ := turn_alike alike
        (placed.owned Call.locks (fun _ made => (Call.isMaintained_idle made).1) hi)
        (placed.owned Call.references
          (fun _ made => (Call.isMaintained_idle made).2) hi) ht'
      have step : q.step (server S.env) (.turn (pos i) m') =
          some ⟨t''.store, q.calls.set (pos i) t''.call ++ t''.spawned⟩ := by
        simp only [Pool.step, placed.here i c hi, server, Pool.others, turned, Option.map_some]
      refine ⟨_, _, .single step, ⟨store, ?_⟩, one store⟩
      rw [call, spawned]
      exact (placed.turned hi).added t'.spawned
    · obtain ⟨after, starts⟩ := aside_turn_call other ht
      rw [starts, List.append_nil]
      have placed' := placed.aside hi other after
      cases aside_turn_maintained other ht with
      | unseen same => exact ⟨[], q, .start, ⟨same.symm.trans alike, pos, placed'⟩, none⟩
      | @wrote m x made wrote =>
        -- the job that makes the write holds no endpoint itself
        have seen : m.write? (viewOf q.store q.calls) = some x := by
          refine maintenance_alike alike (fun id held => ?_) made
          obtain ⟨o, ho, names⟩ := held
          obtain ⟨k, hk⟩ := List.mem_iff_getElem?.mp ho
          rcases placed.others k o hk with ⟨j, rfl, hj⟩ | idle
          · refine ⟨o, mem_coreCalls.mpr (List.mem_eraseIdx_iff_getElem?.mpr ⟨j, ?_, hj⟩), names⟩
            rintro rfl
            obtain rfl := Option.some.inj (hi.symm.trans hj)
            cases other
          · rw [(Call.isMaintained_idle idle).2] at names
            exact absurd names List.not_mem_nil
        obtain ⟨log, q', rfl, run, stores⟩ := @maintenance_run S.env _ _ _ seen
        have committed : t.store.core.Alike (q.store.commit x) := by
          rw [show t.store.core = p.store.core.commit x from wrote]
          exact alike.commit x
        refine ⟨log, _, run, ⟨committed, pos, placed'.maintained rfl⟩, fun u hu => ?_⟩
        rcases stores u hu with same | same
        · left
          show p.store.core.Alike u.store
          rw [same]
          exact alike
        · right
          show t.store.core.Alike u.store
          rw [same]
          exact committed

/-- Every run of the deployment is followed by a run of the server, at every moment of which the
rows of `System` are the same but for what workers write in deliveries, and the calls of `System`
are where they were, in the same order, with the same stages and answers. The server passes by no
rows that the deployment does not have at some moment, too. -/
theorem deployment_refines_server {S : Services}
    {log : List (Deployment × Act Operation ServiceMove)} {p : Deployment}
    (run : DeploymentRun S log p) :
    ∃ log' q, ServerRun S.env log' q ∧ Refines p q ∧
      Shadowed Refines (moments log p) (moments log' q) ∧
      ∀ u ∈ moments log' q, ∃ s ∈ moments log p, s.store.core.Alike u.store := by
  have start : Refines ⟨.empty, []⟩ Server.init := by
    refine ⟨.refl _, id, ?_, ?_, ?_⟩
    · exact fun _ _ h => nomatch h
    · exact fun _ _ _ _ h => nomatch h
    · exact fun _ _ h => nomatch h
  exact Simulates.run (deployment_simulates S) start start.store run

namespace Script

/-- The services, with a worker that can unlock what they lock. -/
def openServices : Services :=
  { services with worker := ⟨fun _ => true, fun wrapped _ => some wrapped, fun secret _ _ => secret⟩ }

/-- The app sets up its receiver and an endpoint, and the phone is verified; then a worker claims
the delivery and posts it. -/
def posting : List (Act Operation ServiceMove) :=
  alone ++
  [.arrive (.core (.startBinding ⟨app, receiver, phone⟩))] ++ jobTurns 1 3 (serviceWorld 1010) ++
  [.arrive (.core (.inbound receiver bindMessage))] ++ jobTurns 2 3 (serviceWorld 1020) ++
  [.arrive (.createWebhook ⟨app, WorkerScript.endpoint.url, [.verified]⟩)] ++
  jobTurns 3 3 (serviceWorld 1025) ++
  [.arrive (.core (.startVerification start))] ++ jobTurns 4 6 (serviceWorld 1030) ++
  [.arrive (.core (.inbound receiver verifyMessage))] ++ jobTurns 5 8 (serviceWorld 1050) ++
  [.arrive .tick] ++ jobTurns 6 3 (serviceWorld 2000)

/-- The request that a job has in flight. -/
def request? : Job → Option DeliveryRequest
  | .tick (.fetch _ request _) => some request
  | _ => none

/-- At the end the verification is verified, the delivery is claimed and the worker waits for an
answer; the endpoint was there from its creation on. -/
theorem posted : ∃ log p, DeploymentRun openServices log p ∧
    (p.store.core.verifications.map (·.status) = [.verified] ∧
      p.store.core.webhookDeliveries.map (·.nextAttemptAt) = [62000] ∧
      (p.calls[6]?.bind request?).isSome ∧
      (moments log p).Pairwise fun a b => ∀ e ∈ a.store.core.webhookEndpoints,
        hasKey (·.id) e.id b.store.core.webhookEndpoints = true) :=
  @run_of_exec_any _ _ _ posting _ _ _ (by decide +kernel)

end Script

/-- The server that follows the script has the verified row and the delivery, which a worker of the
deployment has claimed. -/
theorem deployment_refines_server_script : ∃ log p log' q,
    DeploymentRun Script.openServices log p ∧ ServerRun .ascii log' q ∧ Refines p q ∧
      q.store.verifications.map (·.status) = [.verified] ∧
      q.store.webhookDeliveries.map (·.drawn) = p.store.core.webhookDeliveries.map (·.drawn) ∧
      p.store.core.webhookDeliveries.map (·.nextAttemptAt) = [62000] := by
  obtain ⟨log, p, posted, verified, claimed, _⟩ := Script.posted
  obtain ⟨log', q, run, refines, _⟩ := deployment_refines_server posted
  obtain ⟨rows, same, drawn⟩ := refines.store
  refine ⟨log, p, log', q, posted, run, refines, ?_, ?_, claimed⟩
  · rw [same]
    exact verified
  · rw [same]
    exact drawn

end Syrotp
