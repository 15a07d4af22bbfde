import Syrotp.Server.Proofs.Locality

/-!
# Every job stays within the share

The operations beside those of `System`: webhook endpoints and WebAuthn. With them a turn of any job
of an app gives the same on the app's rows alone, leaves the others as they are, and every job is
still the app's.
-/

namespace Syrotp

section

variable {A : Id}

/-! ## Webhook endpoints -/

section

variable {db : Db} {W : WebhookService} {w : WebhookWorld} {input : CreateWebhookInput}

/-- The endpoint that a call is about to insert is the app's, under an id that is not taken. -/
def CreateWebhookPhase.Scoped (A : Id) (db : Db) : CreateWebhookPhase → Prop
  | .insert row _ => row.appId = A ∧
      hasKey (·.id) row.id (db.share A false).webhookEndpoints = false ∧
      hasKey (·.endpointId) row.id (db.share A false).webhookDeliveries = false
  | _ => True

theorem endpoints_share : (db.share A true).webhookEndpoints.filter (fun e => e.appId = A) =
    db.webhookEndpoints.filter fun e => e.appId = A :=
  filter_part fun _ _ hit => (inShare (of_decide_eq_true hit)).1

theorem endpoint_share {id : Id} :
    (db.share A true).webhookEndpoints.find? (fun e => e.appId = A ∧ e.id = id) =
      db.webhookEndpoints.find? fun e => e.appId = A ∧ e.id = id :=
  find?_part fun _ _ hit => (inShare (of_decide_eq_true hit).1).1

theorem createWebhookEndpoint_local {v : View} {phase : CreateWebhookPhase}
    (app : input.appId = A) (inside : phase.Scoped A v.db) :
    createWebhookEndpoint W (v.share A) w input phase =
      createWebhookEndpoint W v w input phase := by
  subst app
  cases phase with
  | validate => rfl
  | selectExisting events =>
    have existing : (v.share input.appId).db.webhookEndpoints.filter
        (fun e => e.appId = input.appId) =
          v.db.webhookEndpoints.filter fun e => e.appId = input.appId := endpoints_share
    simp only [createWebhookEndpoint, existing]
  | insert row secret =>
    have key : hasKey (·.id) row.id (v.share input.appId).db.webhookEndpoints =
        hasKey (·.id) row.id v.db.webhookEndpoints := hasKey_share inside.2.1
    simp only [createWebhookEndpoint, key]
  | done result => rfl
  | failed => rfl

theorem createWebhookEndpoint_inside {v : View} {phase phase' : CreateWebhookPhase}
    {x : Option Write} (fresh : w.toWorld.Fresh (v.db.share A false)) (app : input.appId = A)
    (inside : phase.Scoped A v.db)
    (h : createWebhookEndpoint W v w input phase = some (phase', x)) :
    (∀ write, x = some write → write.Inside A v.db) ∧ phase'.Scoped A v.db := by
  cases phase with
  | validate =>
    simp only [createWebhookEndpoint] at h
    split at h <;> obtain ⟨rfl, rfl⟩ := Option.some.inj h <;>
      exact ⟨forall_of_none, trivial⟩
  | selectExisting events =>
    simp only [createWebhookEndpoint] at h
    split at h <;> obtain ⟨rfl, rfl⟩ := Option.some.inj h
    · exact ⟨forall_of_none, trivial⟩
    · exact ⟨forall_of_none, app, fresh.endpoints 0, fresh.referenced 0⟩
  | insert row secret =>
    simp only [createWebhookEndpoint] at h
    split at h <;> obtain ⟨rfl, rfl⟩ := Option.some.inj h
    · exact ⟨forall_of_none, trivial⟩
    · refine ⟨fun _ same => Option.some.inj same ▸ ⟨⟨inside.1, ?_⟩, rfl⟩, trivial⟩
      exact fun d hd names => beq_iff_eq.mp (part_of_key inside.2.2 d hd names)
  | done result => cases h
  | failed => cases h

end

/-! ## WebAuthn -/

section

variable {db : WebauthnDb} {X : Webauthn} {held : Id → Bool} {w : World}

theorem consumeChallenge_local {clientRef : Text} {purpose : ChallengePurpose}
    {phase : ConsumePhase} :
    consumeChallenge (db.share A true) held w A clientRef purpose phase =
      consumeChallenge db held w A clientRef purpose phase := by
  have app : ∀ now c, activeChallenge A clientRef purpose now c = true →
      (decide (c.appId = A) == true) = true :=
    fun now c hit => (inShare (of_decide_eq_true hit).1).1
  cases phase with
  | snapshot =>
    have seen : (db.share A true).challenges.filter (activeChallenge A clientRef purpose w.now) =
        db.challenges.filter (activeChallenge A clientRef purpose w.now) :=
      filter_part fun c _ hit => app w.now c hit
    simp only [consumeChallenge, seen]
  | lock now candidates =>
    have free : (db.share A true).challenges.filter (fun c => c.id ∈ candidates ∧
        activeChallenge A clientRef purpose now c ∧ held c.id = false) =
          db.challenges.filter fun c => c.id ∈ candidates ∧
            activeChallenge A clientRef purpose now c ∧ held c.id = false :=
      filter_part fun c _ hit => app now c (of_decide_eq_true hit).2.1
    simp only [consumeChallenge, free]
  | markUsed now row => rfl

def WebauthnCall.appId : WebauthnCall → Id
  | .options input _ => input.appId
  | .register input _ => input.appId
  | .login input _ => input.appId

/-- A call of the app, and the rows that it has chosen to update are the app's. -/
structure WebauthnCall.Scoped (A : Id) (db : WebauthnDb) (c : WebauthnCall) : Prop where
  app : c.appId = A
  locked : ∀ id ∈ c.locks, hasKey (·.id) id (db.share A false).challenges = false
  updating : ∀ input id n, c = .login input (.update id n) →
    hasKey (·.id) id (db.share A false).credentials = false

theorem lookup_share {hash : Text} :
    hasKey (·.lookup) (A, hash) (db.share A true).credentials =
      hasKey (·.lookup) (A, hash) db.credentials :=
  hasKey_part fun _ _ same => (inShare (congrArg Prod.fst same)).1

theorem loginCredential_share {input : VerifyInput} (app : input.appId = A) :
    (db.share A true).credentials.find? (loginCredential X input) =
      db.credentials.find? (loginCredential X input) :=
  find?_part fun _ _ hit => (inShare ((of_decide_eq_true hit).1.trans app)).1

theorem webauthn_local (fresh : w.FreshWebauthn (db.share A false)) {c : WebauthnCall}
    (inside : c.Scoped A db) :
    c.statement X (db.share A true) held w = c.statement X db held w := by
  have app := inside.app
  cases c with
  | options input phase =>
    subst app
    cases phase with
    | insertChallenge options =>
      let row := createChallenge X w input.appId input.clientRef input.purpose options.challenge
      have key : hasKey (·.id) row.id (db.share input.appId true).challenges =
          hasKey (·.id) row.id db.challenges := hasKey_share (fresh.challenges 0)
      simp only [row] at key
      simp only [WebauthnCall.statement, buildOptions, WebauthnCall.appId, key]
    | _ => rfl
  | register input phase =>
    subst app
    cases phase with
    | consume phase =>
      simp only [WebauthnCall.statement, verifyRegister, WebauthnCall.appId, consumeChallenge_local]
    | selectExisting challenge =>
      simp only [WebauthnCall.statement, verifyRegister, WebauthnCall.appId, lookup_share]
    | insert info =>
      let row := info.row X w input
      have key : hasKey (·.id) row.id (db.share input.appId true).credentials =
          hasKey (·.id) row.id db.credentials := hasKey_share (fresh.credentials 0)
      have lookup : hasKey (·.lookup) row.lookup (db.share input.appId true).credentials =
          hasKey (·.lookup) row.lookup db.credentials := lookup_share
      simp only [row] at key lookup
      simp only [WebauthnCall.statement, verifyRegister, WebauthnCall.appId, key, lookup]
    | _ => rfl
  | login input phase =>
    subst app
    cases phase with
    | consume phase =>
      simp only [WebauthnCall.statement, verifyLogin, WebauthnCall.appId, consumeChallenge_local]
    | selectCredential challenge =>
      simp only [WebauthnCall.statement, verifyLogin, WebauthnCall.appId,
        loginCredential_share (A := input.appId) rfl]
    | _ => rfl

theorem WebauthnCall.appId_of_consuming {c : WebauthnCall} {x : Consuming}
    (h : c.consuming = some x) : c.appId = x.input.appId := by
  cases c with
  | options input phase => cases h
  | register input phase =>
    cases phase with
    | consume phase => exact Option.some.inj h ▸ rfl
    | _ => cases h
  | login input phase =>
    cases phase with
    | consume phase => exact Option.some.inj h ▸ rfl
    | _ => cases h

theorem WebauthnCall.appId_statement {c c' : WebauthnCall} {x : Option WebauthnWrite}
    (h : c.statement X db held w = some (c', x)) : c'.appId = c.appId := by
  cases c with
  | options input phase =>
    obtain ⟨_, _, same⟩ := Option.map_eq_some_iff.mp h
    exact (Prod.mk.inj same).1 ▸ rfl
  | register input phase =>
    obtain ⟨_, _, same⟩ := Option.map_eq_some_iff.mp h
    exact (Prod.mk.inj same).1 ▸ rfl
  | login input phase =>
    obtain ⟨_, _, same⟩ := Option.map_eq_some_iff.mp h
    exact (Prod.mk.inj same).1 ▸ rfl

/-- A call of the app updates no credential, and the challenges that it has locked are the app's. -/
theorem WebauthnCall.Scoped.of_locks {c : WebauthnCall} (app : c.appId = A)
    (locked : ∀ id ∈ c.locks, hasKey (·.id) id (db.share A false).challenges = false)
    (still : ∀ u, c.updating ≠ some u) : c.Scoped A db :=
  ⟨app, locked, fun _ _ _ same => absurd (congrArg WebauthnCall.updating same) (still _)⟩

theorem webauthn_inside (I : db.Inv) {c c' : WebauthnCall} {x : Option WebauthnWrite}
    (inside : c.Scoped A db) (h : c.statement X db held w = some (c', x)) :
    (∀ write, x = some write → write.Of A db) ∧ c'.Scoped A db := by
  have app : c'.appId = A := (WebauthnCall.appId_statement h).trans inside.app
  have locking : ∀ {x : Consuming}, c'.consuming = some x →
      (∀ id ∈ x.phase.locks, hasKey (·.id) id (db.share A false).challenges = false) →
      c'.Scoped A db := by
    intro x next locked
    refine .of_locks app (fun id hid => locked id ?_) fun _ => c'.updating_of_consuming next
    simpa only [c'.locks_eq, next, Option.elim_some] using hid
  have idle : c'.consuming = none → (∀ u, c'.updating ≠ some u) → c'.Scoped A db := by
    intro left still
    refine .of_locks app (fun id hid => ?_) still
    rw [c'.locks_eq, left] at hid
    cases hid
  cases webauthn_step h with
  | issue => exact ⟨fun _ same => Option.some.inj same ▸ inside.app, idle rfl (by rintro _ ⟨⟩)⟩
  | snapshot _ _ next => exact ⟨forall_of_none, locking next fun _ hid => by cases hid⟩
  | @lock _ _ x now candidates row here _ chosen next =>
    refine ⟨forall_of_none, locking next fun id hid => ?_⟩
    obtain rfl := List.mem_singleton.mp hid
    have free := (List.mem_filter.mp (List.mem_of_getElem? chosen)).1
    obtain ⟨hrow, hit⟩ := List.mem_filter.mp free
    have same : row.appId = x.input.appId := (of_decide_eq_true (of_decide_eq_true hit).2.1).1
    have mine : x.input.appId = A := (WebauthnCall.appId_of_consuming here).symm.trans inside.app
    exact key_of_part I.challengeIds hrow (decide_eq_true (same.trans mine))
  | miss _ _ _ left next =>
    exact ⟨forall_of_none, idle left fun _ => c'.updating_of_holding next⟩
  | @markUsed _ _ x now row here marking left next =>
    refine ⟨fun write same => Option.some.inj same ▸ fun ch hch id => ?_,
      idle left fun _ => c'.updating_of_holding next⟩
    have held : row.id ∈ c.locks := by
      rw [c.locks_eq, here, Option.elim_some, marking]
      exact List.mem_singleton_self _
    have mine := part_of_key (inside.locked row.id held) ch hch id
    exact of_decide_eq_true (beq_iff_eq.mp mine)
  | insertCredential =>
    exact ⟨fun _ same => Option.some.inj same ▸ inside.app, idle rfl (by rintro _ ⟨⟩)⟩
  | @assert input challenge row expected newCounter found =>
    refine ⟨forall_of_none, app, fun id hid => absurd hid List.not_mem_nil, ?_⟩
    intro _ id n same
    obtain ⟨rfl, _⟩ := LoginPhase.update.inj (WebauthnCall.login.inj same).2
    have hit : loginCredential X input row = true := List.find?_some found
    have rowApp : row.appId = A := (of_decide_eq_true hit).1.trans inside.app
    exact key_of_part I.credentialIds (List.mem_of_find?_eq_some found) (decide_eq_true rowApp)
  | updateCredential =>
    refine ⟨fun _ same => Option.some.inj same ▸ fun cred hcred id => ?_,
      idle rfl (by rintro _ ⟨⟩)⟩
    have mine := part_of_key (inside.updating _ _ _ rfl) cred hcred id
    exact of_decide_eq_true (beq_iff_eq.mp mine)
  | enter _ next => exact ⟨forall_of_none, locking next fun _ hid => by cases hid⟩
  | other _ left _ still => exact ⟨forall_of_none, idle left (by simp [still])⟩

end

/-! ## Jobs -/

def AppQuery.appId : AppQuery → Id
  | .binding appId _ => appId
  | .webhooks appId => appId
  | .webhook appId _ => appId

/-- A job of the app. -/
def Job.Scoped (A : Id) (d : Database) : Job → Prop
  | .core c => c.Scoped A d.core
  | .query q _ => q.appId = A
  | .createWebhook input phase => input.appId = A ∧ phase.Scoped A d.core
  | .deleteWebhook appId _ _ => appId = A
  | .webauthn c => c.Scoped A d.webauthn
  | .tick _ => False

/-- The endpoints that a job keeps from being deleted. -/
def Job.references : Job → List Id
  | .core c => c.references
  | _ => []

/-- No id drawn is one of the database's. -/
def ServiceWorld.Fresh (w : ServiceWorld) (d : Database) : Prop :=
  w.toWorld.Fresh d.core ∧ w.toWorld.FreshWebauthn d.webauthn

section

variable {S : Services} {d : Database} {others : List Job} {w : ServiceWorld}

theorem AppQuery.answer_share {db : Db} {rank : Id → Nat} {q : AppQuery} (app : q.appId = A) :
    q.answer (db.share A true) rank = q.answer db rank := by
  subst app
  cases q with
  | binding appId id => simp only [AppQuery.answer, AppQuery.appId, getBinding_share]
  | webhooks appId =>
    simp only [AppQuery.answer, AppQuery.appId, listWebhookEndpoints, endpoints_share]
  | webhook appId id =>
    simp only [AppQuery.answer, AppQuery.appId, getWebhookEndpoint, endpoint_share]

/-- No job of an app is a worker. -/
theorem webhookView_idle (idle : ∀ o ∈ others, o.Scoped A d) (db : Db) :
    webhookView db others = viewOf db (coreCalls others) := by
  have unlocked : ∀ id, lockedDelivery others id = false := by
    intro id
    refine List.any_eq_false.mpr fun o ho held => ?_
    cases o with
    | tick phase => exact idle _ ho
    | _ => exact List.not_mem_nil (of_decide_eq_true held)
  have none : (db.webhookDeliveries.any fun _ => false) = false :=
    List.any_eq_false.mpr fun _ _ => Bool.false_ne_true
  simp [webhookView, viewOf, unlocked, none]

/-- A delete only happens to the endpoint that is asked for, when no one refers to it. -/
theorem deleteWebhookEndpoint_write {v : View} {appId id : Id} {result : Except ApiError Unit}
    {x : Option Write} (h : deleteWebhookEndpoint v appId id = some (result, x)) :
    ∀ write, x = some write → write = .deleteEndpoint appId id ∧ v.referenced id = false := by
  intro write same
  unfold deleteWebhookEndpoint at h
  split at h
  · obtain ⟨rfl, rfl⟩ := Option.some.inj h
    exact nomatch same
  · next row found =>
    obtain ⟨free, h⟩ := Option.ite_none_left_eq_some.mp h
    obtain ⟨rfl, rfl⟩ := Option.some.inj h
    have hit : row.appId = appId ∧ row.id = id := by simpa using List.find?_some found
    exact ⟨(Option.some.inj same).symm, hit.2 ▸ Bool.eq_false_iff.mpr free⟩

theorem WebauthnDb.share_commitOption {db : WebauthnDb} {x : Option WebauthnWrite}
    (of : ∀ write, x = some write → write.Of A db) :
    (db.commitOption x).share A true = (db.share A true).commitOption x ∧
      (db.commitOption x).share A false = db.share A false := by
  cases x with
  | none => exact ⟨rfl, rfl⟩
  | some write => exact WebauthnDb.share_commit (of write rfl)

theorem job_local (I : d.Inv S) (fresh : w.Fresh (d.share A false)) {job : Job}
    (ok : job.Ok S d) (inside : job.Scoped A d) (idle : ∀ o ∈ others, o.Scoped A d) :
    (job.statement S d others w).map (Turn.mapStore (Database.share · A true)) =
      job.statement S (d.share A true) others w := by
  have core : ∀ {x : Option Write}, (∀ write, x = some write → write.Inside A d.core) →
      (d.core.commitOption x).share A true = (d.core.share A true).commitOption x :=
    fun inside => (Db.share_commitOption fun x hx => (inside x hx).of).1
  cases job with
  | core c =>
    have same := statement_local (v := viewOf d.core (coreCalls others)) I.core I.tenancy fresh.1
      ok.1 ok.2 inside
    have seen : (viewOf d.core (coreCalls others)).share A =
        viewOf (d.share A true).core (coreCalls others) := rfl
    simp only [Job.statement, ← seen, ← same, Option.map_map]
    rfl
  | query q phase =>
    cases phase with
    | ready =>
      simp only [Job.statement, show (d.share A true).core = d.core.share A true from rfl,
        AppQuery.answer_share inside]
      rfl
    | _ => rfl
  | createWebhook input phase =>
    have seen : (webhookView d.core others).share A = webhookView (d.share A true).core others := by
      rw [webhookView_idle idle, webhookView_idle idle]
      rfl
    have same := createWebhookEndpoint_local (W := S.webhooks) (w := w.toWebhookWorld)
      (v := webhookView d.core others) inside.1 inside.2
    simp only [Job.statement, ← seen, same]
    exact Turn.map_mapStore fun r hr => congrArg (Database.mk · _)
      (core (createWebhookEndpoint_inside fresh.1 inside.1 inside.2 hr).1)
  | deleteWebhook appId id phase =>
    obtain rfl : appId = A := inside
    cases phase with
    | ready =>
      have same : deleteWebhookEndpoint (webhookView (d.share appId true).core others) appId id =
          deleteWebhookEndpoint (webhookView d.core others) appId id := by
        rw [webhookView_idle idle, webhookView_idle idle]
        have found : (viewOf (d.share appId true).core (coreCalls others)).db.webhookEndpoints.find?
            (fun e => e.appId = appId ∧ e.id = id) =
              d.core.webhookEndpoints.find? fun e => e.appId = appId ∧ e.id = id :=
          endpoint_share
        simp only [deleteWebhookEndpoint, found]
        rfl
      simp only [Job.statement, same]
      exact Turn.map_mapStore fun r hr => congrArg (Database.mk · _)
        (Db.share_commitOption fun x hx => (deleteWebhookEndpoint_write hr x hx).1 ▸ rfl).1
    | _ => rfl
  | webauthn c =>
    have same : c.statement S.webauthn (d.share A true).webauthn (lockedChallenge others) w.toWorld =
        c.statement S.webauthn d.webauthn (lockedChallenge others) w.toWorld :=
      webauthn_local fresh.2 inside
    simp only [Job.statement, same]
    exact Turn.map_mapStore fun r hr => congrArg (Database.mk _ ·)
      (WebauthnDb.share_commitOption (webauthn_inside I.webauthn inside hr).1).1
  | tick phase => exact inside.elim

/-! ### What a turn leaves behind -/

/-- The rows of the others and all receivers are as they were, and every job is the app's. -/
structure JobTurn (A : Id) (d : Database) (others : List Job) (t : Turn Database Job) : Prop where
  foreign : t.store.share A false = d.share A false
  receivers : t.store.core.receivers = d.core.receivers
  call : t.call.Scoped A t.store
  spawned : ∀ n ∈ t.spawned, n.Scoped A t.store
  theirs : ∀ o, o.references = [] ∨ o ∈ others → o.Scoped A d → o.Scoped A t.store

theorem Job.Scoped.commit {job : Job} (h : job.Scoped A d) {x : Option Write}
    (of : ∀ write, x = some write → write.Of A d.core)
    (stays : ∀ write id, x = some write → write.deletes = some id → id ∉ job.references) :
    job.Scoped A { d with core := d.core.commitOption x } := by
  cases x with
  | none => exact h
  | some write =>
    cases job with
    | core c => exact Call.Scoped.commit h (of write rfl) fun id => stays write id rfl
    | createWebhook input phase =>
      refine ⟨h.1, ?_⟩
      have inside := h.2
      cases phase with
      | insert row secret =>
        unfold CreateWebhookPhase.Scoped at inside ⊢
        rw [show (d.core.commitOption (some write)).share A false = d.core.share A false from
          (Db.share_commit (of write rfl)).2]
        exact inside
      | _ => trivial
    | _ => exact h

theorem Job.Scoped.commitWebauthn {job : Job} (h : job.Scoped A d) {x : Option WebauthnWrite}
    (of : ∀ write, x = some write → write.Of A d.webauthn) :
    job.Scoped A { d with webauthn := d.webauthn.commitOption x } := by
  cases job with
  | webauthn c =>
    have others := (WebauthnDb.share_commitOption of).2
    exact ⟨h.app, others ▸ h.locked, others ▸ h.updating⟩
  | _ => exact h

theorem commit_receivers {db : Db} {write : Write} (of : write.Of A db) :
    (db.commit write).receivers = db.receivers := by
  cases write with
  | putReceiver row => exact of.elim
  | _ => rfl

/-- A turn that writes in the tables of `System`. -/
theorem JobTurn.core {x : Option Write} {next : Job} {spawned : List Job}
    (of : ∀ write, x = some write → write.Of A d.core)
    (stays : ∀ write id, x = some write → write.deletes = some id →
      ∀ o, o = next ∨ o ∈ spawned ∨ o ∈ others → id ∉ o.references)
    (call : next.Scoped A d) (new : ∀ n ∈ spawned, n.Scoped A d) :
    JobTurn A d others ⟨{ d with core := d.core.commitOption x }, next, spawned⟩ where
  foreign := congrArg (Database.mk · _) (Db.share_commitOption of).2
  receivers := by
    cases x with
    | none => rfl
    | some write => exact commit_receivers (of write rfl)
  call := call.commit of fun write id same gone => stays write id same gone _ (.inl rfl)
  spawned := fun n hn =>
    (new n hn).commit of fun write id same gone => stays write id same gone n (.inr (.inl hn))
  theirs := by
    intro o ho inside
    refine inside.commit of fun write id same gone => ?_
    rcases ho with none | theirs
    · rw [none]
      exact List.not_mem_nil
    · exact stays write id same gone o (.inr (.inr theirs))

/-- One that deletes no endpoint. -/
theorem JobTurn.inside {x : Option Write} {next : Job} {spawned : List Job}
    (write : ∀ write, x = some write → write.Inside A d.core) (call : next.Scoped A d)
    (new : ∀ n ∈ spawned, n.Scoped A d) :
    JobTurn A d others ⟨{ d with core := d.core.commitOption x }, next, spawned⟩ := by
  refine JobTurn.core (fun x hx => (write x hx).of) ?_ call new
  intro y id same gone
  rw [(write y same).keeps] at gone
  contradiction

theorem job_inside (I : d.Inv S) (fresh : w.Fresh (d.share A false)) {job : Job}
    (ok : job.Ok S d) (inside : job.Scoped A d) (idle : ∀ o ∈ others, o.Scoped A d)
    {t : Turn Database Job} (h : job.statement S d others w = some t) : JobTurn A d others t := by
  cases job with
  | core c =>
    obtain ⟨t', ht', rfl⟩ := Option.map_eq_some_iff.mp h
    obtain ⟨x, turn⟩ := statement_inside (v := viewOf d.core (coreCalls others)) I.core I.tenancy
      fresh.1 ok.1 inside ht'
    rw [turn.store]
    refine JobTurn.inside turn.write turn.call ?_
    intro n hn
    obtain ⟨o, ho, rfl⟩ := List.mem_map.mp hn
    exact turn.spawned o ho
  | query q phase =>
    cases phase with
    | ready =>
      obtain rfl := Option.some.inj h
      exact ⟨rfl, rfl, inside, (fun _ hn => absurd hn List.not_mem_nil), fun _ _ inside => inside⟩
    | _ => exact nomatch h
  | createWebhook input phase =>
    obtain ⟨⟨phase', x⟩, hr, rfl⟩ := Option.map_eq_some_iff.mp h
    obtain ⟨write, phaseInside⟩ := createWebhookEndpoint_inside fresh.1 inside.1 inside.2 hr
    exact JobTurn.inside write ⟨inside.1, phaseInside⟩ (fun _ hn => absurd hn List.not_mem_nil)
  | deleteWebhook appId id phase =>
    cases phase with
    | ready =>
      obtain ⟨⟨result, x⟩, hr, rfl⟩ := Option.map_eq_some_iff.mp h
      have written := deleteWebhookEndpoint_write hr
      refine JobTurn.core (fun x hx => (written x hx).1 ▸ inside) ?_ inside
        (fun _ hn => absurd hn List.not_mem_nil)
      intro write gone same deletes o ho
      obtain ⟨rfl, free⟩ := written write same
      obtain rfl := Option.some.inj deletes
      rcases ho with rfl | new | theirs
      · exact List.not_mem_nil
      · exact absurd new List.not_mem_nil
      · intro refers
        cases o with
        | core c =>
          rw [webhookView_idle idle] at free
          have taken : (viewOf d.core (coreCalls others)).referenced id = true :=
            List.any_eq_true.mpr ⟨c, mem_coreCalls.mpr theirs, decide_eq_true refers⟩
          rw [free] at taken
          contradiction
        | _ => exact List.not_mem_nil refers
    | _ => exact nomatch h
  | webauthn c =>
    obtain ⟨⟨c', x⟩, hr, rfl⟩ := Option.map_eq_some_iff.mp h
    obtain ⟨of, call⟩ := webauthn_inside I.webauthn inside hr
    have next : Job.Scoped A d (.webauthn c') := call
    exact ⟨congrArg (Database.mk _ ·) (WebauthnDb.share_commitOption of).2, rfl,
      next.commitWebauthn of, (fun _ hn => absurd hn List.not_mem_nil),
      fun _ _ inside => inside.commitWebauthn of⟩
  | tick phase => exact inside.elim

/-- A call that failed or caught an exception stays the app's. -/
theorem Call.Scoped.failed {db : Db} {c : Call} (h : c.Scoped A db) :
    c.crashed.Scoped A db ∧ c.thrown.Scoped A db := by
  cases c with
  | start input phase => exact ⟨⟨h.1, trivial⟩, h.1, trivial⟩
  | rejected error => exact ⟨h, h⟩
  | inbound input phase =>
    have ended : Call.Scoped A db (.inbound input .failed) :=
      ⟨h.1, forall_of_none, trivial⟩
    refine ⟨ended, ?_⟩
    cases phase with
    | insert => exact ⟨h.1, forall_of_none, trivial⟩
    | _ => exact ended
  | cancel appId id phase => exact ⟨h.cancelled, h.cancelled⟩
  | expire id phase => exact ⟨trivial, trivial⟩
  | read r phase => exact ⟨h.reads, h.reads⟩
  | bind input phase =>
    cases phase with
    | insert row sendTo now => exact ⟨h.1, h.1⟩
    | _ => exact ⟨h, h⟩
  | revoke appId id phase => exact ⟨h, h⟩
  | maintain m phase => exact h.elim

theorem Job.Scoped.failed {job : Job} (h : job.Scoped A d) :
    job.failed.Scoped A d ∧ job.thrown.Scoped A d := by
  cases job with
  | core c => exact Call.Scoped.failed h
  | query q phase => exact ⟨h, h⟩
  | createWebhook input phase => exact ⟨⟨h.1, trivial⟩, h.1, trivial⟩
  | deleteWebhook appId id phase => exact ⟨h, h⟩
  | webauthn c =>
    have ended : c.failed.Scoped A d.webauthn := by
      refine ⟨?_, ?_, ?_⟩
      · cases c <;> exact h.app
      · intro id hid
        cases c <;> exact absurd hid List.not_mem_nil
      · intro _ _ _ same
        cases c <;> exact nomatch same
    exact ⟨ended, ended⟩
  | tick phase => exact h.elim

theorem Job.thrown_references (job : Job) : job.thrown.references = [] := by
  cases job with
  | core c =>
    cases c with
    | inbound input phase => cases phase <;> rfl
    | _ => rfl
  | _ => rfl

theorem turn_local (I : d.Inv S) {job : Job} (ok : job.Ok S d) (inside : job.Scoped A d)
    (idle : ∀ o ∈ others, o.Scoped A d) {m : ServiceMove}
    (fresh : ∀ w, m.world? = some w → w.Fresh (d.share A false)) :
    (job.turn S d others m).map (Turn.mapStore (Database.share · A true)) =
      job.turn S (d.share A true) others m := by
  cases m with
  | statement w => exact job_local I (fresh w rfl) ok inside idle
  | lost w =>
    simp only [Job.turn, ← job_local I (fresh w rfl) ok inside idle, Option.map_map]
    rfl
  | error =>
    unfold Job.turn
    cases job.inFlight <;> rfl
  | crash =>
    unfold Job.turn
    cases job.inFlight <;> rfl

theorem turn_inside (I : d.Inv S) {job : Job} (ok : job.Ok S d) (inside : job.Scoped A d)
    (idle : ∀ o ∈ others, o.Scoped A d) {m : ServiceMove}
    (fresh : ∀ w, m.world? = some w → w.Fresh (d.share A false)) {t : Turn Database Job}
    (h : job.turn S d others m = some t) : JobTurn A d others t := by
  cases m with
  | statement w => exact job_inside I (fresh w rfl) ok inside idle h
  | lost w =>
    obtain ⟨t', ht', rfl⟩ := Option.map_eq_some_iff.mp h
    have turn := job_inside I (fresh w rfl) ok inside idle ht'
    exact ⟨turn.foreign, turn.receivers, turn.theirs _ (.inl job.thrown_references) inside.failed.2,
      (fun _ hn => absurd hn List.not_mem_nil), turn.theirs⟩
  | error =>
    obtain rfl := Option.some.inj (Option.ite_none_right_eq_some.mp h).2
    exact ⟨rfl, rfl, inside.failed.2, (fun _ hn => absurd hn List.not_mem_nil),
      fun _ _ inside => inside⟩
  | crash =>
    obtain rfl := Option.some.inj (Option.ite_none_right_eq_some.mp h).2
    exact ⟨rfl, rfl, inside.failed.1, (fun _ hn => absurd hn List.not_mem_nil),
      fun _ _ inside => inside⟩

end

end

end Syrotp
