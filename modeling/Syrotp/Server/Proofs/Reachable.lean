import Syrotp.Server.Proofs.Ceremonies
import Syrotp.Server.Proofs.Tenancy
import Syrotp.Server.Proofs.TickStep

/-!
# What every reachable database keeps

The calls of `System` keep their discipline with the other jobs beside them: an endpoint that is
created or deleted, and what a worker writes in a delivery, disturb no assertion of theirs.
-/

namespace Syrotp

/-! ## Changes that no call relies on -/

/-- What a worker leaves alone in a delivery. -/
def WebhookDelivery.key (d : WebhookDelivery) : Id × Id × Id := (d.id, d.endpointId, d.eventId)

/-- The database has kept its invariants, and every call what it relies on. -/
structure Quiet (env : Env) (db db' : Db) : Prop where
  inv : Db.Inv env db'
  tenancy : db'.Tenancy
  ok : ∀ c : Call, c.Ok env db → c.Ok env db'
  kept : ∀ c : Call, c.Kept db → c.Kept db'

section

variable {env : Env} {db : Db}

theorem Quiet.refl (I : Db.Inv env db) (T : db.Tenancy) : Quiet env db db :=
  ⟨I, T, fun _ h => h, fun _ h => h⟩

/-- A justified write of rows that no one owns. -/
theorem Quiet.commit {w : Write} (I : Db.Inv env db) (T : db.Tenancy) (J : Justified env db w)
    (settles : w.Settles db) (unowned : w.tokens = []) : Quiet env db (db.commit w) where
  inv := I.commit J
  tenancy := T.commit J settles
  ok := fun _ h => h.commit J fun _ _ => unowned ▸ List.not_mem_nil
  kept := fun _ h => h.commit settles

variable {rows : List WebhookDelivery}

/-- Deliveries with the same keys. -/
theorem hasKey_deliveries (same : rows.map (·.key) = db.webhookDeliveries.map (·.key))
    {k : Id} (h : hasKey (·.id) k db.webhookDeliveries = false) :
    hasKey (·.id) k rows = false := by
  rw [hasKey_eq_false] at h ⊢
  intro d hd
  have mem : d.key ∈ db.webhookDeliveries.map (·.key) := same ▸ List.mem_map_of_mem hd
  obtain ⟨x, hx, key⟩ := List.mem_map.mp mem
  intro id
  exact h x hx ((congrArg Prod.fst key).trans id)

theorem Emission.Fresh.deliveries
    (same : rows.map (·.key) = db.webhookDeliveries.map (·.key)) {e : Emission}
    (h : e.Fresh db) : e.Fresh { db with webhookDeliveries := rows } := by
  cases e with
  | returned eventId t ds => exact ⟨h.1, fun d hd => hasKey_deliveries same (h.2.1 d hd), h.2.2⟩
  | _ => exact h

theorem Emitting.deliveries (same : rows.map (·.key) = db.webhookDeliveries.map (·.key))
    {row : Verification} {eventType : VerificationEventType} {inbound : Option Id} {e : Emission}
    (h : Emitting env db row eventType inbound e) :
    Emitting env { db with webhookDeliveries := rows } row eventType inbound e := by
  obtain ⟨v, hv, pending, resolves, backed, fresh⟩ := h
  refine ⟨v, hv, pending, resolves, ?_, fresh.deliveries same⟩
  cases inbound <;> exact backed

theorem Call.Ok.deliveries (same : rows.map (·.key) = db.webhookDeliveries.map (·.key))
    {c : Call} (h : c.Ok env db) : c.Ok env { db with webhookDeliveries := rows } := by
  cases c with
  | start input phase =>
    cases phase with
    | commit receiver row => exact ⟨h.pending, h.kind, h.unmatched, h.normalized, h.custody,
        h.newId, h.newCode⟩
    | _ => exact h
  | inbound input phase =>
    cases phase with
    | emit i row emission => exact ⟨h.1, h.2.deliveries same⟩
    | commit i row emission => exact ⟨h.1, h.2.deliveries same⟩
    | done outcome => cases outcome <;> exact h
    | _ => exact h
  | cancel appId id phase =>
    cases phase with
    | emit row emission => exact Emitting.deliveries same h
    | _ => trivial
  | expire id phase =>
    cases phase with
    | emit row emission => exact Emitting.deliveries same h
    | _ => trivial
  | bind input phase => cases phase <;> exact h
  | _ => trivial

theorem Quiet.deliveries (I : Db.Inv env db) (T : db.Tenancy)
    (same : rows.map (·.key) = db.webhookDeliveries.map (·.key)) :
    Quiet env db { db with webhookDeliveries := rows } where
  inv :=
    { I with
      deliveryOf := by
        intro d hd
        have mem : d.key ∈ db.webhookDeliveries.map (·.key) := same ▸ List.mem_map_of_mem hd
        obtain ⟨x, hx, key⟩ := List.mem_map.mp mem
        obtain ⟨e, he, event⟩ := I.deliveryOf x hx
        exact ⟨e, he, (congrArg (·.2.2) key).symm.trans event⟩ }
  tenancy := ⟨T.receiverIds, T.verifications, T.bindings⟩
  ok := fun _ h => h.deliveries same
  kept := by
    intro c h
    cases c with
    | start input phase => cases phase <;> exact h
    | bind input phase => cases phase <;> exact h
    | _ => trivial

end

/-- A worker only writes in deliveries, and not in their keys. -/
theorem webhookTick_deliveries {W : WebhookPlatform} {locked : Id → Bool} {w : WorkerWorld}
    {db db' : Db} {phase phase' : WorkerPhase}
    (h : webhookTick W locked w db phase = some (phase', db')) :
    ∃ rows, db' = { db with webhookDeliveries := rows } ∧
      rows.map (·.key) = db.webhookDeliveries.map (·.key) := by
  cases webhookTick_step h with
  | leased => exact ⟨_, rfl, map_updateWhere fun _ => rfl⟩
  | applied =>
    refine ⟨_, rfl, map_updateWhere fun d => ?_⟩
    unfold applyOutcome
    repeat' split
    all_goals rfl
  | _ => exact ⟨_, rfl, rfl⟩

/-! ## Ceremonies -/

structure WebauthnDb.Inv (db : WebauthnDb) : Prop where
  credentialIds : (db.credentials.map (·.id)).Nodup
  lookups : (db.credentials.map (·.lookup)).Nodup
  challengeIds : (db.challenges.map (·.id)).Nodup

/-- What a ceremony has checked when it commits a write. -/
def WebauthnWrite.Justified (db : WebauthnDb) : WebauthnWrite → Prop
  | .insertChallenge row => hasKey (·.id) row.id db.challenges = false
  | .insertCredential row => hasKey (·.id) row.id db.credentials = false ∧
      hasKey (·.lookup) row.lookup db.credentials = false
  | _ => True

theorem WebauthnDb.Inv.commit {db : WebauthnDb} {w : WebauthnWrite} (I : db.Inv)
    (J : w.Justified db) : (db.commit w).Inv := by
  cases w with
  | insertChallenge row => exact ⟨I.credentialIds, I.lookups, nodup_insert I.challengeIds J⟩
  | useChallenge id t =>
    exact ⟨I.credentialIds, I.lookups, nodup_updateWhere (fun _ => rfl) I.challengeIds⟩
  | insertCredential row =>
    exact ⟨nodup_insert I.credentialIds J.1, nodup_insert I.lookups J.2, I.challengeIds⟩
  | updateCredential id n t =>
    exact ⟨nodup_updateWhere (fun _ => rfl) I.credentialIds,
      nodup_updateWhere (fun _ => rfl) I.lookups, I.challengeIds⟩

theorem webauthn_justified {X : Webauthn} {db : WebauthnDb} {held : Id → Bool} {w : World}
    {c c' : WebauthnCall} {write : WebauthnWrite}
    (h : c.statement X db held w = some (c', some write)) : write.Justified db := by
  cases webauthn_step h with
  | issue fresh => exact fresh
  | markUsed => trivial
  | @insertCredential input info =>
    obtain ⟨_, hr, same⟩ := Option.map_eq_some_iff.mp h
    simp only [verifyRegister] at hr
    split at hr
    · obtain rfl := Option.some.inj hr
      cases same
    · next fresh =>
      simp only [Bool.or_eq_true, not_or, Bool.not_eq_true] at fresh
      exact fresh.1
  | updateCredential => trivial

/-! ## Jobs -/

structure Database.Inv (S : Services) (d : Database) : Prop where
  core : Db.Inv S.env d.core
  tenancy : d.core.Tenancy
  webauthn : d.webauthn.Inv

theorem Database.Inv.empty (S : Services) : Database.Inv S .empty where
  core := .empty S.env
  tenancy := .empty
  webauthn := by constructor <;> simp [Database.empty, WebauthnDb.empty]

def Job.Ok (S : Services) (d : Database) : Job → Prop
  | .core c => c.Ok S.env d.core ∧ c.Kept d.core
  | _ => True

def Job.tokens : Job → List Token
  | .core c => c.tokens
  | _ => []

theorem mem_coreCalls {jobs : List Job} {c : Call} : c ∈ coreCalls jobs ↔ Job.core c ∈ jobs := by
  unfold coreCalls
  rw [List.mem_filterMap]
  constructor
  · rintro ⟨job, hj, same⟩
    cases job with
    | core x => exact Option.some.inj same ▸ hj
    | _ => exact nomatch same
  · exact fun h => ⟨_, h, rfl⟩

section

variable {S : Services} {d : Database} {others : List Job}

/-- A turn of a call of `System` is its turn there. -/
theorem core_turn {c : Call} {m : ServiceMove} {t : Turn Database Job}
    (h : (Job.core c).turn S d others m = some t) :
    ∃ m' t', c.turn S.env d.core (coreCalls others) m' = some t' ∧
      t = ⟨{ d with core := t'.store }, .core t'.call, t'.spawned.map .core⟩ := by
  cases m with
  | statement w =>
    obtain ⟨t', ht', rfl⟩ := Option.map_eq_some_iff.mp h
    exact ⟨.statement w.toWorld, t', ht', rfl⟩
  | error =>
    obtain ⟨flying, same⟩ := Option.ite_none_right_eq_some.mp h
    exact ⟨.error, _, if_pos flying, (Option.some.inj same).symm⟩
  | lost w =>
    obtain ⟨lifted, hl, rfl⟩ := Option.map_eq_some_iff.mp h
    obtain ⟨t', ht', rfl⟩ := Option.map_eq_some_iff.mp hl
    have lost : c.turn S.env d.core (coreCalls others) (.lost w.toWorld) =
        some ⟨t'.store, c.thrown, []⟩ := Option.map_eq_some_iff.mpr ⟨t', ht', rfl⟩
    exact ⟨.lost w.toWorld, _, lost, rfl⟩
  | crash =>
    obtain ⟨flying, same⟩ := Option.ite_none_right_eq_some.mp h
    exact ⟨.crash, _, if_pos flying, (Option.some.inj same).symm⟩

/-- Creating an endpoint writes its row, under a new id. -/
theorem createWebhookEndpoint_write {env : Env} {W : WebhookService} {v : View} {w : WebhookWorld}
    {input : CreateWebhookInput} {phase phase' : CreateWebhookPhase} {write : Write}
    (h : createWebhookEndpoint W v w input phase = some (phase', some write)) :
    Justified env v.db write ∧ write.Settles v.db ∧ write.tokens = [] := by
  cases phase with
  | validate =>
    simp only [createWebhookEndpoint] at h
    split at h <;> exact nomatch h
  | selectExisting events =>
    simp only [createWebhookEndpoint] at h
    split at h <;> exact nomatch h
  | insert row secret =>
    simp only [createWebhookEndpoint] at h
    split at h
    · exact nomatch h
    · next fresh =>
      obtain ⟨_, same⟩ := Prod.mk.inj (Option.some.inj h)
      exact Option.some.inj same ▸ ⟨Bool.eq_false_iff.mpr fresh, trivial, rfl⟩
  | done result => exact nomatch h
  | failed => exact nomatch h

/-- What a statement of another job leaves behind: nothing that a call of `System` relies on has
changed, and nothing is started. -/
structure Aside (S : Services) (d : Database) (t : Turn Database Job) : Prop where
  quiet : Quiet S.env d.core t.store.core
  webauthn : t.store.webauthn.Inv
  call : t.call.core? = none
  spawned : t.spawned = []

theorem aside_statement (I : d.Inv S) {job : Job} (other : job.core? = none) {w : ServiceWorld}
    {t : Turn Database Job} (h : job.statement S d others w = some t) : Aside S d t := by
  have idle := Quiet.refl I.core I.tenancy
  cases job with
  | core c => exact nomatch other
  | query q phase =>
    cases phase with
    | ready => exact Option.some.inj h ▸ ⟨idle, I.webauthn, rfl, rfl⟩
    | _ => exact nomatch h
  | createWebhook input phase =>
    obtain ⟨⟨phase', x⟩, hr, rfl⟩ := Option.map_eq_some_iff.mp h
    refine ⟨?_, I.webauthn, rfl, rfl⟩
    cases x with
    | none => exact idle
    | some write =>
      obtain ⟨justified, settles, unowned⟩ := createWebhookEndpoint_write hr
      exact .commit I.core I.tenancy justified settles unowned
  | deleteWebhook appId id phase =>
    cases phase with
    | ready =>
      obtain ⟨⟨result, x⟩, hr, rfl⟩ := Option.map_eq_some_iff.mp h
      refine ⟨?_, I.webauthn, rfl, rfl⟩
      unfold deleteWebhookEndpoint at hr
      split at hr
      · obtain ⟨_, rfl⟩ := Prod.mk.inj (Option.some.inj hr)
        exact idle
      · obtain ⟨_, rfl⟩ := Prod.mk.inj (Option.some.inj (Option.ite_none_left_eq_some.mp hr).2)
        exact Quiet.commit (w := .deleteEndpoint appId id) I.core I.tenancy trivial trivial rfl
    | _ => exact nomatch h
  | webauthn c =>
    obtain ⟨⟨c', x⟩, hr, rfl⟩ := Option.map_eq_some_iff.mp h
    refine ⟨idle, ?_, rfl, rfl⟩
    cases x with
    | none => exact I.webauthn
    | some write => exact I.webauthn.commit (webauthn_justified hr)
  | tick phase =>
    obtain ⟨⟨phase', db'⟩, hr, rfl⟩ := Option.map_eq_some_iff.mp h
    obtain ⟨rows, rfl, same⟩ := webhookTick_deliveries hr
    exact ⟨.deliveries I.core I.tenancy same, I.webauthn, rfl, rfl⟩

theorem aside_turn (I : d.Inv S) {job : Job} (other : job.core? = none) {m : ServiceMove}
    {t : Turn Database Job} (h : job.turn S d others m = some t) : Aside S d t := by
  have thrown : ∀ {d' : Database}, Quiet S.env d.core d'.core → d'.webauthn.Inv →
      Aside S d ⟨d', job.thrown, []⟩ ∧ Aside S d ⟨d', job.failed, []⟩ := by
    intro d' quiet webauthn
    cases job with
    | core c => exact nomatch other
    | _ => exact ⟨⟨quiet, webauthn, rfl, rfl⟩, quiet, webauthn, rfl, rfl⟩
  cases m with
  | statement w => exact aside_statement I other h
  | error =>
    obtain ⟨_, same⟩ := Option.ite_none_right_eq_some.mp h
    exact Option.some.inj same ▸ (thrown (.refl I.core I.tenancy) I.webauthn).1
  | lost w =>
    obtain ⟨t', ht', rfl⟩ := Option.map_eq_some_iff.mp h
    have aside := aside_statement I other ht'
    exact (thrown aside.quiet aside.webauthn).1
  | crash =>
    obtain ⟨_, same⟩ := Option.ite_none_right_eq_some.mp h
    exact Option.some.inj same ▸ (thrown (.refl I.core I.tenancy) I.webauthn).2

/-- Seen from a call of `System`, only the calls of `System` are there. -/
theorem settled_core {c : Call}
    (h : Pool.Settled Job.tokens (Database.Inv S) (Job.Ok S) d others (.core c)) :
    Pool.Settled Call.tokens (Db.Inv S.env) (Call.Ok S.env) d.core (coreCalls others) c where
  inv := h.inv.core
  self := h.self.1
  theirs := fun o ho => (h.theirs (.core o) (mem_coreCalls.mp ho)).1
  apart := fun o ho => h.apart (.core o) (mem_coreCalls.mp ho)

theorem Job.Ok.of_aside {job : Job} (other : job.core? = none) : job.Ok S d ∧ job.tokens = [] := by
  cases job with
  | core c => exact nomatch other
  | _ => exact ⟨trivial, rfl⟩

theorem core_or_aside (job : Job) : (∃ c, job = .core c) ∨ job.core? = none := by
  cases job with
  | core c => exact .inl ⟨c, rfl⟩
  | _ => exact .inr rfl

end

/-- The proof obligations of the deployment, those of `System` among them. -/
theorem deployment_discipline (S : Services) :
    Pool.Discipline (deployment S) Job.tokens (Database.Inv S) (Job.Ok S) where
  admitted := by
    intro d r job I h
    rcases core_or_aside job with ⟨c, rfl⟩ | other
    · cases r with
      | core r =>
        obtain ⟨_, accepted, same⟩ := Option.map_eq_some_iff.mp h
        obtain rfl := Job.core.inj same
        obtain ⟨ok, free⟩ := (server_discipline S.env).admitted I.core accepted
        exact ⟨⟨ok, (isNew_kept (accept_isNew accepted) _)⟩, free⟩
      | _ => exact nomatch h
    · exact Job.Ok.of_aside other
  store := by
    intro d others job m t settled h
    have I := settled.inv
    rcases core_or_aside job with ⟨c, rfl⟩ | other
    · obtain ⟨m', t', ht', rfl⟩ := core_turn h
      have core := settled_core settled
      exact ⟨(server_discipline S.env).store core ht',
        (turn_tenant I.core I.tenancy core.self settled.self.2 ht').1, I.webauthn⟩
    · have aside := aside_turn I other h
      exact ⟨aside.quiet.inv, aside.quiet.tenancy, aside.webauthn⟩
  self := by
    intro d others job m t settled h
    have I := settled.inv
    rcases core_or_aside job with ⟨c, rfl⟩ | other
    · obtain ⟨m', t', ht', rfl⟩ := core_turn h
      have core := settled_core settled
      exact ⟨(server_discipline S.env).self core ht',
        (turn_tenant I.core I.tenancy core.self settled.self.2 ht').2.1⟩
    · exact (Job.Ok.of_aside (aside_turn I other h).call).1
  spawned := by
    intro d others job m t settled h n hn
    have I := settled.inv
    rcases core_or_aside job with ⟨c, rfl⟩ | other
    · obtain ⟨m', t', ht', rfl⟩ := core_turn h
      obtain ⟨x, hx, rfl⟩ := List.mem_map.mp hn
      have core := settled_core settled
      obtain ⟨ok, free⟩ := (server_discipline S.env).spawned core ht' x hx
      exact ⟨⟨ok, turn_spawned I.core core.self ht' x hx⟩, free⟩
    · rw [(aside_turn I other h).spawned] at hn
      exact absurd hn List.not_mem_nil
  frame := by
    intro d others job m t settled h o ho
    have I := settled.inv
    rcases core_or_aside o with ⟨x, rfl⟩ | idle
    · obtain ⟨ok, kept⟩ := settled.theirs _ ho
      rcases core_or_aside job with ⟨c, rfl⟩ | other
      · obtain ⟨m', t', ht', rfl⟩ := core_turn h
        have core := settled_core settled
        exact ⟨(server_discipline S.env).frame core ht' x (mem_coreCalls.mpr ho),
          (turn_tenant I.core I.tenancy core.self settled.self.2 ht').2.2 x kept⟩
      · have quiet := (aside_turn I other h).quiet
        exact ⟨quiet.ok x ok, quiet.kept x kept⟩
    · exact (Job.Ok.of_aside idle).1
  acquire := by
    intro d others job m t settled h k hk
    rcases core_or_aside job with ⟨c, rfl⟩ | other
    · obtain ⟨m', t', ht', rfl⟩ := core_turn h
      refine ((server_discipline S.env).acquire (settled_core settled) ht' k hk).imp id ?_
      intro free o ho
      rcases core_or_aside o with ⟨x, rfl⟩ | idle
      · exact free x (mem_coreCalls.mpr ho)
      · rw [(Job.Ok.of_aside (S := S) (d := d) idle).2]
        exact List.not_mem_nil
    · rw [(Job.Ok.of_aside (S := S) (d := d) (aside_turn settled.inv other h).call).2] at hk
      exact absurd hk List.not_mem_nil

/-- Every reachable database keeps the invariants. -/
theorem DeploymentRun.inv {S : Services} {log : List (Deployment × Act Operation ServiceMove)}
    {p : Deployment} (run : DeploymentRun S log p) : p.store.Inv S := by
  have start : Pool.Good Job.tokens (Database.Inv S) (Job.Ok S) (⟨.empty, []⟩ : Deployment) :=
    ⟨.empty S, fun i c h => by simp at h, fun i j a b h => by simp at h⟩
  exact ((deployment_discipline S).run start run).inv

end Syrotp
