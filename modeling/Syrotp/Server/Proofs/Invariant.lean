import Syrotp.Server.Proofs.Writes

/-!
# The invariant of the database

`Db.Inv` holds of a fresh database and every justified write keeps it. Each field has its own
lemma, which looks at where a row of the next state comes from.
-/

namespace Syrotp

/-- The events of one verification. -/
def eventsOf (db : Db) (id : Id) : List WebhookEvent :=
  db.webhookEvents.filter fun e => e.verificationId = some id

/-- Pending without an event, or terminal with exactly one, of the matching type. -/
def Lifecycle (db : Db) (v : Verification) : Prop :=
  (v.status = .pending ∧ eventsOf db v.id = []) ∨
    ∃ e, eventsOf db v.id = [e] ∧ v.status = e.eventType.terminal ∧ e.appId = v.appId

/-- A verified row and the inbound that verified it point at each other. -/
def Linked (env : Env) (db : Db) (v : Verification) : Prop :=
  ∃ m ∈ db.inboundSms, v.matchedInboundId = some m.id ∧ m.matchedVerificationId = some v.id ∧
    Answers env v m ∧ ∃ t, v.verifiedAt = some t ∧ t < v.expiresAt

/-- What the match column of an inbound row can name. -/
def Claims (db : Db) (m : InboundSms) : Prop :=
  ∀ x, m.matchedVerificationId = some x → x.kind = .phoneBinding ∨
    ∃ v ∈ db.verifications, v.id = x ∧ v.status = .verified ∧ v.matchedInboundId = some m.id

structure Db.Inv (env : Env) (db : Db) : Prop where
  verificationIds : (db.verifications.map (·.id)).Nodup
  kinds : ∀ v ∈ db.verifications, v.id.kind = .verification
  normalized : ∀ v ∈ db.verifications, Normalized env v.phoneE164
  custody : ∀ v ∈ db.verifications, Custody db v.appId v.phoneE164
  pendingUnique : ∀ v ∈ db.verifications, ∀ x ∈ db.verifications, v.status = .pending →
    pendingWith v.receiverId v.phoneE164 v.code x = true → x.id = v.id
  lifecycle : ∀ v ∈ db.verifications, Lifecycle db v
  linked : ∀ v ∈ db.verifications, v.status = .verified → Linked env db v
  unlinked : ∀ v ∈ db.verifications, v.status ≠ .verified → v.matchedInboundId = none
  eventIds : (db.webhookEvents.map (·.id)).Nodup
  eventOf : ∀ e ∈ db.webhookEvents, ∃ v ∈ db.verifications, e.verificationId = some v.id
  deliveryOf : ∀ d ∈ db.webhookDeliveries, ∃ e ∈ db.webhookEvents, d.eventId = e.id
  inboundIds : (db.inboundSms.map (·.id)).Nodup
  idempotency : (db.inboundSms.map (·.idempotency)).Nodup
  claims : ∀ m ∈ db.inboundSms, Claims db m
  bindingIds : (db.phoneBindings.map (·.id)).Nodup
  bindingKinds : ∀ b ∈ db.phoneBindings, b.id.kind = .phoneBinding
  boundDates : ∀ b ∈ db.phoneBindings, b.status = .verified → b.boundAt.isSome = true
  unbound : ∀ b ∈ db.phoneBindings, b.status = .pending → b.boundAt = none
  unrevoked : ∀ b ∈ db.phoneBindings, b.status ≠ .revoked → b.revokedAt = none
  active : activeUnique db.phoneBindings = true
  endpointIds : (db.webhookEndpoints.map (·.id)).Nodup

theorem Db.Inv.empty (env : Env) : Db.Inv env .empty := by
  constructor <;> simp [Db.empty, activeUnique]

section

variable {env : Env} {db : Db} {w : Write}

theorem Db.Inv.verification_ext (I : Db.Inv env db) {v x : Verification}
    (hv : v ∈ db.verifications) (hx : x ∈ db.verifications) (same : v.id = x.id) : v = x :=
  eq_of_key I.verificationIds hv hx same

theorem Db.Inv.inbound_ext (I : Db.Inv env db) {m x : InboundSms} (hm : m ∈ db.inboundSms)
    (hx : x ∈ db.inboundSms) (same : m.id = x.id) : m = x :=
  eq_of_key I.inboundIds hm hx same

/-! ## Keys -/

theorem verificationIds_commit (J : Justified env db w)
    (h : (db.verifications.map (·.id)).Nodup) :
    ((db.commit w).verifications.map (·.id)).Nodup := by
  cases w with
  | insertVerification row => exact nodup_insert h J.newId
  | resolveVerification row event deliveries inbound =>
    have same : (updateWhere (fun v => v.id = row.id) (fun _ => row) db.verifications).map (·.id)
        = db.verifications.map (·.id) := by
      simp only [updateWhere, List.map_map]
      refine List.map_congr_left fun v _ => ?_
      by_cases hit : v.id = row.id <;> simp [hit]
    exact same ▸ h
  | _ => exact h

theorem inbound_column_commit {κ : Type} [DecidableEq κ] (column : InboundSms → κ)
    (ignores : ∀ (m : InboundSms) matched,
      column { m with matchedVerificationId := matched } = column m)
    (fresh : ∀ row, w = .insertInbound row → hasKey column (column row) db.inboundSms = false)
    (h : (db.inboundSms.map column).Nodup) : ((db.commit w).inboundSms.map column).Nodup := by
  have updated : ∀ i matched, ((setMatched i matched db.inboundSms).map column).Nodup :=
    fun i matched => nodup_updateWhere (fun m => ignores m matched) h
  cases w with
  | insertInbound row => exact nodup_insert h (fresh row rfl)
  | setMatched i matched => exact updated i matched
  | resolveVerification row event deliveries inbound =>
    cases inbound with
    | none => exact h
    | some i => exact updated i (some row.id)
  | _ => exact h

theorem eventIds_commit (J : Justified env db w) (h : (db.webhookEvents.map (·.id)).Nodup) :
    ((db.commit w).webhookEvents.map (·.id)).Nodup := by
  cases w with
  | resolveVerification row event deliveries inbound =>
    obtain ⟨_, _, _, _, _, _, _, _, _, fresh, rfl, _⟩ := J.resolve
    exact nodup_insert h fresh.1
  | _ => exact h

theorem bindingIds_commit (J : Justified env db w) (h : (db.phoneBindings.map (·.id)).Nodup) :
    ((db.commit w).phoneBindings.map (·.id)).Nodup := by
  cases w with
  | insertBinding row => exact nodup_insert h J.2.2.2.2
  | verifyBindings ids t => exact nodup_updateWhere (fun _ => rfl) h
  | revokeBinding appId id t => exact nodup_updateWhere (fun _ => rfl) h
  | _ => exact h

theorem endpointIds_commit (J : Justified env db w)
    (h : (db.webhookEndpoints.map (·.id)).Nodup) :
    ((db.commit w).webhookEndpoints.map (·.id)).Nodup := by
  cases w with
  | insertEndpoint row => exact nodup_insert h J
  | deleteEndpoint appId id => exact h.sublist (List.filter_sublist.map _)
  | _ => exact h

/-! ## Verifications -/

/-- The events of a verification that the write does not resolve. -/
theorem eventsOf_commit_other {id : Id} (J : Justified env db w)
    (apart : .lock (.verification id) ∉ w.tokens) :
    eventsOf (db.commit w) id = eventsOf db id := by
  cases w with
  | resolveVerification row event deliveries inbound =>
    obtain ⟨_, _, _, _, _, _, _, _, _, _, rfl, _⟩ := J.resolve
    have other : row.id ≠ id := by
      rintro rfl
      simp [Write.tokens] at apart
    simp [eventsOf, Db.commit, eventRow, buildVerificationEventData, other]
  | _ => rfl

/-- The events of the one that it does. -/
theorem eventsOf_commit_self {row : Verification} {event : WebhookEvent}
    {deliveries : List WebhookDelivery} {inbound : Option Id}
    (J : Justified env db (.resolveVerification row event deliveries inbound)) :
    eventsOf (db.commit (.resolveVerification row event deliveries inbound)) row.id =
      eventsOf db row.id ++ [event] := by
  obtain ⟨_, _, _, _, _, _, _, _, _, _, rfl, _⟩ := J.resolve
  simp [eventsOf, Db.commit, eventRow, buildVerificationEventData]

theorem Db.Inv.eventsOf_fresh (I : Db.Inv env db) {id : Id}
    (fresh : hasKey (·.id) id db.verifications = false) : eventsOf db id = [] := by
  rw [eventsOf, List.filter_eq_nil_iff]
  intro e he names
  obtain ⟨v, hv, of⟩ := I.eventOf e he
  have same : v.id = id := by
    rw [of] at names
    simpa using names
  exact hasKey_eq_false.mp fresh v hv same

theorem lifecycle_commit (I : Db.Inv env db) (J : Justified env db w) :
    ∀ x ∈ (db.commit w).verifications, Lifecycle (db.commit w) x := by
  intro x hx
  rcases verification_origin hx with ⟨old, apart⟩ | rfl | ⟨event, deliveries, inbound, rfl⟩
  · rw [Lifecycle, eventsOf_commit_other J apart]
    exact I.lifecycle x old
  · have none := I.eventsOf_fresh J.newId
    exact .inl ⟨J.pending, (eventsOf_commit_other J (by simp [Write.tokens])).trans none⟩
  · obtain ⟨v, hv, eventType, eventId, t, ds, pending, resolves, _, _, hevent, _⟩ := J.resolve
    have before : eventsOf db x.id = [] := by
      rcases I.lifecycle v hv with ⟨_, none⟩ | ⟨e, _, terminal, _⟩
      · rw [resolves.id]
        exact none
      · rw [pending] at terminal
        cases h : e.eventType <;> simp [h, VerificationEventType.terminal] at terminal
    refine .inr ⟨event, ?_, ?_, ?_⟩
    · rw [eventsOf_commit_self J, before, List.nil_append]
    · rw [hevent, resolves.status]
      rfl
    · rw [hevent]
      rfl

theorem pendingUnique_commit (I : Db.Inv env db) (J : Justified env db w) :
    ∀ v ∈ (db.commit w).verifications, ∀ x ∈ (db.commit w).verifications,
      v.status = .pending → pendingWith v.receiverId v.phoneE164 v.code x = true →
        x.id = v.id := by
  intro v hv x hx pending key
  rcases verification_origin hv with ⟨oldv, _⟩ | rfl | ⟨_, _, _, rfl⟩
  · rcases verification_origin hx with ⟨oldx, _⟩ | rfl | ⟨_, _, _, rfl⟩
    · exact I.pendingUnique v oldv x oldx pending key
    · -- the INSERT found no pending row with its key
      have clash : pendingWith x.receiverId x.phoneE164 x.code v = true := by
        simp only [pendingWith, decide_eq_true_eq] at key ⊢
        exact ⟨key.1.symm, key.2.1.symm, key.2.2.1.symm, pending⟩
      rw [J.newCode v oldv] at clash
      contradiction
    · obtain ⟨_, _, _, _, _, _, _, resolves, _⟩ := J.resolve
      simp only [pendingWith, decide_eq_true_eq] at key
      exact absurd key.2.2.2 resolves.not_pending
  · rcases verification_origin hx with ⟨oldx, _⟩ | same | ⟨_, _, _, same⟩
    · rw [J.newCode x oldx] at key
      contradiction
    · rw [Write.insertVerification.injEq] at same
      rw [same]
    · cases same
  · obtain ⟨_, _, _, _, _, _, _, resolves, _⟩ := J.resolve
    exact absurd pending resolves.not_pending

/-- What an insert establishes and a resolution leaves alone holds of every verification. -/
theorem verification_all_commit (J : Justified env db w) {P : Verification → Prop}
    (inserted : ∀ row, Insertable env db row → P row)
    (resolved : ∀ v row eventType inbound, Resolves v eventType inbound row → P v → P row)
    (h : ∀ v ∈ db.verifications, P v) : ∀ x ∈ (db.commit w).verifications, P x := by
  intro x hx
  rcases verification_origin hx with ⟨old, _⟩ | rfl | ⟨_, _, _, rfl⟩
  · exact h x old
  · exact inserted x J
  · obtain ⟨v, hv, _, _, _, _, _, resolves, _⟩ := J.resolve
    exact resolved v x _ _ resolves (h v hv)

theorem unlinked_commit (I : Db.Inv env db) (J : Justified env db w) :
    ∀ x ∈ (db.commit w).verifications, x.status ≠ .verified → x.matchedInboundId = none := by
  intro x hx open'
  rcases verification_origin hx with ⟨old, _⟩ | rfl | ⟨_, _, _, rfl⟩
  · exact I.unlinked x old open'
  · exact Insertable.unmatched J
  · obtain ⟨v, hv, _, _, _, _, pending, resolves, _⟩ := J.resolve
    cases resolves with
    | verified i t _ => exact absurd rfl open'
    | _ => exact I.unlinked v hv (by simp [pending])

/-- An inbound that a verification names is owned by no one: a justified write leaves it alone. -/
theorem Justified.claimed_apart {i : Id} (J : Justified env db w) (claimed : ¬Unclaimed db i) :
    .stored i ∉ w.tokens := by
  intro owned
  cases w with
  | setMatched j matched =>
    have same : i = j := by simpa [Write.tokens] using owned
    exact claimed (same ▸ J.1)
  | resolveVerification row event deliveries inbound =>
    obtain ⟨_, _, _, _, _, _, _, _, backed, _⟩ := J.resolve
    have same : inbound = some i := by simpa [Write.tokens] using owned
    rw [same] at backed
    exact claimed backed.1
  | insertVerification row => simp [Write.tokens] at owned
  | _ => exact absurd owned List.not_mem_nil

theorem Linked.commit {v : Verification} (h : Linked env db v) (hv : v ∈ db.verifications)
    (J : Justified env db w) : Linked env (db.commit w) v := by
  obtain ⟨m, hm, link, back, answers, before⟩ := h
  have apart := J.claimed_apart fun none => none v hv link
  exact ⟨m, inbound_commit hm apart, link, back, answers, before⟩

theorem linked_commit (I : Db.Inv env db) (J : Justified env db w) :
    ∀ x ∈ (db.commit w).verifications, x.status = .verified → Linked env (db.commit w) x := by
  intro x hx verified
  rcases verification_origin hx with ⟨old, _⟩ | rfl | ⟨event, deliveries, inbound, rfl⟩
  · exact (I.linked x old verified).commit old J
  · simp [Insertable.pending J] at verified
  · obtain ⟨v, hv, _, _, _, _, _, resolves, backed, _⟩ := J.resolve
    cases resolves with
    | verified i t before =>
      obtain ⟨_, m, hm, rfl, _, answers⟩ := backed
      refine ⟨_, mem_updateWhere_of_pos hm (by simp), rfl, rfl, ?_, t, rfl, before⟩
      exact ⟨answers.receiver, answers.phone, answers.code⟩
    | _ => simp at verified

/-! ## Events and deliveries -/

theorem eventOf_commit (I : Db.Inv env db) (J : Justified env db w) :
    ∀ e ∈ (db.commit w).webhookEvents,
      ∃ v ∈ (db.commit w).verifications, e.verificationId = some v.id := by
  have old : ∀ e ∈ db.webhookEvents,
      ∃ v ∈ (db.commit w).verifications, e.verificationId = some v.id := by
    intro e he
    obtain ⟨v, hv, of⟩ := I.eventOf e he
    rcases verification_successor w hv with hv | ⟨row, _, _, _, _, hrow, same⟩
    · exact ⟨v, hv, of⟩
    · exact ⟨row, hrow, same ▸ of⟩
  cases w with
  | resolveVerification row event deliveries inbound =>
    intro e he
    rcases List.mem_append.mp he with before | new
    · exact old e before
    · obtain rfl := List.mem_singleton.mp new
      obtain ⟨v, hv, _, _, _, _, _, resolves, _, _, hevent, _⟩ := J.resolve
      exact ⟨row, mem_updateWhere_of_pos hv (by simp [resolves.id]), by rw [hevent]; rfl⟩
  | _ => exact old

theorem deliveryOf_commit (I : Db.Inv env db) (J : Justified env db w) :
    ∀ d ∈ (db.commit w).webhookDeliveries,
      ∃ e ∈ (db.commit w).webhookEvents, d.eventId = e.id := by
  cases w with
  | resolveVerification row event deliveries inbound =>
    intro d hd
    rcases List.mem_append.mp hd with before | new
    · obtain ⟨e, he, of⟩ := I.deliveryOf d before
      exact ⟨e, List.mem_append_left _ he, of⟩
    · obtain ⟨_, _, _, _, _, ds, _, _, _, _, rfl, rfl⟩ := J.resolve
      obtain ⟨_, _, rfl⟩ := List.mem_map.mp new
      exact ⟨_, List.mem_append_right _ (List.mem_singleton_self _), rfl⟩
  | deleteEndpoint appId id => exact fun d hd => I.deliveryOf d (List.mem_filter.mp hd).1
  | _ => exact I.deliveryOf

/-! ## Inbound rows and bindings -/

/-- A terminal verification is never written again. -/
theorem Db.Inv.terminal_apart (I : Db.Inv env db) (J : Justified env db w) {v : Verification}
    (hv : v ∈ db.verifications) (terminal : v.status ≠ .pending) :
    .lock (.verification v.id) ∉ w.tokens := by
  intro locked
  cases w with
  | resolveVerification row event deliveries inbound =>
    obtain ⟨x, hx, _, _, _, _, pending, resolves, _⟩ := J.resolve
    have same : v.id = row.id := by simpa [Write.tokens] using locked
    obtain rfl := I.verification_ext hv hx (same.trans resolves.id)
    exact terminal pending
  | insertVerification row => simp [Write.tokens] at locked
  | setMatched i matched => simp [Write.tokens] at locked
  | _ => exact absurd locked List.not_mem_nil

theorem Db.Inv.terminal_commit (I : Db.Inv env db) (J : Justified env db w) {v : Verification}
    (hv : v ∈ db.verifications) (terminal : v.status ≠ .pending) :
    v ∈ (db.commit w).verifications :=
  verification_commit hv (I.terminal_apart J hv terminal)

theorem Claims.commit (I : Db.Inv env db) (J : Justified env db w) {m : InboundSms}
    (h : Claims db m) : Claims (db.commit w) m := by
  intro x hx
  rcases h x hx with binding | ⟨v, hv, rfl, verified, link⟩
  · exact .inl binding
  · exact .inr ⟨v, I.terminal_commit J hv (by simp [verified]), rfl, verified, link⟩

theorem claims_commit (I : Db.Inv env db) (J : Justified env db w) :
    ∀ m ∈ (db.commit w).inboundSms, Claims (db.commit w) m := by
  have old : ∀ m ∈ db.inboundSms, Claims (db.commit w) m :=
    fun m hm => (I.claims m hm).commit I J
  cases w with
  | insertInbound row =>
    intro m hm
    rcases List.mem_append.mp hm with before | new
    · exact old m before
    · obtain rfl := List.mem_singleton.mp new
      intro x hx
      simp [J.2.2] at hx
  | setMatched i matched =>
    intro m hm
    rcases mem_updateWhere_cases hm with ⟨m, _, _, rfl⟩ | ⟨before, _⟩
    · exact fun x hx => .inl (J.2 x hx)
    · exact old m before
  | resolveVerification row event deliveries inbound =>
    cases inbound with
    | none => exact old
    | some i =>
      intro m hm
      rcases mem_updateWhere_cases hm with ⟨m, _, hit, rfl⟩ | ⟨before, _⟩
      · rintro x ⟨rfl⟩
        obtain ⟨v, hv, _, _, _, _, _, resolves, _⟩ := J.resolve
        refine .inr ⟨row, mem_updateWhere_of_pos hv (by simp [resolves.id]), rfl, ?_⟩
        obtain rfl : m.id = i := by simpa using hit
        cases resolves
        exact ⟨rfl, rfl⟩
      · exact old m before
  | _ => exact old

/-- What an insert establishes, and verifying and revoking keep, holds of every binding. -/
theorem binding_all_commit {P : PhoneBinding → Prop}
    (inserted : ∀ row, w = .insertBinding row → P row)
    (verified : ∀ b t, P b → P { b with status := .verified, boundAt := some t })
    (revoked : ∀ b t, P b → P { b with status := .revoked, revokedAt := some t })
    (h : ∀ b ∈ db.phoneBindings, P b) : ∀ b ∈ (db.commit w).phoneBindings, P b := by
  cases w with
  | insertBinding row =>
    intro b hb
    rcases List.mem_append.mp hb with old | new
    · exact h b old
    · exact List.mem_singleton.mp new ▸ inserted row rfl
  | verifyBindings ids t =>
    intro b hb
    rcases mem_updateWhere_cases hb with ⟨b, old, _, rfl⟩ | ⟨old, _⟩
    · exact verified b t (h b old)
    · exact h b old
  | revokeBinding appId id t =>
    intro b hb
    rcases mem_updateWhere_cases hb with ⟨b, old, _, rfl⟩ | ⟨old, _⟩
    · exact revoked b t (h b old)
    · exact h b old
  | _ => exact h

/-- `phone_bindings_active_uq` is checked where a binding becomes verified, and the other writes
add no verified binding. -/
theorem active_commit (J : Justified env db w) (h : activeUnique db.phoneBindings = true) :
    activeUnique (db.commit w).phoneBindings = true := by
  cases w with
  | insertBinding row =>
    simp only [activeUnique, decide_eq_true_eq] at h ⊢
    show (List.map _ (List.filter _ (db.phoneBindings ++ [row]))).Nodup
    rw [List.filter_append, List.filter_cons_of_neg (by simp [J.1]), List.filter_nil,
      List.append_nil]
    exact h
  | verifyBindings ids t => exact J.2
  | revokeBinding appId id t =>
    simp only [activeUnique, decide_eq_true_eq] at h ⊢
    refine h.sublist (List.Sublist.map _ ?_)
    show List.Sublist (List.filter _ (updateWhere _ _ _)) _
    rw [filter_updateWhere (by simp)]
    exact List.monotone_filter_right _ fun b kept => (Bool.and_eq_true_iff.mp kept).2
  | _ => exact h

theorem unrevoked_commit (J : Justified env db w)
    (h : ∀ b ∈ db.phoneBindings, b.status ≠ .revoked → b.revokedAt = none) :
    ∀ b ∈ (db.commit w).phoneBindings, b.status ≠ .revoked → b.revokedAt = none := by
  cases w with
  | insertBinding row =>
    intro b hb
    rcases List.mem_append.mp hb with old | new
    · exact h b old
    · exact fun _ => List.mem_singleton.mp new ▸ J.2.2.1
  | verifyBindings ids t =>
    intro b hb _
    rcases mem_updateWhere_cases hb with ⟨b, old, hit, rfl⟩ | ⟨old, _⟩
    · exact h b old (by simp [J.1 b old (of_decide_eq_true hit)])
    · exact h b old ‹_›
  | revokeBinding appId id t =>
    intro b hb open'
    rcases mem_updateWhere_cases hb with ⟨b, old, hit, rfl⟩ | ⟨old, _⟩
    · exact absurd rfl open'
    · exact h b old open'
  | _ => exact h

/-! ## The invariant -/

/-- Every justified write keeps the invariant. -/
theorem Db.Inv.commit (I : Db.Inv env db) (J : Justified env db w) : Db.Inv env (db.commit w) where
  verificationIds := verificationIds_commit J I.verificationIds
  kinds := verification_all_commit J (fun _ h => h.kind) (fun _ _ _ _ h k => h.id ▸ k) I.kinds
  normalized := verification_all_commit J (fun _ h => h.normalized)
    (fun _ _ _ _ h n => h.same.2.2.1 ▸ n) I.normalized
  custody := by
    have held : ∀ v ∈ (db.commit w).verifications, Custody db v.appId v.phoneE164 :=
      verification_all_commit J (fun _ h => h.custody)
        (fun _ _ _ _ h c => by rw [h.same.2.1, h.same.2.2.1]; exact c) I.custody
    exact fun v hv => (held v hv).commit w
  pendingUnique := pendingUnique_commit I J
  lifecycle := lifecycle_commit I J
  linked := linked_commit I J
  unlinked := unlinked_commit I J
  eventIds := eventIds_commit J I.eventIds
  eventOf := eventOf_commit I J
  deliveryOf := deliveryOf_commit I J
  inboundIds := inbound_column_commit (·.id) (fun _ _ => rfl)
    (fun row h => by subst h; exact J.1) I.inboundIds
  idempotency := inbound_column_commit (·.idempotency) (fun _ _ => rfl)
    (fun row h => by subst h; exact J.2.1) I.idempotency
  claims := claims_commit I J
  bindingIds := bindingIds_commit J I.bindingIds
  bindingKinds := binding_all_commit (fun row h => by subst h; exact J.2.2.2.1)
    (fun _ _ k => k) (fun _ _ k => k) I.bindingKinds
  boundDates := binding_all_commit (fun row h => by subst h; simp [J.1])
    (fun _ _ _ _ => rfl) (fun _ _ _ => by simp) I.boundDates
  unbound := binding_all_commit (fun row h _ => by subst h; exact J.2.1)
    (fun _ _ _ => by simp) (fun _ _ _ => by simp) I.unbound
  unrevoked := unrevoked_commit J I.unrevoked
  active := active_commit J I.active
  endpointIds := endpointIds_commit J I.endpointIds

end

end Syrotp
