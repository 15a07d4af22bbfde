import Syrotp.Server.System

/-!
# What a write is entitled to

`Token`s say who may write what: the locks of a transaction, and the inbound row that a call has
stored. `Justified` collects, for each committed write, what the code has checked by then. The
lemmas after it say what each kind of assertion about the database survives.
-/

namespace Syrotp

/-! ## Tokens -/

inductive Token where
  | lock (l : Lock)
  /-- An inbound row, owned by the call that stored it. -/
  | stored (inboundId : Id)
  deriving DecidableEq, Repr

def Call.stored : Call → Option Id
  | .inbound _ phase => phase.stored
  | _ => none

def Call.tokens (c : Call) : List Token := c.locks.map .lock ++ c.stored.toList.map .stored

/-- What a writer has to own. -/
def Write.tokens : Write → List Token
  | .insertVerification row =>
    [.lock (.key row.id), .lock (.pendingKey row.receiverId row.phoneE164 row.code)]
  | .resolveVerification row event deliveries inbound =>
    .lock (.verification row.id) :: .lock (.key event.id) ::
      (deliveries.map (fun d => .lock (.key d.id)) ++ inbound.toList.map .stored)
  | .setMatched i _ => [.stored i]
  | _ => []

@[simp] theorem mem_tokens_lock {c : Call} {l : Lock} : .lock l ∈ c.tokens ↔ l ∈ c.locks := by
  simp [Call.tokens]

@[simp] theorem mem_tokens_stored {c : Call} {i : Id} :
    .stored i ∈ c.tokens ↔ c.stored = some i := by
  simp [Call.tokens]

/-! ## Assertions -/

/-- The status that an event type reports. -/
def VerificationEventType.terminal : VerificationEventType → VerificationStatus
  | .verified => .verified
  | .expired => .expired
  | .cancelled => .cancelled

/-- The conditional UPDATEs that take a pending verification to a terminal status. -/
inductive Resolves (v : Verification) :
    VerificationEventType → Option Id → Verification → Prop
  | cancelled (t : Time) :
      Resolves v .cancelled none { v with status := .cancelled, cancelledAt := some t }
  | expired : Resolves v .expired none { v with status := .expired }
  | verified (i : Id) (t : Time) (before : t < v.expiresAt) :
      Resolves v .verified (some i) (v.claimed i t)

/-- `m` is the message that `v` asked for. -/
structure Answers (env : Env) (v : Verification) (m : InboundSms) : Prop where
  receiver : m.receiverId = v.receiverId
  phone : m.fromE164 = v.phoneE164
  code : extractCode env.platform m.body = some v.code

/-- No verification names this inbound row. -/
def Unclaimed (db : Db) (inboundId : Id) : Prop :=
  ∀ v ∈ db.verifications, v.matchedInboundId ≠ some inboundId

/-- The row of an inbound that a claim is about to link, `none` for the other transitions. -/
def Backed (env : Env) (db : Db) (v : Verification) : Option Id → Prop
  | none => True
  | some i => Unclaimed db i ∧
      ∃ m ∈ db.inboundSms, m.id = i ∧ m.matchedVerificationId = none ∧ Answers env v m

/-- The rows an emission has inserted so far have new primary keys. -/
def Emission.Fresh (db : Db) : Emission → Prop
  | .insertEvent => True
  | .selectEndpoints eventId _ => hasKey (·.id) eventId db.webhookEvents = false
  | .insertDeliveries eventId _ _ => hasKey (·.id) eventId db.webhookEvents = false
  | .returned eventId _ deliveries => hasKey (·.id) eventId db.webhookEvents = false ∧
      (∀ d ∈ deliveries, hasKey (·.id) d.1 db.webhookDeliveries = false) ∧
      (deliveries.map (·.1)).Nodup

/-- A transaction that has updated a pending verification to `row` and is emitting its event. -/
def Emitting (env : Env) (db : Db) (row : Verification) (eventType : VerificationEventType)
    (inbound : Option Id) (emission : Emission) : Prop :=
  ∃ v ∈ db.verifications, v.status = .pending ∧ Resolves v eventType inbound row ∧
    Backed env db v inbound ∧ emission.Fresh db

/-- The binding ceremony has been completed for this phone and app, on some receiver. -/
def Custody (db : Db) (appId : Id) (phoneE164 : Text) : Prop :=
  ∃ b ∈ db.phoneBindings, b.appId = appId ∧ b.phoneE164 = phoneE164 ∧
    b.status ≠ .pending ∧ b.boundAt.isSome = true

/-- What a start has checked about the row it inserts. -/
structure Insertable (env : Env) (db : Db) (row : Verification) : Prop where
  pending : row.status = .pending
  kind : row.id.kind = .verification
  unmatched : row.matchedInboundId = none
  normalized : Normalized env row.phoneE164
  custody : Custody db row.appId row.phoneE164
  newId : hasKey (·.id) row.id db.verifications = false
  newCode : ∀ x ∈ db.verifications, pendingWith row.receiverId row.phoneE164 row.code x = false

/-- What the code has established when it commits a write. -/
def Justified (env : Env) (db : Db) : Write → Prop
  | .insertVerification row => Insertable env db row
  | .resolveVerification row event deliveries inbound =>
    ∃ eventType emission, Emitting env db row eventType inbound emission ∧
      emission.write? row eventType inbound =
        some (.resolveVerification row event deliveries inbound)
  | .insertInbound row => hasKey (·.id) row.id db.inboundSms = false ∧
      hasKey (·.idempotency) row.idempotency db.inboundSms = false ∧
      row.matchedVerificationId = none
  | .setMatched i matched => Unclaimed db i ∧ ∀ x, matched = some x → x.kind = .phoneBinding
  | .insertBinding row => row.status = .pending ∧ row.boundAt = none ∧ row.revokedAt = none ∧
      row.id.kind = .phoneBinding ∧ hasKey (·.id) row.id db.phoneBindings = false
  | .verifyBindings ids t => (∀ b ∈ db.phoneBindings, b.id ∈ ids → b.status = .pending) ∧
      activeUnique (db.commit (.verifyBindings ids t)).phoneBindings = true
  | .insertEndpoint row => hasKey (·.id) row.id db.webhookEndpoints = false
  | _ => True

/-! ## Resolutions -/

section Resolves

variable {v row : Verification} {eventType : VerificationEventType} {inbound : Option Id}

/-- A resolution touches the status, the dates, the link and the attempt count only. -/
theorem Resolves.same (h : Resolves v eventType inbound row) :
    row.id = v.id ∧ row.appId = v.appId ∧ row.phoneE164 = v.phoneE164 ∧
      row.receiverId = v.receiverId ∧ row.code = v.code ∧ row.expiresAt = v.expiresAt := by
  cases h <;> simp [Verification.claimed]

theorem Resolves.id (h : Resolves v eventType inbound row) : row.id = v.id := h.same.1

theorem Resolves.status (h : Resolves v eventType inbound row) :
    row.status = eventType.terminal := by
  cases h <;> rfl

theorem Resolves.not_pending (h : Resolves v eventType inbound row) : row.status ≠ .pending := by
  cases h <;> simp [Verification.claimed]

/-- Only a claim sets the link, and it sets it to its own inbound. -/
theorem Resolves.matched (h : Resolves v eventType inbound row) :
    row.matchedInboundId = inbound ∨
      (inbound = none ∧ row.matchedInboundId = v.matchedInboundId) := by
  cases h <;> simp [Verification.claimed]

end Resolves

/-- What a finished emission commits. -/
theorem Emission.write?_eq_some {row : Verification} {eventType : VerificationEventType}
    {inbound : Option Id} {e : Emission} {w : Write}
    (h : e.write? row eventType inbound = some w) :
    ∃ eventId t ds, e = .returned eventId t ds ∧
      w = .resolveVerification row
        (eventRow eventType row.appId (buildVerificationEventData row eventType) eventId t)
        (ds.map (deliveryRow eventType eventId t)) inbound := by
  cases e with
  | returned eventId t ds => exact ⟨eventId, t, ds, rfl, (Option.some.inj h).symm⟩
  | _ => simp [Emission.write?] at h

/-! ## What survives a write -/

section Commit

variable {env : Env} {db : Db} {w : Write}

/-- A verification stays as it is unless the writer holds its row lock. -/
theorem verification_commit {v : Verification} (hv : v ∈ db.verifications)
    (apart : .lock (.verification v.id) ∉ w.tokens) : v ∈ (db.commit w).verifications := by
  cases w with
  | insertVerification row => exact List.mem_append_left _ hv
  | resolveVerification row event deliveries inbound =>
    have other : v.id ≠ row.id := by
      intro same
      simp [Write.tokens, same] at apart
    exact mem_updateWhere_of_neg hv (by simp [other])
  | _ => exact hv

/-- An inbound row stays as it is unless the writer owns it. -/
theorem inbound_commit {m : InboundSms} (hm : m ∈ db.inboundSms)
    (apart : .stored m.id ∉ w.tokens) : m ∈ (db.commit w).inboundSms := by
  cases w with
  | insertInbound row => exact List.mem_append_left _ hm
  | setMatched i matched =>
    have other : m.id ≠ i := by simpa [Write.tokens] using apart
    exact mem_updateWhere_of_neg hm (by simp [other])
  | resolveVerification row event deliveries inbound =>
    cases inbound with
    | none => exact hm
    | some i =>
      have other : m.id ≠ i := by
        intro same
        simp [Write.tokens, same] at apart
      exact mem_updateWhere_of_neg hm (by simp [other])
  | _ => exact hm

/-- In any case only its match can change. -/
theorem inbound_kept {m : InboundSms} (hm : m ∈ db.inboundSms) (w : Write) :
    ∃ matched, { m with matchedVerificationId := matched } ∈ (db.commit w).inboundSms := by
  have updated : ∀ i matched, ∃ matched',
      { m with matchedVerificationId := matched' } ∈ setMatched i matched db.inboundSms := by
    intro i matched
    by_cases same : m.id = i
    · exact ⟨matched, mem_updateWhere_of_pos hm (by simp [same])⟩
    · exact ⟨m.matchedVerificationId, mem_updateWhere_of_neg hm (by simp [same])⟩
  cases w with
  | insertInbound row => exact ⟨m.matchedVerificationId, List.mem_append_left _ hm⟩
  | setMatched i matched => exact updated i matched
  | resolveVerification row event deliveries inbound =>
    cases inbound with
    | none => exact ⟨m.matchedVerificationId, hm⟩
    | some i => exact updated i (some row.id)
  | _ => exact ⟨m.matchedVerificationId, hm⟩

/-- A completed ceremony stays on record. -/
theorem Custody.commit {appId : Id} {phoneE164 : Text} (h : Custody db appId phoneE164)
    (w : Write) : Custody (db.commit w) appId phoneE164 := by
  obtain ⟨b, hb, app, phone, completed, bound⟩ := h
  cases w with
  | insertBinding row => exact ⟨b, List.mem_append_left _ hb, app, phone, completed, bound⟩
  | verifyBindings ids boundAt =>
    by_cases hit : b.id ∈ ids
    · exact ⟨_, mem_updateWhere_of_pos hb (by simpa using hit), app, phone, by simp, rfl⟩
    · exact ⟨b, mem_updateWhere_of_neg hb (by simpa using hit), app, phone, completed, bound⟩
  | revokeBinding appId' id t =>
    by_cases hit : b.id = id ∧ b.appId = appId'
    · exact ⟨_, mem_updateWhere_of_pos hb (by simpa using hit), app, phone, by simp, bound⟩
    · exact ⟨b, mem_updateWhere_of_neg hb (by simpa using hit), app, phone, completed, bound⟩
  | _ => exact ⟨b, hb, app, phone, completed, bound⟩

/-- Every verification of the next state is one of this state that the write left alone, a new
one, or a resolved one. -/
theorem verification_origin {x : Verification} (hx : x ∈ (db.commit w).verifications) :
    (x ∈ db.verifications ∧ .lock (.verification x.id) ∉ w.tokens) ∨
      w = .insertVerification x ∨
      ∃ event deliveries inbound, w = .resolveVerification x event deliveries inbound := by
  cases w with
  | insertVerification row =>
    rcases List.mem_append.mp hx with old | new
    · exact .inl ⟨old, by simp [Write.tokens]⟩
    · exact .inr (.inl (by rw [List.mem_singleton.mp new]))
  | resolveVerification row event deliveries inbound =>
    rcases mem_updateWhere_cases hx with ⟨_, _, _, rfl⟩ | ⟨old, other⟩
    · exact .inr (.inr ⟨event, deliveries, inbound, rfl⟩)
    · have other : x.id ≠ row.id := by simpa using other
      exact .inl ⟨old, by simp [Write.tokens, other]⟩
  | setMatched i matched => exact .inl ⟨hx, by simp [Write.tokens]⟩
  | _ => exact .inl ⟨hx, List.not_mem_nil⟩

/-- Every verification of this state is still there, as it was or resolved. -/
theorem verification_successor (w : Write) {v : Verification}
    (hv : v ∈ db.verifications) : v ∈ (db.commit w).verifications ∨
      ∃ row event deliveries inbound, w = .resolveVerification row event deliveries inbound ∧
        row ∈ (db.commit w).verifications ∧ row.id = v.id := by
  by_cases apart : .lock (.verification v.id) ∈ w.tokens
  · cases w with
    | resolveVerification row event deliveries inbound =>
      have same : row.id = v.id := by simpa [Write.tokens, eq_comm] using apart
      exact .inr ⟨row, event, deliveries, inbound, rfl,
        mem_updateWhere_of_pos hv (by simp [same]), same⟩
    | insertVerification row => simp [Write.tokens] at apart
    | setMatched i matched => simp [Write.tokens] at apart
    | _ => exact absurd apart List.not_mem_nil
  · exact .inl (verification_commit hv apart)

/-- What the code knows when it commits a resolution. -/
theorem Justified.resolve {row : Verification} {event : WebhookEvent}
    {deliveries : List WebhookDelivery} {inbound : Option Id}
    (J : Justified env db (.resolveVerification row event deliveries inbound)) :
    ∃ v ∈ db.verifications, ∃ eventType eventId t ds, v.status = .pending ∧
      Resolves v eventType inbound row ∧ Backed env db v inbound ∧
      (Emission.returned eventId t ds).Fresh db ∧
      event = eventRow eventType row.appId (buildVerificationEventData row eventType) eventId t ∧
      deliveries = ds.map (deliveryRow eventType eventId t) := by
  obtain ⟨eventType, emission, ⟨v, hv, pending, resolves, backed, fresh⟩, written⟩ := J
  obtain ⟨eventId, t, ds, rfl, hw⟩ := Emission.write?_eq_some written
  injection hw with _ hevent hdeliveries
  exact ⟨v, hv, eventType, eventId, t, ds, pending, resolves, backed, fresh, hevent, hdeliveries⟩

/-- An inbound row stays unclaimed unless its owner claims. -/
theorem Unclaimed.commit {i : Id} (h : Unclaimed db i) (J : Justified env db w)
    (apart : .stored i ∉ w.tokens) : Unclaimed (db.commit w) i := by
  intro x hx
  rcases verification_origin hx with ⟨old, _⟩ | rfl | ⟨event, deliveries, inbound, rfl⟩
  · exact h x old
  · simp [Insertable.unmatched J]
  · obtain ⟨v, hv, _, _, _, _, _, resolves, _⟩ := J.resolve
    rcases resolves.matched with link | ⟨_, link⟩
    · rw [link]
      rintro rfl
      simp [Write.tokens] at apart
    · rw [link]
      exact h v hv

theorem Backed.commit {v : Verification} {inbound : Option Id} (h : Backed env db v inbound)
    (J : Justified env db w) (apart : ∀ i, inbound = some i → .stored i ∉ w.tokens) :
    Backed env (db.commit w) v inbound := by
  cases inbound with
  | none => trivial
  | some i =>
    obtain ⟨unclaimed, m, hm, rfl, unmatched, answers⟩ := h
    have apart := apart m.id rfl
    exact ⟨unclaimed.commit J apart, m, inbound_commit hm apart, rfl, unmatched, answers⟩

theorem event_key_commit {k : Id} (h : hasKey (·.id) k db.webhookEvents = false)
    (apart : .lock (.key k) ∉ w.tokens) : hasKey (·.id) k (db.commit w).webhookEvents = false := by
  cases w with
  | resolveVerification row event deliveries inbound =>
    rw [hasKey_eq_false] at h ⊢
    intro e he
    rcases List.mem_append.mp he with old | new
    · exact h e old
    · obtain rfl := List.mem_singleton.mp new
      rintro rfl
      simp [Write.tokens] at apart
  | _ => exact h

theorem delivery_key_commit {k : Id} (h : hasKey (·.id) k db.webhookDeliveries = false)
    (apart : .lock (.key k) ∉ w.tokens) :
    hasKey (·.id) k (db.commit w).webhookDeliveries = false := by
  cases w with
  | resolveVerification row event deliveries inbound =>
    rw [hasKey_eq_false] at h ⊢
    intro d hd
    rcases List.mem_append.mp hd with old | new
    · exact h d old
    · rintro rfl
      exact apart (List.mem_cons_of_mem _ (List.mem_cons_of_mem _
        (List.mem_append_left _ (List.mem_map_of_mem new))))
  | deleteEndpoint appId id =>
    rw [hasKey_eq_false] at h ⊢
    exact fun d hd => h d (List.mem_filter.mp hd).1
  | _ => exact h

theorem Emission.Fresh.commit {e : Emission} (h : e.Fresh db)
    (apart : ∀ l ∈ e.locks, .lock l ∉ w.tokens) : e.Fresh (db.commit w) := by
  cases e with
  | insertEvent => trivial
  | selectEndpoints eventId t => exact event_key_commit h (apart _ (by simp [Emission.locks]))
  | insertDeliveries eventId t endpoints =>
    exact event_key_commit h (apart _ (by simp [Emission.locks]))
  | returned eventId t ds =>
    refine ⟨event_key_commit h.1 (apart _ (by simp [Emission.locks])), fun d hd => ?_, h.2.2⟩
    exact delivery_key_commit (h.2.1 d hd)
      (apart _ (List.mem_cons_of_mem _ (List.mem_map_of_mem (f := fun d => Lock.key d.1) hd)))

/-- Once the resolution commits, its row is there, with the status its event reports. -/
theorem Emitting.resolved {row : Verification} {eventType : VerificationEventType}
    {inbound inbound' : Option Id} {e : Emission} (h : Emitting env db row eventType inbound e)
    (written : e.write? row eventType inbound' = some w) :
    row ∈ (db.commit w).verifications ∧ row.status = eventType.terminal := by
  obtain ⟨v, hv, _, resolves, _⟩ := h
  obtain ⟨_, _, _, _, rfl⟩ := Emission.write?_eq_some written
  exact ⟨mem_updateWhere_of_pos hv (by simp [resolves.id]), resolves.status⟩

/-- A transaction that holds its row lock and its new keys is not disturbed. -/
theorem Emitting.commit {row : Verification} {eventType : VerificationEventType}
    {inbound : Option Id} {e : Emission} (h : Emitting env db row eventType inbound e)
    (J : Justified env db w) (apart : ∀ l ∈ emitLocks row e, .lock l ∉ w.tokens)
    (owned : ∀ i, inbound = some i → .stored i ∉ w.tokens) :
    Emitting env (db.commit w) row eventType inbound e := by
  obtain ⟨v, hv, pending, resolves, backed, fresh⟩ := h
  have locked : .lock (.verification v.id) ∉ w.tokens := by
    rw [← resolves.id]
    exact apart _ (by simp [emitLocks])
  exact ⟨v, verification_commit hv locked, pending, resolves, backed.commit J owned,
    fresh.commit fun l hl => apart l (List.mem_cons_of_mem _ hl)⟩

/-- Nor is one that holds the keys of the row it is about to insert. -/
theorem Insertable.commit {row : Verification} (h : Insertable env db row)
    (J : Justified env db w) (key : .lock (.key row.id) ∉ w.tokens)
    (pendingKey : .lock (.pendingKey row.receiverId row.phoneE164 row.code) ∉ w.tokens) :
    Insertable env (db.commit w) row where
  pending := h.pending
  kind := h.kind
  unmatched := h.unmatched
  normalized := h.normalized
  custody := h.custody.commit w
  newId := by
    rw [hasKey_eq_false]
    intro x hx
    rcases verification_origin hx with ⟨old, _⟩ | rfl | ⟨event, deliveries, inbound, rfl⟩
    · exact hasKey_eq_false.mp h.newId x old
    · intro same
      simp [Write.tokens, same] at key
    · obtain ⟨v, hv, _, _, _, _, _, resolves, _⟩ := J.resolve
      rw [resolves.id]
      exact hasKey_eq_false.mp h.newId v hv
  newCode := by
    intro x hx
    rcases verification_origin hx with ⟨old, _⟩ | rfl | ⟨event, deliveries, inbound, rfl⟩
    · exact h.newCode x old
    · rw [pendingWith, decide_eq_false_iff_not]
      rintro ⟨receiver, phone, code, _⟩
      simp [Write.tokens, receiver, phone, code] at pendingKey
    · obtain ⟨v, hv, _, _, _, _, _, resolves, _⟩ := J.resolve
      simp [pendingWith, resolves.not_pending]

end Commit

end Syrotp
