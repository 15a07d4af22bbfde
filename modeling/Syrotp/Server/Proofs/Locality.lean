import Syrotp.Server.Proofs.Scope

/-!
# Statements stay within the share

A statement of an app's operation gives the same on the rows of the app alone, whatever the other
rows are, and what it writes is the app's. Posts read by their receiver, updates by an id: the rows
they meet are the app's because a row names a receiver of its own app and an id names one row.
-/

namespace Syrotp

/-- What a statement sees of the rows of one app. -/
def View.share (v : View) (A : Id) : View := { v with db := v.db.share A true }

/-! ## Emission -/

section

variable {env : Env} {v : View} {w : World} {A : Id}

theorem subscribedEndpoints_share {eventType : VerificationEventType} {db : Db} :
    subscribedEndpoints eventType A (db.share A true) = subscribedEndpoints eventType A db := by
  unfold subscribedEndpoints
  refine congrArg _ (filter_part fun e _ hit => ?_)
  exact (inShare (of_decide_eq_true hit).1).1

theorem emit_local (eventType : VerificationEventType) (fresh : w.Fresh (v.db.share A false))
    {e : Emission} (inside : e.Scoped A v.db) :
    emitVerificationEventInTx (v.share A) w eventType A e =
      emitVerificationEventInTx v w eventType A e := by
  cases e with
  | insertEvent =>
    have key : hasKey (·.id) (newId .webhookEvent (w.ulid 0)) (v.share A).db.webhookEvents =
        hasKey (·.id) (newId .webhookEvent (w.ulid 0)) v.db.webhookEvents :=
      hasKey_share (fresh.events 0)
    simp only [emitVerificationEventInTx, key]
    rfl
  | selectEndpoints eventId t =>
    have same : subscribedEndpoints eventType A (v.share A).db =
        subscribedEndpoints eventType A v.db := subscribedEndpoints_share
    simp only [emitVerificationEventInTx, same]
  | insertDeliveries eventId t endpoints =>
    let deliveries := endpoints.mapIdx fun i e => (newId .webhookDelivery (w.ulid i), e)
    have keys : ∀ d ∈ deliveries,
        ((v.share A).freshKey d.1 (hasKey (·.id) d.1 (v.share A).db.webhookDeliveries) &&
          hasKey (·.id) d.2 (v.share A).db.webhookEndpoints) =
        (v.freshKey d.1 (hasKey (·.id) d.1 v.db.webhookDeliveries) &&
          hasKey (·.id) d.2 v.db.webhookEndpoints) := by
      intro d hd
      obtain ⟨i, hi, rfl⟩ := List.mem_mapIdx.mp hd
      have delivery : hasKey (·.id) (newId .webhookDelivery (w.ulid i))
          (v.share A).db.webhookDeliveries =
            hasKey (·.id) (newId .webhookDelivery (w.ulid i)) v.db.webhookDeliveries :=
        hasKey_share (fresh.deliveries i)
      have endpoint : hasKey (·.id) endpoints[i] (v.share A).db.webhookEndpoints =
          hasKey (·.id) endpoints[i] v.db.webhookEndpoints :=
        hasKey_share (inside _ (List.getElem_mem hi))
      rw [delivery, endpoint]
      rfl
    show (if deliveries.all _ ∧ _ then _ else _) = if deliveries.all _ ∧ _ then _ else _
    rw [all_congr_mem keys]
  | returned eventId t ds => rfl

theorem emit_scoped (unique : (v.db.webhookEndpoints.map (·.id)).Nodup)
    {eventType : VerificationEventType} {e e' : Emission} (inside : e.Scoped A v.db)
    (h : emitVerificationEventInTx v w eventType A e = some e') : e'.Scoped A v.db := by
  cases e with
  | insertEvent =>
    obtain rfl := Option.some.inj (Option.ite_none_right_eq_some.mp h).2
    trivial
  | selectEndpoints eventId t =>
    simp only [emitVerificationEventInTx] at h
    split at h
    · obtain rfl := Option.some.inj h
      exact fun d hd => absurd hd List.not_mem_nil
    · obtain rfl := Option.some.inj h
      intro e he
      obtain ⟨x, hx, rfl⟩ := List.mem_map.mp he
      obtain ⟨hx, hit⟩ := List.mem_filter.mp hx
      exact key_of_part unique hx (decide_eq_true (of_decide_eq_true hit).1)
  | insertDeliveries eventId t endpoints =>
    obtain ⟨⟨all, _⟩, same⟩ := Option.ite_none_right_eq_some.mp h
    obtain rfl := Option.some.inj same
    intro d hd
    have checked := List.all_eq_true.mp all d hd
    obtain ⟨x, hx, id⟩ := hasKey_iff.mp (Bool.and_eq_true _ _ ▸ checked).2
    obtain ⟨i, hi, rfl⟩ := List.mem_mapIdx.mp hd
    have mine := part_of_key (inside _ (List.getElem_mem hi)) x hx id
    exact List.any_eq_true.mpr ⟨x, hx, decide_eq_true ⟨id, by simpa using mine⟩⟩
  | returned eventId t ds => cases h

/-- What a resolution of an app's verification writes is the app's. -/
theorem resolution_of (I : Db.Inv env v.db) {row : Verification}
    {eventType : VerificationEventType} {inbound : Option Id} {e : Emission}
    (emitting : Emitting env v.db row eventType inbound e) (mine : row.appId = A)
    (inside : e.Scoped A v.db)
    (linked : ∀ i, inbound = some i →
      hasKey (·.id) i (v.db.share A false).inboundSms = false)
    {write : Write} (h : e.write? row eventType inbound = some write) : write.Inside A v.db := by
  obtain ⟨eventId, t, ds, rfl, rfl⟩ := Emission.write?_eq_some h
  obtain ⟨x, hx, _, resolves, _⟩ := emitting
  refine ⟨⟨mine, mine, ?_, ?_, ?_⟩, rfl⟩
  · intro y hy same
    obtain rfl := I.verification_ext hy hx (same.trans resolves.id)
    exact resolves.same.2.1.symm.trans mine
  · intro d hd
    obtain ⟨x, hx, rfl⟩ := List.mem_map.mp hd
    exact inside x hx
  · intro i same m hm id
    exact beq_iff_eq.mp (part_of_key (linked i same) m hm id)

/-! ## Starts -/

theorem isBound_share {db : Db} {phoneE164 : Text} :
    isBound (db.share A true) A phoneE164 = isBound db A phoneE164 :=
  any_part fun _ _ hit => (inShare (of_decide_eq_true hit).1).1

theorem phonePending_share {db : Db} {phoneE164 : Text} :
    phonePending (db.share A true) A phoneE164 = phonePending db A phoneE164 :=
  countP_part fun _ _ hit => (inShare (of_decide_eq_true hit).1).1

/-- The verifications on an app's receiver are the app's. -/
theorem pendingCount_share {db : Db} (T : db.Tenancy) {receiverId : Id}
    (mine : db.Owns A receiverId) :
    pendingCount (db.share A true) receiverId = pendingCount db receiverId := by
  refine countP_part fun x hx hit => ?_
  have owns := T.verifications x hx
  rw [(of_decide_eq_true hit).2] at owns
  exact (inShare (T.owner owns mine)).1

theorem runHealthyReceiverQuery_share {db : Db} (T : db.Tenancy) {operator : Option Text}
    {now : Time} {tie : Nat} : runHealthyReceiverQuery env (db.share A true) A operator now tie =
      runHealthyReceiverQuery env db A operator now tie := by
  have app : ∀ r, healthyReceiver env A operator now r = true → r.appId = A := by
    intro r healthy
    simp only [healthyReceiver, Bool.and_eq_true, decide_eq_true_eq] at healthy
    exact healthy.1.1.1
  have rows : (db.share A true).receivers.filter (healthyReceiver env A operator now) =
      db.receivers.filter (healthyReceiver env A operator now) :=
    filter_part fun r _ healthy => (inShare (app r healthy)).1
  have counts : ∀ r ∈ db.receivers.filter (healthyReceiver env A operator now),
      pendingCount (db.share A true) r.id = pendingCount db r.id := by
    intro r hr
    obtain ⟨hr, healthy⟩ := List.mem_filter.mp hr
    exact pendingCount_share T ⟨r, hr, rfl, app r healthy⟩
  have first : ∀ r ∈ db.receivers.filter (healthyReceiver env A operator now),
      ((db.receivers.filter (healthyReceiver env A operator now)).all fun r' =>
        !decide (pendingCount (db.share A true) r'.id < pendingCount (db.share A true) r.id ∨
          (pendingCount (db.share A true) r'.id = pendingCount (db.share A true) r.id ∧
            r'.createdAt < r.createdAt))) =
      (db.receivers.filter (healthyReceiver env A operator now)).all fun r' =>
        !decide (pendingCount db r'.id < pendingCount db r.id ∨
          (pendingCount db r'.id = pendingCount db r.id ∧ r'.createdAt < r.createdAt)) := by
    intro r hr
    refine all_congr_mem fun r' hr' => ?_
    rw [counts r hr, counts r' hr']
  unfold runHealthyReceiverQuery
  simp only [rows, List.filter_congr first]

theorem startVerification_local (T : v.db.Tenancy) {input : StartVerificationInput}
    {phase : StartPhase} (kept : Call.Kept v.db (.start input phase))
    (inside : Call.Scoped A v.db (.start input phase)) :
    startVerification env (v.share A) w input phase = startVerification env v w input phase := by
  obtain ⟨rfl, inside⟩ := inside
  have picked : ∀ operator now, runHealthyReceiverQuery env (v.share input.appId).db input.appId
      operator now w.tie = runHealthyReceiverQuery env v.db input.appId operator now w.tie :=
    fun operator now => runHealthyReceiverQuery_share T
  cases phase with
  | checkBinding =>
    have bound : isBound (v.share input.appId).db input.appId input.phoneE164 =
        isBound v.db input.appId input.phoneE164 := isBound_share
    simp only [startVerification, bound]
  | lockPhone draft number => rfl
  | countPending a =>
    have pending : phonePending (v.share input.appId).db input.appId input.phoneE164 =
        phonePending v.db input.appId input.phoneE164 := phonePending_share
    unfold phonePending at pending
    simp only [startVerification, pending]
  | pickPreferred a operator => simp only [startVerification, picked]
  | pickAny a => simp only [startVerification, picked]
  | insert a receiver =>
    have key : hasKey (·.id) a.draft.id (v.share input.appId).db.verifications =
        hasKey (·.id) a.draft.id v.db.verifications := hasKey_share inside
    have pending : (v.share input.appId).db.verifications.find?
        (pendingWith receiver.id input.phoneE164 a.code) =
          v.db.verifications.find? (pendingWith receiver.id input.phoneE164 a.code) := by
      refine find?_part fun x hx hit => ?_
      have owns := T.verifications x hx
      rw [(of_decide_eq_true hit).1] at owns
      exact (inShare (T.owner owns kept)).1
    simp only [startVerification, StartAttempt.row, key, pending]
    rfl
  | commit receiver row => rfl
  | done result => rfl
  | failed => rfl

theorem startVerification_inside (fresh : w.Fresh (v.db.share A false))
    {input : StartVerificationInput} {phase phase' : StartPhase} {x : Option Write}
    (inside : Call.Scoped A v.db (.start input phase))
    (h : startVerification env v w input phase = some (phase', x)) :
    (∀ write, x = some write → write.Inside A v.db) ∧ Call.Scoped A v.db (.start input phase') := by
  obtain ⟨app, inside⟩ := inside
  cases startVerification_step h with
  | bound => exact ⟨forall_of_none, app, fresh.verifications 0⟩
  | inserted => exact ⟨forall_of_none, app, app⟩
  | collided =>
    refine ⟨forall_of_none, app, ?_⟩
    unfold afterCollision
    split
    · exact inside
    · trivial
  | committed => exact ⟨fun _ same => Option.some.inj same ▸ ⟨inside, rfl⟩, app, trivial⟩
  | unbound => exact ⟨forall_of_none, app, trivial⟩
  | tooMany => exact ⟨forall_of_none, app, trivial⟩
  | noReceiver => exact ⟨forall_of_none, app, trivial⟩
  | _ => exact ⟨forall_of_none, app, inside⟩

/-! ## Bindings -/

theorem startBinding_local {input : StartBindingInput} {phase : StartBindingPhase}
    (inside : Call.Scoped A v.db (.bind input phase)) :
    startBinding env (v.share A) w input phase = startBinding env v w input phase := by
  cases phase with
  | selectReceiver phoneE164 =>
    obtain rfl : input.appId = A := inside
    have found : (v.share input.appId).db.receivers.find?
        (fun r => r.id = input.receiverId ∧ r.appId = input.appId) =
          v.db.receivers.find? fun r => r.id = input.receiverId ∧ r.appId = input.appId :=
      find?_part fun r _ hit => (inShare (of_decide_eq_true hit).2).1
    simp only [startBinding, found]
  | selectVerified phoneE164 sendTo =>
    obtain rfl : input.appId = A := inside
    have bound : (v.share input.appId).db.phoneBindings.any
        (fun b => b.appId = input.appId ∧ b.phoneE164 = phoneE164 ∧ b.status = .verified) =
          v.db.phoneBindings.any
            fun b => b.appId = input.appId ∧ b.phoneE164 = phoneE164 ∧ b.status = .verified :=
      any_part fun b _ hit => (inShare (of_decide_eq_true hit).1).1
    simp only [startBinding, bound]
  | insert row sendTo now =>
    have key : hasKey (·.id) row.id (v.share A).db.phoneBindings =
        hasKey (·.id) row.id v.db.phoneBindings := hasKey_share inside.2.2
    simp only [startBinding, key]
  | done result => rfl
  | failed => rfl

theorem startBinding_inside (fresh : w.Fresh (v.db.share A false)) {input : StartBindingInput}
    {phase phase' : StartBindingPhase} {x : Option Write}
    (inside : Call.Scoped A v.db (.bind input phase))
    (h : startBinding env v w input phase = some (phase', x)) :
    (∀ write, x = some write → write.Inside A v.db) ∧ Call.Scoped A v.db (.bind input phase') := by
  cases startBinding_step h with
  | drafted => exact ⟨forall_of_none, inside, inside, fresh.bindings 0⟩
  | inserted => exact ⟨fun _ same => Option.some.inj same ▸ ⟨inside.2.1, rfl⟩, inside.1⟩
  | _ => exact ⟨forall_of_none, inside⟩

theorem getBinding_share {db : Db} {id : Id} :
    getBinding (db.share A true) A id = getBinding db A id := by
  have found : (db.share A true).phoneBindings.find? (fun b => b.id = id ∧ b.appId = A) =
      db.phoneBindings.find? fun b => b.id = id ∧ b.appId = A :=
    find?_part fun b _ hit => (inShare (of_decide_eq_true hit).2).1
  simp only [getBinding, found]

theorem revokeBinding_share {db : Db} {id : Id} :
    revokeBinding (db.share A true) w A id = revokeBinding db w A id := by
  have found : (db.share A true).phoneBindings.find? (fun b => b.id = id ∧ b.appId = A) =
      db.phoneBindings.find? fun b => b.id = id ∧ b.appId = A :=
    find?_part fun b _ hit => (inShare (of_decide_eq_true hit).2).1
  simp only [revokeBinding, found]

/-! ## Posts -/

/-- The rows on an app's receiver are the app's. -/
theorem claimable_share {db : Db} (T : db.Tenancy) {receiverId : Id} (mine : db.Owns A receiverId)
    {x : Verification} (hx : x ∈ db.verifications) (same : x.receiverId = receiverId) :
    x.appId = A := T.owner (same ▸ T.verifications x hx) mine

theorem consumable_share {db : Db} (T : db.Tenancy) {input : ConsumeBindNonceInput} {now : Time}
    (mine : db.Owns A input.receiverId) :
    (db.share A true).phoneBindings.filter (consumable input now) =
      db.phoneBindings.filter (consumable input now) := by
  refine filter_part fun b hb hit => ?_
  have owns := T.bindings b hb
  rw [(of_decide_eq_true hit).2.2.1] at owns
  exact (inShare (T.owner owns mine)).1

/-- Bindings are unique in an app, so an app's cannot collide with those of another. -/
theorem activeUnique_split (A : Id) (bindings : List PhoneBinding) :
    activeUnique bindings =
      (activeUnique (bindings.filter fun b => decide (b.appId = A) == true) &&
        activeUnique (bindings.filter fun b => decide (b.appId = A) == false)) := by
  let verified (rows : List PhoneBinding) :=
    (rows.filter fun b => b.status = .verified).map fun b => (b.appId, b.phoneE164)
  have perm : (verified (bindings.filter fun b => decide (b.appId = A) == true) ++
      verified (bindings.filter fun b => decide (b.appId = A) == false)).Perm
        (verified bindings) := by
    have sides := List.filter_append_perm (fun b => decide (b.appId = A)) bindings
    simpa [verified] using (sides.filter _).map fun b => (b.appId, b.phoneE164)
  have apart : ∀ k ∈ verified (bindings.filter fun b => decide (b.appId = A) == true),
      ∀ k' ∈ verified (bindings.filter fun b => decide (b.appId = A) == false), k ≠ k' := by
    intro k hk k' hk' same
    obtain ⟨b, hb, rfl⟩ := List.mem_map.mp hk
    obtain ⟨b', hb', rfl⟩ := List.mem_map.mp hk'
    have mine : b.appId = A := by
      simpa using (List.mem_filter.mp (List.mem_filter.mp hb).1).2
    have other : b'.appId ≠ A := by
      simpa using (List.mem_filter.mp (List.mem_filter.mp hb').1).2
    exact other ((congrArg Prod.fst same).symm.trans mine)
  rw [Bool.eq_iff_iff, Bool.and_eq_true]
  simp only [activeUnique, decide_eq_true_eq]
  rw [← perm.nodup_iff, List.nodup_append]
  exact ⟨fun h => ⟨h.1, h.2.1⟩, fun h => ⟨h.1, h.2, apart⟩⟩

theorem activeUnique_share (I : Db.Inv env v.db) {write : Write} (of : write.Of A v.db) :
    activeUnique ((v.db.share A true).commit write).phoneBindings =
      activeUnique (v.db.commit write).phoneBindings := by
  obtain ⟨own, others⟩ := Db.share_commit of
  have before := I.active
  rw [activeUnique_split A, Bool.and_eq_true] at before
  have apart : activeUnique ((v.db.commit write).phoneBindings.filter
      fun b => decide (b.appId = A) == false) = true :=
    (congrArg (fun db => activeUnique db.phoneBindings) others).trans before.2
  rw [activeUnique_split A (v.db.commit write).phoneBindings, apart, Bool.and_true]
  exact congrArg (fun db => activeUnique db.phoneBindings) own.symm

theorem verifyBindings_of (I : Db.Inv env v.db) (T : v.db.Tenancy) {input : ConsumeBindNonceInput}
    (mine : v.db.Owns A input.receiverId) (now t : Time) :
    (Write.verifyBindings ((v.db.phoneBindings.filter (consumable input now)).map (·.id)) t).Of A
      v.db := by
  intro b hb id
  obtain ⟨x, hx, same⟩ := List.mem_map.mp id
  obtain ⟨hx, hit⟩ := List.mem_filter.mp hx
  obtain rfl := eq_of_key I.bindingIds hx hb same
  have owns := T.bindings x hx
  rw [(of_decide_eq_true hit).2.2.1] at owns
  exact T.owner owns mine

theorem consumeBindNonce_share (I : Db.Inv env v.db) (T : v.db.Tenancy) {tie : Nat}
    {input : ConsumeBindNonceInput} {now : Time} (mine : v.db.Owns A input.receiverId) :
    consumeBindNonce (v.db.share A true) tie input now = consumeBindNonce v.db tie input now := by
  have unique := activeUnique_share I (verifyBindings_of I T mine now now)
  simp only [consumeBindNonce, consumable_share T mine, unique]

/-- The probe looks for the nonce in every app, but nothing it finds changes the answer. -/
theorem probe_answer {input : MatchInput} {i : Id} {nonce : Text} {now : Time} :
    processInbound env v w input (.probeBind i nonce now) =
      some (.done (.unmatched .bindingNoMatch i), none) := by
  simp only [processInbound]
  split
  · next matched => exact absurd matched consumeBindNonceProbe_ne_matched
  · rfl

theorem processInbound_local (I : Db.Inv env v.db) (T : v.db.Tenancy)
    (fresh : w.Fresh (v.db.share A false)) {input : MatchInput} {phase : InboundPhase}
    (inside : Call.Scoped A v.db (.inbound input phase)) :
    processInbound env (v.share A) w input phase = processInbound env v w input phase := by
  obtain ⟨mine, stored, emitting⟩ := inside
  have owned : v.db.owns A input.receiverId = true := owns_iff.mpr mine
  have claims : ∀ code now, ∀ x ∈ v.db.verifications,
      claimable input.receiverId (input.fromE164 env) code now x = true →
        (decide (x.appId = A) == true) = true := by
    intro code now x hx hit
    exact (inShare (claimable_share T mine hx (of_decide_eq_true hit).1)).1
  cases phase with
  | insert =>
    let row := input.row env (newId .inbound (w.ulid 0)) w.dbNow
    have id : hasKey (·.id) row.id (v.share A).db.inboundSms =
        hasKey (·.id) row.id v.db.inboundSms := hasKey_share (fresh.inbound 0)
    have key : hasKey (·.idempotency) row.idempotency (v.share A).db.inboundSms =
        hasKey (·.idempotency) row.idempotency v.db.inboundSms := by
      refine hasKey_part fun m _ same => ?_
      rw [show m.receiverId = input.receiverId from congrArg Prod.fst same, owned]
      rfl
    simp only [row] at id key
    simp only [processInbound, id, key]
  | findPrior =>
    have found : (v.share A).db.inboundSms.find? (fun m =>
        m.receiverId = input.receiverId ∧ m.idempotencyKey = input.idempotencyKey) =
          v.db.inboundSms.find? fun m =>
            m.receiverId = input.receiverId ∧ m.idempotencyKey = input.idempotencyKey := by
      refine find?_part fun m _ hit => ?_
      rw [(of_decide_eq_true hit).1, owned]
      rfl
    simp only [processInbound, found]
  | consumeBind i nonce now =>
    have consumed : consumeBindNonce (v.share A).db w.tie
        ⟨input.receiverId, input.fromE164 env, nonce⟩ now =
          consumeBindNonce v.db w.tie ⟨input.receiverId, input.fromE164 env, nonce⟩ now :=
      consumeBindNonce_share I T mine
    simp only [processInbound, consumed]
  | probeBind i nonce now => rw [probe_answer, probe_answer]
  | annotate i bindingId => rfl
  | claimSnapshot i code now =>
    have seen : (v.share A).db.verifications.filter
        (claimable input.receiverId (input.fromE164 env) code now) = v.db.verifications.filter
          (claimable input.receiverId (input.fromE164 env) code now) :=
      filter_part (claims code now)
    simp only [processInbound, seen]
  | claimLock i code now candidates =>
    have free : (v.share A).db.verifications.filter (fun x => x.id ∈ candidates ∧
        claimable input.receiverId (input.fromE164 env) code now x ∧
          v.held (.verification x.id) = false) = v.db.verifications.filter fun x =>
        x.id ∈ candidates ∧ claimable input.receiverId (input.fromE164 env) code now x ∧
          v.held (.verification x.id) = false :=
      filter_part fun x hx hit => claims code now x hx (of_decide_eq_true hit).2.1
    simp only [processInbound, show (v.share A).held = v.held from rfl, free]
  | emit i row e =>
    obtain ⟨app, inside⟩ := emitting
    have same := emit_local .verified fresh inside
    simp only [processInbound, app, same]
  | commit i row e => rfl
  | clear i => rfl
  | done outcome => rfl
  | failed => rfl

theorem afterInsert_scoped {db : Db} {input : MatchInput} {i : Id} {now : Time}
    (fresh : hasKey (·.id) i (db.share A false).inboundSms = false) :
    (afterInsert env input i now).Scoped A db := by
  have own : ∀ j, some i = some j → hasKey (·.id) j (db.share A false).inboundSms = false :=
    fun j same => Option.some.inj same ▸ fresh
  unfold afterInsert
  split
  · exact ⟨own, trivial⟩
  · split
    · exact ⟨own, trivial⟩
    · exact ⟨own, trivial⟩

theorem setMatched_of {db : Db} {i : Id} {matched : Option Id}
    (own : hasKey (·.id) i (db.share A false).inboundSms = false) :
    (Write.setMatched i matched).Of A db :=
  fun m hm id => beq_iff_eq.mp (part_of_key own m hm id)

theorem processInbound_inside (I : Db.Inv env v.db) (T : v.db.Tenancy)
    (fresh : w.Fresh (v.db.share A false)) {input : MatchInput} {phase phase' : InboundPhase}
    {x : Option Write} (ok : Call.Ok env v.db (.inbound input phase))
    (inside : Call.Scoped A v.db (.inbound input phase))
    (h : processInbound env v w input phase = some (phase', x)) :
    (∀ write, x = some write → write.Inside A v.db) ∧
      Call.Scoped A v.db (.inbound input phase') := by
  obtain ⟨mine, stored, emitting⟩ := inside
  cases processInbound_step h with
  | stored =>
    exact ⟨fun _ same => Option.some.inj same ▸ ⟨owns_iff.mpr mine, rfl⟩, mine,
      afterInsert_scoped (fresh.inbound 0)⟩
  | clash => exact ⟨forall_of_none, mine, forall_of_none, trivial⟩
  | duplicate => exact ⟨forall_of_none, mine, forall_of_none, trivial⟩
  | rethrown => exact ⟨forall_of_none, mine, forall_of_none, trivial⟩
  | violated => exact ⟨forall_of_none, mine, forall_of_none, trivial⟩
  | consumed =>
    exact ⟨fun _ same => Option.some.inj same ▸ ⟨verifyBindings_of I T mine _ _, rfl⟩, mine,
      stored, trivial⟩
  | annotated =>
    exact ⟨fun _ same => Option.some.inj same ▸ ⟨setMatched_of (stored _ rfl), rfl⟩, mine, stored,
      trivial⟩
  | cleared =>
    exact ⟨fun _ same => Option.some.inj same ▸ ⟨setMatched_of (stored _ rfl), rfl⟩, mine, stored,
      trivial⟩
  | locked hx claim =>
    have app := claimable_share T mine hx (of_decide_eq_true claim.2).1
    exact ⟨forall_of_none, mine, stored, app, trivial⟩
  | returned => exact ⟨forall_of_none, mine, stored, emitting⟩
  | emitted taken =>
    obtain ⟨app, inside⟩ := emitting
    rw [app] at taken
    exact ⟨forall_of_none, mine, stored, app, emit_scoped I.endpointIds inside taken⟩
  | committed written =>
    obtain ⟨app, inside⟩ := emitting
    refine ⟨fun _ same => Option.some.inj same ▸ ?_, mine, stored, trivial⟩
    refine resolution_of I ok.2 app inside ?_ written
    exact fun i same => Option.some.inj same ▸ stored _ rfl
  | _ => exact ⟨forall_of_none, mine, stored, trivial⟩

/-! ## Reads, cancellations and expiries -/

theorem read_row_share {db : Db} {id : Id} :
    Read.row (db.share A true) (.getVerification A id) = Read.row db (.getVerification A id) :=
  find?_part fun _ _ hit => (inShare (of_decide_eq_true hit).2).1

theorem read_select_share {db : Db} {id : Id} :
    Read.select (db.share A true) (.getVerification A id) =
      Read.select db (.getVerification A id) := by
  simp only [Read.select, read_row_share]

/-- A read selects a verification of the app. -/
theorem read_select_inside (I : Db.Inv env v.db) {id : Id} :
    SelectionScoped A v.db (Read.select v.db (.getVerification A id)) := by
  intro s hs
  obtain ⟨row, found, rfl⟩ := Option.map_eq_some_iff.mp hs
  have hit : row.id = id ∧ row.appId = A := by simpa using List.find?_some found
  exact key_of_part I.verificationIds (List.mem_of_find?_eq_some found) (decide_eq_true hit.2)

/-- The expiry that a read starts is one of the row it has selected. -/
theorem due_inside {db : Db} {selected : Option SelectedRow} {id : Id} {now : Time}
    (inside : SelectionScoped A db selected) (h : due now selected = some id) :
    Call.Scoped A db (.expire id .update) := by
  cases selected with
  | none => exact nomatch h
  | some s =>
    obtain ⟨_, same⟩ := Option.ite_none_right_eq_some.mp h
    obtain rfl := Option.some.inj same
    exact inside s rfl

theorem cancelVerification_local (fresh : w.Fresh (v.db.share A false)) {id : Id}
    {phase : CancelPhase} (inside : Call.Scoped A v.db (.cancel A id phase)) :
    cancelVerification (v.share A) w A id phase = cancelVerification v w A id phase := by
  cases phase with
  | update =>
    have found : (v.share A).db.verifications.find?
        (fun x => x.id = id ∧ x.appId = A ∧ x.status = .pending) =
          v.db.verifications.find? fun x => x.id = id ∧ x.appId = A ∧ x.status = .pending :=
      find?_part fun x _ hit => (inShare (of_decide_eq_true hit).2.1).1
    simp only [cancelVerification, found]
    rfl
  | explain =>
    have found : (v.share A).db.verifications.find? (fun x => x.id = id ∧ x.appId = A) =
        v.db.verifications.find? fun x => x.id = id ∧ x.appId = A :=
      find?_part fun x _ hit => (inShare (of_decide_eq_true hit).2).1
    simp only [cancelVerification, found]
  | emit row e =>
    obtain ⟨_, app, inside⟩ := inside
    have same := emit_local .cancelled fresh inside
    simp only [cancelVerification, app, same]
  | reread =>
    have select : Read.select (v.share A).db (.getVerification A id) =
        Read.select v.db (.getVerification A id) := read_select_share
    simp only [cancelVerification, select]
  | tell selected => rfl
  | done result => rfl
  | failed => rfl

theorem cancelVerification_inside (I : Db.Inv env v.db) {id : Id} {phase phase' : CancelPhase}
    {x : Option Write} {expiry : Option Id} (ok : Call.Ok env v.db (.cancel A id phase))
    (inside : Call.Scoped A v.db (.cancel A id phase))
    (h : cancelVerification v w A id phase = some (phase', x, expiry)) :
    (∀ write, x = some write → write.Inside A v.db) ∧ Call.Scoped A v.db (.cancel A id phase') ∧
      ∀ due, expiry = some due → Call.Scoped A v.db (.expire due .update) := by
  cases cancelVerification_step h with
  | taken _ _ app => exact ⟨forall_of_none, ⟨rfl, app, trivial⟩, forall_of_none⟩
  | emitted unwritten next =>
    obtain ⟨_, app, inside⟩ := inside
    rw [app] at next
    exact ⟨forall_of_none, ⟨rfl, app, emit_scoped I.endpointIds inside next⟩, forall_of_none⟩
  | committed written =>
    obtain ⟨_, app, inside⟩ := inside
    refine ⟨fun _ same => Option.some.inj same ▸ ?_, rfl, forall_of_none⟩
    exact resolution_of I ok app inside forall_of_none written
  | selected => exact ⟨forall_of_none, ⟨rfl, read_select_inside I⟩, forall_of_none⟩
  | told => exact ⟨forall_of_none, rfl, fun id same => due_inside inside.2 same⟩
  | _ => exact ⟨forall_of_none, rfl, forall_of_none⟩

theorem lazyExpireAndEmit_local (fresh : w.Fresh (v.db.share A false)) {id : Id}
    {phase : ExpirePhase} (inside : Call.Scoped A v.db (.expire id phase)) :
    lazyExpireAndEmit (v.share A) w id phase = lazyExpireAndEmit v w id phase := by
  cases phase with
  | update =>
    have found : (v.share A).db.verifications.find? (fun x => x.id = id ∧ x.status = .pending) =
        v.db.verifications.find? fun x => x.id = id ∧ x.status = .pending :=
      find?_part fun x hx hit => part_of_key inside x hx (of_decide_eq_true hit).1
    simp only [lazyExpireAndEmit, found]
    rfl
  | emit row e =>
    obtain ⟨app, inside⟩ := inside
    have same := emit_local .expired fresh inside
    simp only [lazyExpireAndEmit, app, same]
  | done => rfl
  | failed => rfl

theorem lazyExpireAndEmit_inside (I : Db.Inv env v.db) {id : Id} {phase phase' : ExpirePhase}
    {x : Option Write} (ok : Call.Ok env v.db (.expire id phase))
    (inside : Call.Scoped A v.db (.expire id phase))
    (h : lazyExpireAndEmit v w id phase = some (phase', x)) :
    (∀ write, x = some write → write.Inside A v.db) ∧ Call.Scoped A v.db (.expire id phase') := by
  cases lazyExpireAndEmit_step h with
  | missed => exact ⟨forall_of_none, trivial⟩
  | @taken row hr same =>
    have mine := part_of_key inside row hr same
    exact ⟨forall_of_none, of_decide_eq_true (beq_iff_eq.mp mine), trivial⟩
  | emitted unwritten next =>
    obtain ⟨app, inside⟩ := inside
    rw [app] at next
    exact ⟨forall_of_none, app, emit_scoped I.endpointIds inside next⟩
  | committed written =>
    obtain ⟨app, inside⟩ := inside
    refine ⟨fun _ same => Option.some.inj same ▸ ?_, trivial⟩
    exact resolution_of I ok app inside forall_of_none written

/-! ## Calls -/

/-- What a statement of an app's call does: it writes in the app's rows, and the call and what it
has started stay the app's. -/
structure InsideTurn (A : Id) (db : Db) (t : Turn Db Call) (x : Option Write) : Prop where
  store : t.store = db.commitOption x
  write : ∀ write, x = some write → write.Inside A db
  call : t.call.Scoped A db
  spawned : ∀ n ∈ t.spawned, n.Scoped A db

theorem statement_inside (I : Db.Inv env v.db) (T : v.db.Tenancy)
    (fresh : w.Fresh (v.db.share A false)) {c : Call} (ok : c.Ok env v.db)
    (inside : c.Scoped A v.db) {t : Turn Db Call} (h : c.statement env v w = some t) :
    ∃ x, InsideTurn A v.db t x := by
  cases c with
  | start input phase =>
    obtain ⟨⟨phase', x⟩, hr, rfl⟩ := Option.map_eq_some_iff.mp h
    obtain ⟨write, call⟩ := startVerification_inside fresh inside hr
    exact ⟨x, rfl, write, call, (fun _ hn => nomatch hn)⟩
  | rejected error => exact nomatch h
  | inbound input phase =>
    obtain ⟨⟨phase', x⟩, hr, rfl⟩ := Option.map_eq_some_iff.mp h
    obtain ⟨write, call⟩ := processInbound_inside I T fresh ok inside hr
    exact ⟨x, rfl, write, call, (fun _ hn => nomatch hn)⟩
  | cancel appId id phase =>
    obtain ⟨⟨phase', x, expiry⟩, hr, rfl⟩ := Option.map_eq_some_iff.mp h
    obtain rfl : appId = A := inside.cancelled
    obtain ⟨write, call, started⟩ := cancelVerification_inside I ok inside hr
    refine ⟨x, rfl, write, call, ?_⟩
    intro n hn
    obtain ⟨due, same, rfl⟩ := List.mem_map.mp hn
    exact started due (Option.mem_toList.mp same)
  | expire id phase =>
    obtain ⟨⟨phase', x⟩, hr, rfl⟩ := Option.map_eq_some_iff.mp h
    obtain ⟨write, call⟩ := lazyExpireAndEmit_inside I ok inside hr
    exact ⟨x, rfl, write, call, (fun _ hn => nomatch hn)⟩
  | read r phase =>
    cases phase with
    | select =>
      obtain ⟨id, rfl⟩ := inside
      obtain rfl := Option.some.inj h
      exact ⟨none, rfl, forall_of_none, ⟨⟨id, rfl⟩, read_select_inside I⟩, (fun _ hn => nomatch hn)⟩
    | tell selected =>
      obtain ⟨⟨id, rfl⟩, selects⟩ := inside
      obtain rfl := Option.some.inj h
      refine ⟨none, rfl, forall_of_none, ⟨id, rfl⟩, ?_⟩
      intro n hn
      obtain ⟨due, same, rfl⟩ := List.mem_map.mp hn
      exact due_inside selects (Option.mem_toList.mp same)
    | _ => exact nomatch h
  | bind input phase =>
    obtain ⟨⟨phase', x⟩, hr, rfl⟩ := Option.map_eq_some_iff.mp h
    obtain ⟨write, call⟩ := startBinding_inside fresh inside hr
    exact ⟨x, rfl, write, call, (fun _ hn => nomatch hn)⟩
  | revoke appId id phase =>
    cases phase with
    | ready =>
      obtain rfl := Option.some.inj h
      refine ⟨_, rfl, ?_, inside, (fun _ hn => nomatch hn)⟩
      intro write same
      unfold revokeBinding at same
      split at same
      · exact nomatch same
      · exact Option.some.inj same ▸ ⟨inside, rfl⟩
    | _ => exact nomatch h
  | maintain m phase => exact inside.elim

theorem Db.share_commitOption {db : Db} {x : Option Write}
    (of : ∀ write, x = some write → write.Of A db) :
    (db.commitOption x).share A true = (db.share A true).commitOption x ∧
      (db.commitOption x).share A false = db.share A false := by
  cases x with
  | none => exact ⟨rfl, rfl⟩
  | some write => exact Db.share_commit (of write rfl)

theorem statement_local (I : Db.Inv env v.db) (T : v.db.Tenancy)
    (fresh : w.Fresh (v.db.share A false)) {c : Call} (ok : c.Ok env v.db) (kept : c.Kept v.db)
    (inside : c.Scoped A v.db) :
    (c.statement env v w).map (Turn.mapStore (Db.share · A true)) =
      c.statement env (v.share A) w := by
  have shared : ∀ {α : Type} {decided : Option α} {write : α → Option Write} {next : α → Call}
      {spawned : α → List Call},
      (∀ r, decided = some r → ∀ x, write r = some x → x.Inside A v.db) →
      (decided.map fun r => (⟨v.db.commitOption (write r), next r, spawned r⟩ : Turn Db Call)).map
        (Turn.mapStore (Db.share · A true)) =
          decided.map fun r => ⟨(v.share A).db.commitOption (write r), next r, spawned r⟩ := by
    intro _ _ _ _ _ inside
    exact Turn.map_mapStore fun r hr =>
      (Db.share_commitOption fun x hx => (inside r hr x hx).of).1
  cases c with
  | start input phase =>
    simp only [Call.statement, startVerification_local T kept inside]
    exact shared fun r hr => (startVerification_inside fresh inside hr).1
  | rejected error => rfl
  | inbound input phase =>
    simp only [Call.statement, processInbound_local I T fresh inside]
    exact shared fun r hr => (processInbound_inside I T fresh ok inside hr).1
  | cancel appId id phase =>
    obtain rfl : appId = A := inside.cancelled
    simp only [Call.statement, cancelVerification_local fresh inside]
    exact shared fun r hr => (cancelVerification_inside I ok inside hr).1
  | expire id phase =>
    simp only [Call.statement, lazyExpireAndEmit_local fresh inside]
    exact shared fun r hr => (lazyExpireAndEmit_inside I ok inside hr).1
  | read r phase =>
    obtain ⟨id, rfl⟩ := inside.reads
    have select : Read.select (v.share A).db (.getVerification A id) =
        Read.select v.db (.getVerification A id) := read_select_share
    cases phase with
    | select =>
      simp only [Call.statement, select]
      rfl
    | _ => rfl
  | bind input phase =>
    simp only [Call.statement, startBinding_local inside]
    exact shared fun r hr => (startBinding_inside fresh inside hr).1
  | revoke appId id phase =>
    obtain rfl : appId = A := inside
    have same : revokeBinding (v.share appId).db w appId id = revokeBinding v.db w appId id :=
      revokeBinding_share
    have of : ∀ write, (revokeBinding v.db w appId id).2 = some write → write.Of appId v.db := by
      intro write written
      unfold revokeBinding at written
      split at written
      · exact nomatch written
      · exact Option.some.inj written ▸ rfl
    cases phase with
    | ready =>
      have store := (Db.share_commitOption of).1
      simp only [Call.statement, Option.map_some, Turn.mapStore, store, same]
      rfl
    | _ => rfl
  | maintain m phase => exact inside.elim

end

end Syrotp
