import Syrotp.Server.Proofs.CallStep

/-!
# What each statement does

A statement establishes the assertion of the stage it leads to, and what it writes is justified
and within the call's tokens (`Lawful`). One lemma per service function; no proof after these
unfolds one of them again to learn about the database.
-/

namespace Syrotp

/-- A statement of `c` that led to `c'` and wrote `w`: what it wrote is justified and within the
tokens of `c`, the assertion of `c'` holds, and what `c'` owns in addition was free. -/
structure Lawful (env : Env) (v : View) (c c' : Call) (w : Option Write) : Prop where
  justified : ∀ x, w = some x → Justified env v.db x
  within : ∀ x, w = some x → ∀ k ∈ x.tokens, k ∈ c.tokens
  ok : c'.Ok env (v.db.commitOption w)
  locks : ∀ l ∈ c'.locks, l ∈ c.locks ∨ v.held l = false
  stored : ∀ i, c'.stored = some i →
    c.stored = some i ∨ hasKey (·.id) i v.db.inboundSms = false

section Statement

variable {env : Env} {v : View} {w : World}

/-- A statement that only reads. -/
theorem Lawful.read {c c' : Call} (ok : c'.Ok env v.db)
    (locks : ∀ l ∈ c'.locks, l ∈ c.locks ∨ v.held l = false)
    (stored : ∀ i, c'.stored = some i → c.stored = some i) : Lawful env v c c' none where
  justified := fun _ h => nomatch h
  within := fun _ h => nomatch h
  ok := ok
  locks := locks
  stored := fun i h => .inl (stored i h)

/-- A statement that commits and leaves the call without locks. -/
theorem Lawful.write {c c' : Call} {x : Write} (justified : Justified env v.db x)
    (within : ∀ k ∈ x.tokens, k ∈ c.tokens) (ok : c'.Ok env (v.db.commit x))
    (free : c'.locks = []) (stored : ∀ i, c'.stored = some i →
      c.stored = some i ∨ hasKey (·.id) i v.db.inboundSms = false) :
    Lawful env v c c' (some x) where
  justified := fun _ h => Option.some.inj h ▸ justified
  within := fun _ h => Option.some.inj h ▸ within
  ok := ok
  locks := fun l hl => by simp [free] at hl
  stored := stored

theorem freshKey_iff {id : Id} {taken : Bool} :
    v.freshKey id taken = true ↔ taken = false ∧ v.held (.key id) = false := by
  simp [View.freshKey]

/-- A statement of an emission inserts fresh keys that no other transaction is inserting. -/
theorem emit_fresh {eventType : VerificationEventType} {appId : Id} {e e' : Emission}
    (fresh : e.Fresh v.db) (h : emitVerificationEventInTx v w eventType appId e = some e') :
    e'.Fresh v.db ∧ ∀ l ∈ e'.locks, l ∈ e.locks ∨ v.held l = false := by
  cases e with
  | insertEvent =>
    simp only [emitVerificationEventInTx, Option.ite_none_right_eq_some, Option.some.injEq] at h
    obtain ⟨new, rfl⟩ := h
    obtain ⟨absent, free⟩ := freshKey_iff.mp new
    exact ⟨absent, by simpa [Emission.locks] using free⟩
  | selectEndpoints eventId t =>
    simp only [emitVerificationEventInTx] at h
    split at h
    · obtain rfl := Option.some.inj h
      exact ⟨⟨fresh, by simp, by simp⟩, by simp [Emission.locks]⟩
    · obtain rfl := Option.some.inj h
      exact ⟨fresh, by simp [Emission.locks]⟩
  | insertDeliveries eventId t endpoints =>
    simp only [emitVerificationEventInTx, Option.ite_none_right_eq_some, List.all_eq_true,
      Option.some.injEq] at h
    obtain ⟨⟨new, distinct⟩, rfl⟩ := h
    have keys : ∀ d ∈ endpoints.mapIdx fun i e => (newId .webhookDelivery (w.ulid i), e),
        hasKey (·.id) d.1 v.db.webhookDeliveries = false ∧ v.held (.key d.1) = false := by
      intro d hd
      exact freshKey_iff.mp (Bool.and_eq_true_iff.mp (new d hd)).1
    refine ⟨⟨fresh, fun d hd => (keys d hd).1, distinct⟩, fun l hl => ?_⟩
    rcases List.mem_cons.mp hl with rfl | hl
    · exact .inl (by simp [Emission.locks])
    · obtain ⟨d, hd, rfl⟩ := List.mem_map.mp hl
      exact .inr (keys d hd).2
  | returned eventId t ds => simp [emitVerificationEventInTx] at h

theorem Emitting.next {row : Verification} {eventType : VerificationEventType}
    {inbound : Option Id} {e e' : Emission} (h : Emitting env v.db row eventType inbound e)
    (he : emitVerificationEventInTx v w eventType row.appId e = some e') :
    Emitting env v.db row eventType inbound e' ∧
      ∀ l ∈ emitLocks row e', l ∈ emitLocks row e ∨ v.held l = false := by
  obtain ⟨x, hx, pending, resolves, backed, fresh⟩ := h
  obtain ⟨fresh', locks⟩ := emit_fresh fresh he
  refine ⟨⟨x, hx, pending, resolves, backed, fresh'⟩, fun l hl => ?_⟩
  rcases List.mem_cons.mp hl with rfl | hl
  · exact .inl (by simp [emitLocks])
  · exact (locks l hl).imp (List.mem_cons_of_mem _) id

/-- Committing a resolution is justified and within the transaction's tokens. -/
theorem Emitting.write {row : Verification} {eventType : VerificationEventType}
    {inbound : Option Id} {e : Emission} {x : Write} {c : Call}
    (h : Emitting env v.db row eventType inbound e)
    (hx : e.write? row eventType inbound = some x)
    (locks : ∀ l ∈ emitLocks row e, l ∈ c.locks)
    (owned : ∀ i, inbound = some i → c.stored = some i) :
    Justified env v.db x ∧ ∀ k ∈ x.tokens, k ∈ c.tokens := by
  obtain ⟨eventId, t, ds, rfl, rfl⟩ := Emission.write?_eq_some hx
  refine ⟨⟨eventType, _, h, hx⟩, fun k hk => ?_⟩
  simp only [Write.tokens, List.mem_cons, List.mem_append, List.mem_map, List.map_map,
    Option.mem_toList, Function.comp_apply] at hk
  rcases hk with rfl | rfl | ⟨d, hd, rfl⟩ | ⟨i, hi, rfl⟩
  · exact mem_tokens_lock.mpr (locks _ (by simp [emitLocks]))
  · exact mem_tokens_lock.mpr (locks _ (by simp [emitLocks, Emission.locks, eventRow]))
  · refine mem_tokens_lock.mpr (locks _ ?_)
    simp only [emitLocks, Emission.locks, List.mem_cons, List.mem_map, deliveryRow]
    exact .inr (.inr ⟨d, hd, rfl⟩)
  · exact mem_tokens_stored.mpr (owned i hi)

theorem isBound_custody (I : Db.Inv env v.db) {appId : Id} {phoneE164 : Text}
    (h : isBound v.db appId phoneE164 = true) : Custody v.db appId phoneE164 := by
  simp only [isBound, List.any_eq_true, decide_eq_true_eq] at h
  obtain ⟨b, hb, app, phone, verified⟩ := h
  exact ⟨b, hb, app, phone, by simp [verified], I.boundDates b hb verified⟩

theorem startVerification_lawful (I : Db.Inv env v.db) {input : StartVerificationInput}
    {phase phase' : StartPhase} {x : Option Write} (ok : phase.Ok env v.db input)
    (h : startVerification env v w input phase = some (phase', x)) :
    Lawful env v (.start input phase) (.start input phase') x := by
  cases startVerification_step h with
  | bound found =>
    exact .read ⟨ok, isBound_custody I found, rfl⟩ (fun _ hl => nomatch hl)
      (fun _ hi => nomatch hi)
  | locked free =>
    refine .read ok (fun l hl => ?_) (fun _ hi => nomatch hi)
    obtain rfl := List.mem_singleton.mp hl
    exact .inr free
  | preferring => exact .read ok (fun _ hl => .inl hl) (fun _ hi => nomatch hi)
  | counted => exact .read ok (fun _ hl => .inl hl) (fun _ hi => nomatch hi)
  | preferred => exact .read ok (fun _ hl => .inl hl) (fun _ hi => nomatch hi)
  | fallback => exact .read ok (fun _ hl => .inl hl) (fun _ hi => nomatch hi)
  | picked => exact .read ok (fun _ hl => .inl hl) (fun _ hi => nomatch hi)
  | unbound => exact .read trivial (fun _ hl => nomatch hl) (fun _ hi => nomatch hi)
  | tooMany => exact .read trivial (fun _ hl => nomatch hl) (fun _ hi => nomatch hi)
  | noReceiver => exact .read trivial (fun _ hl => nomatch hl) (fun _ hi => nomatch hi)
  | @inserted a receiver key pendingKey absent unused =>
    have insertable : Insertable env v.db (a.row env input receiver) :=
      { pending := rfl
        kind := ok.2.2
        unmatched := rfl
        normalized := ok.1
        custody := ok.2.1
        newId := absent
        newCode := unused }
    refine .read insertable (fun l hl => ?_) (fun _ hi => nomatch hi)
    rcases List.mem_cons.mp hl with rfl | hl
    · exact .inl (List.mem_singleton_self _)
    · rcases List.mem_cons.mp hl with rfl | hl
      · exact .inr key
      · exact .inr (List.mem_singleton.mp hl ▸ pendingKey)
  | collided =>
    unfold afterCollision
    split
    · exact .read ok (fun _ hl => nomatch hl) (fun _ hi => nomatch hi)
    · exact .read trivial (fun _ hl => nomatch hl) (fun _ hi => nomatch hi)
  | committed =>
    refine .write ok (fun k hk => ?_) trivial rfl (fun _ hi => nomatch hi)
    simp only [Write.tokens, List.mem_cons, List.not_mem_nil, or_false] at hk
    rcases hk with rfl | rfl <;> simp [Call.locks, StartPhase.locks]

theorem cancelVerification_lawful {appId id : Id} {phase phase' : CancelPhase}
    {x : Option Write} {expiry : Option Id} (ok : Call.Ok env v.db (.cancel appId id phase))
    (h : cancelVerification v w appId id phase = some (phase', x, expiry)) :
    Lawful env v (.cancel appId id phase) (.cancel appId id phase') x := by
  cases cancelVerification_step h with
  | missed => exact .read trivial (fun _ hl => nomatch hl) (fun _ hi => nomatch hi)
  | @taken y hy same app pending free =>
    refine .read ⟨y, hy, pending, .cancelled _, trivial, trivial⟩ (fun l hl => ?_)
      (fun _ hi => nomatch hi)
    obtain rfl := List.mem_singleton.mp hl
    exact .inr free
  | unknown => exact .read trivial (fun _ hl => nomatch hl) (fun _ hi => nomatch hi)
  | settled => exact .read trivial (fun _ hl => nomatch hl) (fun _ hi => nomatch hi)
  | emitted unwritten next =>
    obtain ⟨ok', locks⟩ := Emitting.next ok next
    exact .read ok' locks (fun _ hi => nomatch hi)
  | committed written =>
    obtain ⟨justified, within⟩ := Emitting.write (c := .cancel appId id (.emit _ _))
      ok written (fun l hl => hl) (fun _ hi => nomatch hi)
    exact .write justified within trivial rfl (fun _ hi => nomatch hi)
  | selected => exact .read trivial (fun _ hl => nomatch hl) (fun _ hi => nomatch hi)
  | told => exact .read trivial (fun _ hl => nomatch hl) (fun _ hi => nomatch hi)

theorem lazyExpireAndEmit_lawful {id : Id} {phase phase' : ExpirePhase} {x : Option Write}
    (ok : Call.Ok env v.db (.expire id phase))
    (h : lazyExpireAndEmit v w id phase = some (phase', x)) :
    Lawful env v (.expire id phase) (.expire id phase') x := by
  cases lazyExpireAndEmit_step h with
  | missed => exact .read trivial (fun _ hl => nomatch hl) (fun _ hi => nomatch hi)
  | @taken y hy same pending free =>
    refine .read ⟨y, hy, pending, .expired, trivial, trivial⟩ (fun l hl => ?_)
      (fun _ hi => nomatch hi)
    obtain rfl := List.mem_singleton.mp hl
    exact .inr free
  | emitted unwritten next =>
    obtain ⟨ok', locks⟩ := Emitting.next ok next
    exact .read ok' locks (fun _ hi => nomatch hi)
  | committed written =>
    obtain ⟨justified, within⟩ := Emitting.write (c := .expire id (.emit _ _))
      ok written (fun l hl => hl) (fun _ hi => nomatch hi)
    exact .write justified within trivial rfl (fun _ hi => nomatch hi)

theorem startBinding_lawful {input : StartBindingInput} {phase phase' : StartBindingPhase}
    {x : Option Write} (ok : Call.Ok env v.db (.bind input phase))
    (h : startBinding env v w input phase = some (phase', x)) :
    Lawful env v (.bind input phase) (.bind input phase') x := by
  cases startBinding_step h with
  | drafted =>
    exact .read ⟨rfl, rfl, rfl, rfl⟩ (fun _ hl => nomatch hl) (fun _ hi => nomatch hi)
  | inserted absent =>
    obtain ⟨pending, unbound, unrevoked, kind⟩ := ok
    exact .write ⟨pending, unbound, unrevoked, kind, absent⟩ (fun _ hk => nomatch hk) trivial rfl
      (fun _ hi => nomatch hi)
  | _ => exact .read trivial (fun _ hl => nomatch hl) (fun _ hi => nomatch hi)

/-- No verification names a row that does not exist. -/
theorem Db.Inv.unclaimed_fresh {db : Db} (I : Db.Inv env db) {i : Id}
    (fresh : hasKey (·.id) i db.inboundSms = false) : Unclaimed db i := by
  intro x hx link
  by_cases verified : x.status = .verified
  · obtain ⟨m, hm, link', _⟩ := I.linked x hx verified
    exact hasKey_eq_false.mp fresh m hm (Option.some.inj (link'.symm.trans link))
  · simp [I.unlinked x hx verified] at link

/-- The route bounds the body by what is stored of it. -/
theorem MatchInput.row_body (input : MatchInput) (i : Id) (t : Time) :
    (input.row env i t).body = input.body := List.take_of_length_le input.body_range.2

theorem Stored.setMatched {db : Db} {input : MatchInput} {i : Id} {before : Option Id}
    (h : Stored env db input i before) (matched : Option Id) :
    Stored env (db.commit (.setMatched i matched)) input i matched := by
  obtain ⟨t, ht⟩ := h
  exact ⟨t, mem_updateWhere.mpr ⟨_, ht, by simp [MatchInput.row]⟩⟩

theorem afterInsert_ok {input : MatchInput} {i : Id} {now : Time} {db : Db}
    (h : Storing env db input i) : (afterInsert env input i now).Ok env db input := by
  unfold afterInsert
  split
  · next nonce => exact ⟨h, nonce⟩
  · split
    · exact h.1
    · next code => exact ⟨h, code⟩

theorem afterInsert_locks {input : MatchInput} {i : Id} {now : Time} :
    (afterInsert env input i now).locks = [] := by
  unfold afterInsert
  split
  · rfl
  · split <;> rfl

theorem afterInsert_stored {input : MatchInput} {i : Id} {now : Time} :
    (afterInsert env input i now).stored = some i := by
  unfold afterInsert
  split
  · rfl
  · split <;> rfl

/-- The row that the claim picks, and what the claim rests on. -/
theorem claim_emitting {db : Db} {input : MatchInput} {i : Id} {code : Text} {now : Time}
    {x : Verification} (h : Storing env db input i)
    (extracted : extractCode env.platform input.body = some code) (hx : x ∈ db.verifications)
    (claim : claimable input.receiverId (input.fromE164 env) code now x = true) :
    Emitting env db (x.claimed i now) .verified (some i) .insertEvent := by
  simp only [claimable, decide_eq_true_eq] at claim
  obtain ⟨receiver, phone, same, pending, before⟩ := claim
  obtain ⟨⟨t, ht⟩, unclaimed⟩ := h
  refine ⟨x, hx, pending, .verified i now before, ⟨unclaimed, _, ht, rfl, rfl, ?_⟩, trivial⟩
  refine ⟨receiver.symm, phone.symm, ?_⟩
  rw [input.row_body, extracted, same]

theorem processInbound_lawful (I : Db.Inv env v.db) {input : MatchInput}
    {phase phase' : InboundPhase} {x : Option Write} (ok : phase.Ok env v.db input)
    (h : processInbound env v w input phase = some (phase', x)) :
    Lawful env v (.inbound input phase) (.inbound input phase') x := by
  cases processInbound_step h with
  | stored freshId freshKey =>
    have justified : Justified env v.db
        (.insertInbound (input.row env (newId .inbound (w.ulid 0)) w.dbNow)) :=
      ⟨freshId, freshKey, rfl⟩
    refine .write justified (fun _ hk => nomatch hk) (afterInsert_ok ⟨?_, ?_⟩)
      afterInsert_locks (fun j hj => ?_)
    · exact ⟨w.dbNow, List.mem_append_right _ (List.mem_singleton_self _)⟩
    · exact (I.unclaimed_fresh freshId).commit justified List.not_mem_nil
    · obtain rfl := Option.some.inj (afterInsert_stored.symm.trans hj)
      exact .inr freshId
  | clash => exact .read trivial (fun _ hl => nomatch hl) (fun _ hi => nomatch hi)
  | duplicate found key =>
    exact .read ⟨_, found, rfl, key⟩ (fun _ hl => nomatch hl) (fun _ hi => nomatch hi)
  | rethrown => exact .read trivial (fun _ hl => nomatch hl) (fun _ hi => nomatch hi)
  | violated => exact .read trivial (fun _ hl => nomatch hl) (fun _ hi => nomatch hi)
  | @consumed i nonce now b hb _ unique =>
    have justified : Justified env v.db (.verifyBindings
        ((v.db.phoneBindings.filter (consumable (input.bind env nonce) now)).map (·.id)) now) := by
      refine ⟨fun x hx named => ?_, unique⟩
      obtain ⟨y, hy, same⟩ := List.mem_map.mp named
      obtain ⟨hy, hit⟩ := List.mem_filter.mp hy
      obtain rfl := eq_of_key I.bindingIds hy hx same
      simp only [consumable, decide_eq_true_eq] at hit
      exact hit.2.1
    exact .write justified (fun _ hk => nomatch hk)
      ⟨ok.1.commit justified List.not_mem_nil, I.bindingKinds _ hb⟩ rfl (fun _ hi => .inl hi)
  | unconsumed => exact .read ok (fun _ hl => nomatch hl) (fun _ hi => hi)
  | probed => exact .read ok.1.1 (fun _ hl => nomatch hl) (fun _ hi => hi)
  | annotated =>
    refine .write ⟨ok.1.2, ?_⟩ (fun k hk => ?_) (ok.1.1.setMatched _) rfl (fun _ hi => .inl hi)
    · rintro _ ⟨rfl⟩
      exact ok.2
    · obtain rfl := List.mem_singleton.mp hk
      exact mem_tokens_stored.mpr rfl
  | snapshot => exact .read ok (fun _ hl => nomatch hl) (fun _ hi => hi)
  | locked hy claim free =>
    refine .read ⟨ok.1.1, claim_emitting ok.1 ok.2 hy claim.2⟩ (fun l hl => ?_) (fun _ hi => hi)
    obtain rfl := List.mem_singleton.mp hl
    exact .inr free
  | passed => exact .read ok.1 (fun _ hl => nomatch hl) (fun _ hi => hi)
  | returned => exact .read ok (fun _ hl => .inl hl) (fun _ hi => hi)
  | emitted taken =>
    obtain ⟨ok', locks⟩ := ok.2.next taken
    exact .read ⟨ok.1, ok'⟩ locks (fun _ hi => hi)
  | @committed i row emission write written =>
    obtain ⟨justified, within⟩ := ok.2.write (c := .inbound input (.commit i row emission))
      written (fun l hl => hl) (fun _ hi => hi ▸ rfl)
    refine .write justified within ?_ rfl (fun _ hi => .inl hi)
    obtain ⟨_, _, _, _, rfl⟩ := Emission.write?_eq_some written
    exact ok.1.setMatched (some row.id)
  | cleared =>
    refine .write ⟨ok.2, nofun⟩ (fun k hk => ?_) (ok.1.setMatched _) rfl (fun _ hi => .inl hi)
    obtain rfl := List.mem_singleton.mp hk
    exact mem_tokens_stored.mpr rfl

end Statement

end Syrotp
