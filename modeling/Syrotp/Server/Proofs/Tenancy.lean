import Syrotp.Server.Proofs.Discipline

/-!
# Rows stay with their app

A verification or a binding names a receiver of its own app: a start picks its receiver among those
of the app, a binding ceremony checks it, and nothing moves a receiver to another app. Posts rely on
it, since a gateway's request is scoped by its receiver only.
-/

namespace Syrotp

/-- The app has a receiver with this id. -/
def Db.Owns (db : Db) (appId receiverId : Id) : Prop :=
  ∃ r ∈ db.receivers, r.id = receiverId ∧ r.appId = appId

instance (db : Db) (appId receiverId : Id) : Decidable (db.Owns appId receiverId) :=
  inferInstanceAs (Decidable (∃ r ∈ db.receivers, r.id = receiverId ∧ r.appId = appId))

structure Db.Tenancy (db : Db) : Prop where
  receiverIds : (db.receivers.map (·.id)).Nodup
  verifications : ∀ v ∈ db.verifications, db.Owns v.appId v.receiverId
  bindings : ∀ b ∈ db.phoneBindings, db.Owns b.appId b.receiverId

theorem Db.Tenancy.empty : Db.Tenancy .empty := by
  constructor <;> simp [Db.empty]

/-- A receiver belongs to one app. -/
theorem Db.Tenancy.owner {db : Db} (T : db.Tenancy) {a b receiverId : Id}
    (ha : db.Owns a receiverId) (hb : db.Owns b receiverId) : a = b := by
  obtain ⟨r, hr, idA, rfl⟩ := ha
  obtain ⟨x, hx, idB, rfl⟩ := hb
  rw [eq_of_key T.receiverIds hr hx (idA.trans idB.symm)]

/-- What a write has to respect. -/
def Write.Settles (db : Db) : Write → Prop
  | .insertVerification row => db.Owns row.appId row.receiverId
  | .insertBinding row => db.Owns row.appId row.receiverId
  | .putReceiver row => ∀ r ∈ db.receivers, r.id = row.id → r.appId = row.appId
  | _ => True

/-- What a call knows of the receiver it is about to name. -/
def Call.Kept (db : Db) : Call → Prop
  | .start input (.insert _ receiver) => db.Owns input.appId receiver.id
  | .start _ (.commit _ row) => db.Owns row.appId row.receiverId
  | .bind input (.selectVerified _ _) => db.Owns input.appId input.receiverId
  | .bind _ (.insert row _ _) => db.Owns row.appId row.receiverId
  | _ => True

section Commit

variable {env : Env} {db : Db} {w : Write}

theorem Db.Owns.commit {appId receiverId : Id} (h : db.Owns appId receiverId)
    (settles : w.Settles db) : (db.commit w).Owns appId receiverId := by
  cases w with
  | putReceiver row =>
    obtain ⟨r, hr, id, app⟩ := h
    by_cases same : r.id = row.id
    · refine ⟨row, List.mem_append_right _ (List.mem_singleton.mpr rfl), same ▸ id, ?_⟩
      rw [← settles r hr same]
      exact app
    · exact ⟨r, List.mem_append_left _ (List.mem_filter.mpr ⟨hr, by simpa using same⟩), id, app⟩
  | _ => exact h

theorem Call.Kept.commit {c : Call} (h : c.Kept db) (settles : w.Settles db) :
    c.Kept (db.commit w) := by
  cases c with
  | start input phase =>
    cases phase with
    | insert => exact Db.Owns.commit h settles
    | commit => exact Db.Owns.commit h settles
    | _ => trivial
  | bind input phase =>
    cases phase with
    | selectVerified => exact Db.Owns.commit h settles
    | insert => exact Db.Owns.commit h settles
    | _ => trivial
  | _ => trivial

theorem receiverIds_commit (w : Write) (h : (db.receivers.map (·.id)).Nodup) :
    ((db.commit w).receivers.map (·.id)).Nodup := by
  cases w with
  | putReceiver row =>
    have others : ((db.receivers.filter fun r => r.id ≠ row.id).map (·.id)).Nodup :=
      h.sublist (List.filter_sublist.map _)
    refine nodup_insert others (hasKey_eq_false.mpr fun r hr => ?_)
    simpa using (List.mem_filter.mp hr).2
  | _ => exact h

theorem Db.Tenancy.commit (T : db.Tenancy) (J : Justified env db w) (settles : w.Settles db) :
    (db.commit w).Tenancy where
  receiverIds := receiverIds_commit w T.receiverIds
  verifications := by
    intro v hv
    refine Db.Owns.commit ?_ settles
    rcases verification_origin hv with ⟨old, _⟩ | rfl | ⟨event, deliveries, inbound, rfl⟩
    · exact T.verifications v old
    · exact settles
    · obtain ⟨x, hx, _, _, _, _, _, resolves, _⟩ := J.resolve
      obtain ⟨_, app, _, receiver, _⟩ := resolves.same
      rw [app, receiver]
      exact T.verifications x hx
  bindings := by
    intro b hb
    refine Db.Owns.commit ?_ settles
    cases w with
    | insertBinding row =>
      rcases List.mem_append.mp hb with old | new
      · exact T.bindings b old
      · rw [List.mem_singleton.mp new]
        exact settles
    | verifyBindings ids t =>
      rcases mem_updateWhere_cases hb with ⟨x, hx, _, rfl⟩ | ⟨old, _⟩
      · exact T.bindings x hx
      · exact T.bindings b old
    | revokeBinding appId id t =>
      rcases mem_updateWhere_cases hb with ⟨x, hx, _, rfl⟩ | ⟨old, _⟩
      · exact T.bindings x hx
      · exact T.bindings b old
    | _ => exact T.bindings b hb

end Commit

/-! ## Statements -/

section Statement

variable {env : Env} {v : View} {w : World}

/-- A start picks one of the app's own receivers. -/
theorem runHealthyReceiverQuery_owns {db : Db} {appId : Id} {operator : Option Text} {now : Time}
    {tie : Nat} {r : Receiver}
    (h : runHealthyReceiverQuery env db appId operator now tie = some r) : db.Owns appId r.id := by
  have picked := List.mem_of_getElem? h
  obtain ⟨hr, healthy⟩ := List.mem_filter.mp (List.mem_filter.mp picked).1
  simp only [healthyReceiver, Bool.and_eq_true, decide_eq_true_eq] at healthy
  exact ⟨r, hr, rfl, healthy.1.1.1⟩

theorem startVerification_settles {input : StartVerificationInput} {phase phase' : StartPhase}
    {x : Option Write} (kept : Call.Kept v.db (.start input phase))
    (h : startVerification env v w input phase = some (phase', x)) :
    (∀ write, x = some write → write.Settles v.db) ∧ Call.Kept v.db (.start input phase') := by
  cases startVerification_step h with
  | preferred found => exact ⟨forall_of_none, runHealthyReceiverQuery_owns found⟩
  | picked found => exact ⟨forall_of_none, runHealthyReceiverQuery_owns found⟩
  | inserted => exact ⟨forall_of_none, kept⟩
  | collided =>
    refine ⟨forall_of_none, ?_⟩
    unfold afterCollision
    split <;> trivial
  | committed => exact ⟨fun _ same => Option.some.inj same ▸ kept, trivial⟩
  | _ => exact ⟨forall_of_none, trivial⟩

theorem startBinding_settles {input : StartBindingInput} {phase phase' : StartBindingPhase}
    {x : Option Write} (kept : Call.Kept v.db (.bind input phase))
    (h : startBinding env v w input phase = some (phase', x)) :
    (∀ write, x = some write → write.Settles v.db) ∧ Call.Kept v.db (.bind input phase') := by
  cases startBinding_step h with
  | selected hr receiver app => exact ⟨forall_of_none, _, hr, receiver, app⟩
  | drafted => exact ⟨forall_of_none, kept⟩
  | inserted => exact ⟨fun _ same => Option.some.inj same ▸ kept, trivial⟩
  | _ => exact ⟨forall_of_none, trivial⟩

/-- The other writes insert no verification, no binding and no receiver. -/
theorem resolution_settles {row : Verification} {eventType : VerificationEventType}
    {inbound : Option Id} {e : Emission} {x : Write}
    (h : e.write? row eventType inbound = some x) : x.Settles v.db := by
  obtain ⟨_, _, _, _, rfl⟩ := Emission.write?_eq_some h
  trivial

theorem processInbound_settles {input : MatchInput} {phase phase' : InboundPhase}
    {x : Option Write} (h : processInbound env v w input phase = some (phase', x)) :
    ∀ write, x = some write → write.Settles v.db := by
  intro write same
  cases processInbound_step h with
  | committed written => exact Option.some.inj same ▸ resolution_settles written
  | stored => exact Option.some.inj same ▸ trivial
  | consumed => exact Option.some.inj same ▸ trivial
  | annotated => exact Option.some.inj same ▸ trivial
  | cleared => exact Option.some.inj same ▸ trivial
  | _ => exact nomatch same

theorem cancelVerification_settles {appId id : Id} {phase phase' : CancelPhase}
    {x : Option Write} {expiry : Option Id}
    (h : cancelVerification v w appId id phase = some (phase', x, expiry)) :
    ∀ write, x = some write → write.Settles v.db := by
  intro write same
  cases cancelVerification_step h with
  | committed written => exact Option.some.inj same ▸ resolution_settles written
  | _ => cases same

theorem lazyExpireAndEmit_settles {id : Id} {phase phase' : ExpirePhase} {x : Option Write}
    (h : lazyExpireAndEmit v w id phase = some (phase', x)) :
    ∀ write, x = some write → write.Settles v.db := by
  intro write same
  cases lazyExpireAndEmit_step h with
  | committed written => exact Option.some.inj same ▸ resolution_settles written
  | _ => cases same

theorem maintain_settles {m : Maintenance} {x : Write} (h : m.write? v = some x) :
    x.Settles v.db := by
  cases m with
  | putReceiver row =>
    obtain ⟨stays, same⟩ := Option.ite_none_left_eq_some.mp h
    obtain rfl := Option.some.inj same
    intro r hr id
    by_contra moved
    exact stays (List.any_eq_true.mpr ⟨r, hr, decide_eq_true ⟨id, moved⟩⟩)
  | createEndpoint row =>
    obtain ⟨_, same⟩ := Option.ite_none_left_eq_some.mp h
    exact Option.some.inj same ▸ trivial
  | deleteEndpoint appId id =>
    obtain ⟨_, same⟩ := Option.ite_none_left_eq_some.mp h
    exact Option.some.inj same ▸ trivial

/-- What a statement does to the rows, and what it leaves its call with. -/
structure TenantTurn (env : Env) (db : Db) (t : Turn Db Call) (x : Option Write) : Prop where
  store : t.store = db.commitOption x
  justified : ∀ write, x = some write → Justified env db write
  settles : ∀ write, x = some write → write.Settles db
  kept : t.call.Kept db

theorem statement_tenant (I : Db.Inv env v.db) {c : Call} (ok : c.Ok env v.db)
    (kept : c.Kept v.db) {t : Turn Db Call} (h : c.statement env v w = some t) :
    ∃ x, TenantTurn env v.db t x := by
  cases c with
  | start input phase =>
    obtain ⟨⟨phase', x⟩, hr, rfl⟩ := Option.map_eq_some_iff.mp h
    obtain ⟨settles, kept'⟩ := startVerification_settles kept hr
    exact ⟨x, rfl, (startVerification_lawful I ok hr).justified, settles, kept'⟩
  | rejected error => exact nomatch h
  | inbound input phase =>
    obtain ⟨⟨phase', x⟩, hr, rfl⟩ := Option.map_eq_some_iff.mp h
    exact ⟨x, rfl, (processInbound_lawful I ok hr).justified, processInbound_settles hr, trivial⟩
  | cancel appId id phase =>
    obtain ⟨⟨phase', x, expiry⟩, hr, rfl⟩ := Option.map_eq_some_iff.mp h
    exact ⟨x, rfl, (cancelVerification_lawful ok hr).justified, cancelVerification_settles hr,
      trivial⟩
  | expire id phase =>
    obtain ⟨⟨phase', x⟩, hr, rfl⟩ := Option.map_eq_some_iff.mp h
    exact ⟨x, rfl, (lazyExpireAndEmit_lawful ok hr).justified, lazyExpireAndEmit_settles hr,
      trivial⟩
  | read r phase =>
    cases phase with
    | select | tell =>
      obtain rfl := Option.some.inj h
      exact ⟨none, rfl, forall_of_none, forall_of_none, trivial⟩
    | _ => exact nomatch h
  | bind input phase =>
    obtain ⟨⟨phase', x⟩, hr, rfl⟩ := Option.map_eq_some_iff.mp h
    obtain ⟨settles, kept'⟩ := startBinding_settles kept hr
    exact ⟨x, rfl, (startBinding_lawful ok hr).justified, settles, kept'⟩
  | revoke appId id phase =>
    cases phase with
    | ready =>
      obtain rfl := Option.some.inj h
      refine ⟨_, rfl, ?_, ?_, trivial⟩
      all_goals
        intro write same
        unfold revokeBinding at same
        split at same
        · exact nomatch same
        · exact Option.some.inj same ▸ trivial
    | _ => exact nomatch h
  | maintain m phase =>
    cases phase with
    | ready =>
      obtain ⟨x, hx, rfl⟩ := Option.map_eq_some_iff.mp h
      refine ⟨some x, rfl, fun _ same => ?_, fun _ same => ?_, trivial⟩
      · have lawful : Lawful env _ _ _ _ := (maintain_lawful hx).1
        exact Option.some.inj same ▸ lawful.justified x rfl
      · exact Option.some.inj same ▸ maintain_settles hx
    | _ => exact nomatch h

end Statement

theorem isNew_kept {c : Call} (new : c.isNew = true) (db : Db) : c.Kept db := by
  cases c with
  | start input phase => cases phase <;> trivial
  | bind input phase => cases phase <;> trivial
  | _ => trivial

/-- A call that failed or caught an exception names no receiver. -/
theorem Call.idle_kept (c : Call) (db : Db) :
    c.thrown.Kept db ∧ c.crashed.Kept db := by
  cases c <;> exact ⟨trivial, trivial⟩

/-- What a turn keeps: the rows' apps, and what the acting call and the others know of them. -/
theorem turn_tenant {env : Env} {db : Db} {others : List Call} {c : Call} {m : Move}
    {t : Turn Db Call} (I : Db.Inv env db) (T : db.Tenancy) (ok : c.Ok env db) (kept : c.Kept db)
    (h : c.turn env db others m = some t) :
    t.store.Tenancy ∧ t.call.Kept t.store ∧ ∀ o : Call, o.Kept db → o.Kept t.store := by
  have written : ∀ {t' : Turn Db Call} {x}, TenantTurn env db t' x →
      t'.store.Tenancy ∧ t'.call.Kept t'.store ∧ ∀ o : Call, o.Kept db → o.Kept t'.store := by
    intro t' x tenant
    cases x with
    | none => exact tenant.store ▸ ⟨T, tenant.kept, fun _ h => h⟩
    | some write =>
      have settles := tenant.settles write rfl
      rw [show t'.store = db.commit write from tenant.store]
      exact ⟨T.commit (tenant.justified write rfl) settles, tenant.kept.commit settles,
        fun _ h => h.commit settles⟩
  cases m with
  | statement w =>
    obtain ⟨x, tenant⟩ := statement_tenant (v := viewOf db others) I ok kept h
    exact written tenant
  | error =>
    obtain rfl := Option.some.inj (Option.ite_none_right_eq_some.mp h).2
    exact ⟨T, (c.idle_kept db).1, fun _ h => h⟩
  | lost w =>
    obtain ⟨t', ht', rfl⟩ := Option.map_eq_some_iff.mp h
    obtain ⟨x, tenant⟩ := statement_tenant (v := viewOf db others) I ok kept ht'
    obtain ⟨T', _, theirs⟩ := written tenant
    exact ⟨T', (c.idle_kept _).1, theirs⟩
  | crash =>
    obtain rfl := Option.some.inj (Option.ite_none_right_eq_some.mp h).2
    exact ⟨T, (c.idle_kept db).2, fun _ h => h⟩

/-- What a turn starts has just been started. -/
theorem turn_spawned {env : Env} {db : Db} {others : List Call} {c : Call} {m : Move}
    {t : Turn Db Call} (I : Db.Inv env db) (ok : c.Ok env db)
    (h : c.turn env db others m = some t) : ∀ n ∈ t.spawned, n.Kept t.store := by
  intro n hn
  cases turn_cases I ok h with
  | statement _ _ _ spawned _ =>
    obtain ⟨id, rfl⟩ := spawned n hn
    trivial
  | _ => exact absurd hn List.not_mem_nil

end Syrotp
