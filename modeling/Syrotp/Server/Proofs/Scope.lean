import Syrotp.Server.Proofs.Share

/-!
# What an operation of an app has in scope

`Call.Scoped` is what a call of the app knows of the ids it goes on with: the ones it drew or found
are not those of another app's rows. Writes of the app leave it alone.
-/

namespace Syrotp

/-! ## Ids -/

/-- No id drawn is that of one of the rows, nor an endpoint that a delivery refers to. -/
structure World.Fresh (w : World) (db : Db) : Prop where
  verifications : ∀ k, hasKey (·.id) (newId .verification (w.ulid k)) db.verifications = false
  bindings : ∀ k, hasKey (·.id) (newId .phoneBinding (w.ulid k)) db.phoneBindings = false
  inbound : ∀ k, hasKey (·.id) (newId .inbound (w.ulid k)) db.inboundSms = false
  endpoints : ∀ k, hasKey (·.id) (newId .webhookEndpoint (w.ulid k)) db.webhookEndpoints = false
  events : ∀ k, hasKey (·.id) (newId .webhookEvent (w.ulid k)) db.webhookEvents = false
  deliveries : ∀ k, hasKey (·.id) (newId .webhookDelivery (w.ulid k)) db.webhookDeliveries = false
  referenced : ∀ k,
    hasKey (·.endpointId) (newId .webhookEndpoint (w.ulid k)) db.webhookDeliveries = false

/-- Likewise for WebAuthn. -/
structure World.FreshWebauthn (w : World) (db : WebauthnDb) : Prop where
  credentials : ∀ k, hasKey (·.id) (newId .webauthnCredential (w.ulid k)) db.credentials = false
  challenges : ∀ k, hasKey (·.id) (newId .webauthnChallenge (w.ulid k)) db.challenges = false

section

variable {ρ κ : Type*} [DecidableEq κ] {t : List ρ} {column : ρ → κ} {mine : ρ → Bool} {k : κ}

/-- A key that no row outside a part has is one of the part. -/
theorem part_of_key (h : hasKey column k (t.filter fun r => mine r == false) = false) :
    ∀ r ∈ t, column r = k → (mine r == true) = true := by
  intro r hr same
  cases side : mine r with
  | true => rfl
  | false =>
    have outside : r ∈ t.filter fun r => mine r == false :=
      List.mem_filter.mpr ⟨hr, by rw [side]; rfl⟩
    exact absurd same (hasKey_eq_false.mp h r outside)

theorem hasKey_share (h : hasKey column k (t.filter fun r => mine r == false) = false) :
    hasKey column k (t.filter fun r => mine r == true) = hasKey column k t :=
  hasKey_part (part_of_key h)

/-- Where ids are unique, that of a row of the part is no other's. -/
theorem key_of_part (unique : (t.map column).Nodup) {r : ρ} (hr : r ∈ t)
    (side : mine r = true) :
    hasKey column (column r) (t.filter fun r => mine r == false) = false := by
  rw [hasKey_eq_false]
  intro x hx same
  obtain ⟨hx, other⟩ := List.mem_filter.mp hx
  obtain rfl := eq_of_key unique hx hr same
  rw [side] at other
  contradiction

end

/-! ## What a call has in scope -/

/-- The endpoints an emission has read are none of another app, and those that it has inserted
deliveries for are still there. -/
def Emission.Scoped (A : Id) (db : Db) : Emission → Prop
  | .insertDeliveries _ _ endpoints =>
    ∀ e ∈ endpoints, hasKey (·.id) e (db.share A false).webhookEndpoints = false
  | .returned _ _ deliveries => ∀ d ∈ deliveries, db.ownsEndpoint A d.2 = true
  | _ => True

def StartPhase.Scoped (A : Id) (db : Db) : StartPhase → Prop
  | .lockPhone draft _ => hasKey (·.id) draft.id (db.share A false).verifications = false
  | .countPending a | .pickPreferred a _ | .pickAny a | .insert a _ =>
    hasKey (·.id) a.draft.id (db.share A false).verifications = false
  | .commit _ row => row.appId = A
  | _ => True

def InboundPhase.Scoped (A : Id) (db : Db) (phase : InboundPhase) : Prop :=
  (∀ i, phase.stored = some i → hasKey (·.id) i (db.share A false).inboundSms = false) ∧
    match phase with
    | .emit _ row e | .commit _ row e => row.appId = A ∧ e.Scoped A db
    | _ => True

/-- The row that a read has selected is none of another app. -/
def SelectionScoped (A : Id) (db : Db) (selected : Option SelectedRow) : Prop :=
  ∀ s ∈ selected, hasKey (·.id) s.row.id (db.share A false).verifications = false

/-- A call of the app, and what it is about to write is the app's. -/
def Call.Scoped (A : Id) (db : Db) : Call → Prop
  | .start input phase => input.appId = A ∧ phase.Scoped A db
  | .rejected _ => True
  | .inbound input phase => db.Owns A input.receiverId ∧ phase.Scoped A db
  | .cancel appId _ (.emit row e) => appId = A ∧ row.appId = A ∧ e.Scoped A db
  | .cancel appId _ (.tell selected) => appId = A ∧ SelectionScoped A db selected
  | .cancel appId _ _ => appId = A
  | .expire id .update => hasKey (·.id) id (db.share A false).verifications = false
  | .expire _ (.emit row e) => row.appId = A ∧ e.Scoped A db
  | .expire .. => True
  | .read r (.tell selected) => (∃ id, r = .getVerification A id) ∧ SelectionScoped A db selected
  | .read r _ => ∃ id, r = .getVerification A id
  | .bind input (.insert row _ _) => input.appId = A ∧ row.appId = A ∧
      hasKey (·.id) row.id (db.share A false).phoneBindings = false
  | .bind input _ => input.appId = A
  | .revoke appId _ _ => appId = A
  | .maintain .. => False

theorem Call.Scoped.cancelled {A : Id} {db : Db} {appId id : Id} {phase : CancelPhase}
    (h : Call.Scoped A db (.cancel appId id phase)) : appId = A := by
  cases phase with
  | emit row e => exact h.1
  | tell selected => exact h.1
  | _ => exact h

theorem Call.Scoped.reads {A : Id} {db : Db} {r : Read} {phase : ReadPhase}
    (h : Call.Scoped A db (.read r phase)) : ∃ id, r = .getVerification A id := by
  cases phase with
  | tell selected => exact h.1
  | _ => exact h

theorem owns_iff {db : Db} {A receiverId : Id} :
    db.owns A receiverId = true ↔ db.Owns A receiverId := by
  simp [Db.owns, Db.Owns]

/-! ## Frames -/

section

variable {A : Id}


theorem Db.Owns.inside {db : Db} {receiverId : Id} (h : db.Owns A receiverId) {write : Write}
    (of : write.Of A db) : (db.commit write).Owns A receiverId := by
  cases write with
  | putReceiver row => exact of.elim
  | _ => exact h

/-- The endpoint that a write deletes. -/
def Write.deletes : Write → Option Id
  | .deleteEndpoint _ id => some id
  | _ => none

/-- A write of the app that deletes no endpoint. -/
structure Write.Inside (A : Id) (db : Db) (w : Write) : Prop where
  of : w.Of A db
  keeps : w.deletes = none

/-- An endpoint of the app stays until it is deleted. -/
theorem ownsEndpoint_commit {db : Db} {endpointId : Id} (h : db.ownsEndpoint A endpointId = true)
    {write : Write} (stays : write.deletes ≠ some endpointId) :
    (db.commit write).ownsEndpoint A endpointId = true := by
  obtain ⟨e, he, hit⟩ := List.any_eq_true.mp h
  refine List.any_eq_true.mpr ⟨e, ?_, hit⟩
  cases write with
  | insertEndpoint row => exact List.mem_append_left _ he
  | deleteEndpoint appId id =>
    refine List.mem_filter.mpr ⟨he, decide_eq_true fun gone => stays ?_⟩
    rw [← (of_decide_eq_true hit).1, gone.2]
    rfl
  | _ => exact he

theorem Emission.Scoped.commit {db : Db} {e : Emission} (h : e.Scoped A db) {write : Write}
    (of : write.Of A db)
    (stays : ∀ id, write.deletes = some id → id ∉ e.references) :
    e.Scoped A (db.commit write) := by
  cases e with
  | insertDeliveries eventId t endpoints =>
    unfold Emission.Scoped
    rw [(Db.share_commit of).2]
    exact h
  | returned eventId t ds =>
    intro d hd
    exact ownsEndpoint_commit (h d hd) fun same => stays d.2 same (List.mem_map_of_mem hd)
  | insertEvent => trivial
  | selectEndpoints eventId t => trivial

theorem SelectionScoped.commit {db : Db} {selected : Option SelectedRow}
    (h : SelectionScoped A db selected) {write : Write} (of : write.Of A db) :
    SelectionScoped A (db.commit write) selected := by
  unfold SelectionScoped
  rw [(Db.share_commit of).2]
  exact h

theorem Call.Scoped.commit {db : Db} {c : Call} (h : c.Scoped A db) {write : Write}
    (of : write.Of A db)
    (stays : ∀ id, write.deletes = some id → id ∉ c.references) :
    c.Scoped A (db.commit write) := by
  have others := (Db.share_commit of).2
  cases c with
  | start input phase =>
    refine ⟨h.1, ?_⟩
    have inside := h.2
    cases phase <;> simp only [StartPhase.Scoped, others] at inside ⊢ <;> exact inside
  | rejected error => trivial
  | inbound input phase =>
    obtain ⟨mine, stored, emitting⟩ := h
    refine ⟨mine.inside of, ?_, ?_⟩
    · rw [others]
      exact stored
    · cases phase with
      | emit i row e => exact ⟨emitting.1, emitting.2.commit of stays⟩
      | commit i row e => exact ⟨emitting.1, emitting.2.commit of stays⟩
      | _ => trivial
  | cancel appId id phase =>
    cases phase with
    | emit row e => exact ⟨h.1, h.2.1, h.2.2.commit of stays⟩
    | tell selected => exact ⟨h.1, h.2.commit of⟩
    | _ => exact h
  | expire id phase =>
    cases phase with
    | update =>
      unfold Call.Scoped
      rw [others]
      exact h
    | emit row e => exact ⟨h.1, h.2.commit of stays⟩
    | _ => trivial
  | bind input phase =>
    cases phase with
    | insert row sendTo now =>
      unfold Call.Scoped
      rw [others]
      exact h
    | _ => exact h
  | read r phase =>
    cases phase with
    | tell selected => exact ⟨h.1, h.2.commit of⟩
    | _ => exact h
  | revoke appId id phase => exact h
  | maintain m phase => exact h

end

end Syrotp
