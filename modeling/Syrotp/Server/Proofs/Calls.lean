import Syrotp.Server.Proofs.Invariant

/-!
# What each call may rely on

`Call.Ok` is the assertion of every stage of every call. Justified writes of the other calls, which
stay within their own tokens, do not disturb it (`Call.Ok.commit`).
-/

namespace Syrotp

/-! ## Assertions of the stages -/

/-- The row this call stored, with its current match. -/
def Stored (env : Env) (db : Db) (input : MatchInput) (inboundId : Id) (matched : Option Id) :
    Prop :=
  ∃ t, { input.row env inboundId t with matchedVerificationId := matched } ∈ db.inboundSms

/-- The row this call stored while nothing has matched it. -/
def Storing (env : Env) (db : Db) (input : MatchInput) (inboundId : Id) : Prop :=
  Stored env db input inboundId none ∧ Unclaimed db inboundId

/-- The key a post is idempotent in. -/
def MatchInput.idempotency (input : MatchInput) : Id × Text :=
  (input.receiverId, input.idempotencyKey)

def InboundPhase.Ok (env : Env) (db : Db) (input : MatchInput) : InboundPhase → Prop
  | .insert | .findPrior | .failed => True
  | .consumeBind inboundId nonce _ | .probeBind inboundId nonce _ =>
    Storing env db input inboundId ∧ extractBindNonce env.platform input.body = some nonce
  | .clear inboundId => Storing env db input inboundId
  | .annotate inboundId bindingId =>
    Storing env db input inboundId ∧ bindingId.kind = .phoneBinding
  | .claimSnapshot inboundId code _ | .claimLock inboundId code _ _ =>
    Storing env db input inboundId ∧ extractCode env.platform input.body = some code
  | .emit inboundId row emission | .commit inboundId row emission =>
    Stored env db input inboundId none ∧ Emitting env db row .verified (some inboundId) emission
  | .done (.verification verificationId inboundId) =>
    Stored env db input inboundId (some verificationId)
  | .done (.binding bindingId inboundId) => Stored env db input inboundId (some bindingId)
  | .done (.unmatched _ inboundId) => Stored env db input inboundId none
  | .done (.duplicate prior) =>
    ∃ m ∈ db.inboundSms, m.id = prior ∧ m.idempotency = input.idempotency

/-- The gate of a start that has passed it. -/
def Gated (env : Env) (db : Db) (input : StartVerificationInput) (draft : StartDraft) : Prop :=
  Normalized env input.phoneE164 ∧ Custody db input.appId input.phoneE164 ∧
    draft.id.kind = .verification

def StartPhase.Ok (env : Env) (db : Db) (input : StartVerificationInput) : StartPhase → Prop
  | .checkBinding => Normalized env input.phoneE164
  | .lockPhone draft _ => Gated env db input draft
  | .countPending a | .pickPreferred a _ | .pickAny a | .insert a _ => Gated env db input a.draft
  | .commit _ row => Insertable env db row
  | .done _ | .failed => True

def Call.Ok (env : Env) (db : Db) : Call → Prop
  | .start input phase => phase.Ok env db input
  | .inbound input phase => phase.Ok env db input
  | .cancel _ _ (.emit row emission) => Emitting env db row .cancelled none emission
  | .expire _ (.emit row emission) => Emitting env db row .expired none emission
  | .bind _ (.insert row _ _) => row.status = .pending ∧ row.boundAt = none ∧
      row.revokedAt = none ∧ row.id.kind = .phoneBinding
  | _ => True

theorem Stored.row {env : Env} {db : Db} {input : MatchInput} {i : Id} {matched : Option Id}
    (h : Stored env db input i matched) : ∃ m ∈ db.inboundSms, m.id = i ∧
      m.idempotency = input.idempotency ∧ m.matchedVerificationId = matched := by
  obtain ⟨t, ht⟩ := h
  exact ⟨_, ht, rfl, rfl, rfl⟩

/-- A call that owns an inbound row has stored it. -/
theorem InboundPhase.Ok.stored {env : Env} {db : Db} {input : MatchInput} {phase : InboundPhase}
    (h : phase.Ok env db input) {i : Id} (owned : phase.stored = some i) :
    ∃ matched, Stored env db input i matched := by
  cases phase with
  | done outcome =>
    cases outcome with
    | duplicate prior => exact nomatch owned
    | _ =>
      obtain rfl := Option.some.inj owned
      exact ⟨_, h⟩
  | insert | findPrior | failed => exact nomatch owned
  | clear =>
    obtain rfl := Option.some.inj owned
    exact ⟨none, h.1⟩
  | consumeBind | probeBind | annotate | claimSnapshot | claimLock =>
    obtain rfl := Option.some.inj owned
    exact ⟨none, h.1.1⟩
  | emit | commit =>
    obtain rfl := Option.some.inj owned
    exact ⟨none, h.1⟩

theorem Call.Ok.stored_mem {env : Env} {db : Db} {c : Call} (h : c.Ok env db) {i : Id}
    (owned : c.stored = some i) : hasKey (·.id) i db.inboundSms = true := by
  cases c with
  | inbound input phase =>
    obtain ⟨_, t, ht⟩ := InboundPhase.Ok.stored h owned
    exact hasKey_iff.mpr ⟨_, ht, rfl⟩
  | _ => exact nomatch owned

/-! ## The writes of the others -/

section Frame

variable {env : Env} {db : Db} {w : Write}

theorem Stored.commit {input : MatchInput} {i : Id} {matched : Option Id}
    (h : Stored env db input i matched) (apart : .stored i ∉ w.tokens) :
    Stored env (db.commit w) input i matched := by
  obtain ⟨t, ht⟩ := h
  exact ⟨t, inbound_commit ht apart⟩

theorem Storing.commit {input : MatchInput} {i : Id} (h : Storing env db input i)
    (J : Justified env db w) (apart : .stored i ∉ w.tokens) :
    Storing env (db.commit w) input i := ⟨h.1.commit apart, h.2.commit J apart⟩

theorem Gated.commit {input : StartVerificationInput} {draft : StartDraft}
    (h : Gated env db input draft) (w : Write) : Gated env (db.commit w) input draft :=
  ⟨h.1, h.2.1.commit w, h.2.2⟩

theorem StartPhase.Ok.commit {input : StartVerificationInput} {phase : StartPhase}
    (h : phase.Ok env db input) (J : Justified env db w)
    (apart : ∀ l ∈ phase.locks input, .lock l ∉ w.tokens) : phase.Ok env (db.commit w) input := by
  cases phase with
  | checkBinding => exact h
  | lockPhone draft number => exact Gated.commit h w
  | countPending a => exact Gated.commit h w
  | pickPreferred a operator => exact Gated.commit h w
  | pickAny a => exact Gated.commit h w
  | insert a receiver => exact Gated.commit h w
  | commit receiver row =>
    exact Insertable.commit h J (apart _ (by simp [StartPhase.locks]))
      (apart _ (by simp [StartPhase.locks]))
  | done result => trivial
  | failed => trivial

theorem InboundPhase.Ok.commit {input : MatchInput} {phase : InboundPhase}
    (h : phase.Ok env db input) (J : Justified env db w)
    (apart : ∀ l ∈ phase.locks, .lock l ∉ w.tokens)
    (owned : ∀ i, phase.stored = some i → .stored i ∉ w.tokens) :
    phase.Ok env (db.commit w) input := by
  cases phase with
  | insert => trivial
  | findPrior => trivial
  | failed => trivial
  | consumeBind i nonce now => exact ⟨h.1.commit J (owned i rfl), h.2⟩
  | probeBind i nonce now => exact ⟨h.1.commit J (owned i rfl), h.2⟩
  | clear i => exact Storing.commit h J (owned i rfl)
  | annotate i bindingId => exact ⟨h.1.commit J (owned i rfl), h.2⟩
  | claimSnapshot i code now => exact ⟨h.1.commit J (owned i rfl), h.2⟩
  | claimLock i code now candidates => exact ⟨h.1.commit J (owned i rfl), h.2⟩
  | emit i row emission =>
    exact ⟨h.1.commit (owned i rfl), h.2.commit J apart fun _ same => owned _ same⟩
  | commit i row emission =>
    exact ⟨h.1.commit (owned i rfl), h.2.commit J apart fun _ same => owned _ same⟩
  | done outcome =>
    cases outcome with
    | verification verificationId i => exact Stored.commit h (owned i rfl)
    | binding bindingId i => exact Stored.commit h (owned i rfl)
    | unmatched reason i => exact Stored.commit h (owned i rfl)
    | duplicate prior =>
      obtain ⟨m, hm, same, key⟩ := h
      obtain ⟨matched, kept⟩ := inbound_kept hm w
      exact ⟨_, kept, same, key⟩

/-- A justified write within other tokens leaves a call's assertion alone. -/
theorem Call.Ok.commit {c : Call} (h : c.Ok env db) (J : Justified env db w)
    (apart : ∀ k ∈ c.tokens, k ∉ w.tokens) : c.Ok env (db.commit w) := by
  have locks : ∀ l ∈ c.locks, .lock l ∉ w.tokens := fun l hl => apart _ (mem_tokens_lock.mpr hl)
  cases c with
  | start input phase => exact StartPhase.Ok.commit h J locks
  | inbound input phase =>
    exact InboundPhase.Ok.commit h J locks fun i hi => apart _ (mem_tokens_stored.mpr hi)
  | cancel appId id phase =>
    cases phase with
    | emit row emission => exact Emitting.commit h J locks forall_of_none
    | _ => trivial
  | expire id phase =>
    cases phase with
    | emit row emission => exact Emitting.commit h J locks forall_of_none
    | _ => trivial
  | bind input phase => cases phase <;> exact h
  | _ => trivial

end Frame

end Syrotp
