import Syrotp.Server.Proofs.Statements

/-!
# Where a write comes from

A call that commits an event has carried it through the statements of
`emitVerificationEventInTx`, one after the other; only a start inserts a verification, and only
`consumeBindNonce` verifies bindings.
-/

namespace Syrotp

/-- The emission a call is in the middle of. -/
def Call.emission : Call → Option (VerificationEventType × Verification × Emission)
  | .inbound _ (.emit _ row e) => some (.verified, row, e)
  | .inbound _ (.commit _ row e) => some (.verified, row, e)
  | .cancel _ _ (.emit row e) => some (.cancelled, row, e)
  | .expire _ (.emit row e) => some (.expired, row, e)
  | _ => none

/-- The emission that the next statement of a call commits, once it has returned. -/
def Call.committing : Call → Option (VerificationEventType × Verification × Emission)
  | .inbound _ (.commit _ row e) => some (.verified, row, e)
  | .cancel _ _ (.emit row e) => some (.cancelled, row, e)
  | .expire _ (.emit row e) => some (.expired, row, e)
  | _ => none

theorem Call.emission_of_committing {c : Call}
    {x : VerificationEventType × Verification × Emission} (h : c.committing = some x) :
    c.emission = some x := by
  cases c with
  | inbound input phase => cases phase <;> first | exact h | exact nomatch h
  | cancel appId id phase => cases phase <;> exact h
  | expire id phase => cases phase <;> exact h
  | _ => exact nomatch h

/-- The event and the endpoints an emission has read. -/
def Emission.endpoints : Emission → Option (Id × List Id)
  | .insertDeliveries eventId _ endpoints => some (eventId, endpoints)
  | .returned eventId _ deliveries => some (eventId, deliveries.map (·.2))
  | _ => none

section

variable {env : Env} {v : View} {w : World}

/-- How a call came by the emission it is in: it has just begun it, or kept it, or taken one
statement of it. -/
def Continues (v : View) (w : World) (c c' : Call) : Prop :=
  ∀ eventType row e', c'.emission = some (eventType, row, e') →
    e' = .insertEvent ∨ c.emission = some (eventType, row, e') ∨
      ∃ e, c.emission = some (eventType, row, e) ∧
        emitVerificationEventInTx v w eventType row.appId e = some e'

/-- A call without an emission continues any. -/
theorem Continues.of_none {c c' : Call} (h : c'.emission = none) : Continues v w c c' := by
  intro _ _ _ h'
  rw [h] at h'
  contradiction

theorem Continues.begin {c c' : Call} {eventType : VerificationEventType} {row : Verification}
    (h : c'.emission = some (eventType, row, .insertEvent)) : Continues v w c c' := by
  intro _ _ _ h'
  obtain ⟨-, -, rfl⟩ := Option.some.inj (h.symm.trans h')
  exact .inl rfl

theorem Continues.emit {c c' : Call} {eventType : VerificationEventType} {row : Verification}
    {e e' : Emission} (h : c.emission = some (eventType, row, e))
    (h' : c'.emission = some (eventType, row, e'))
    (step : emitVerificationEventInTx v w eventType row.appId e = some e') :
    Continues v w c c' := by
  intro _ _ _ h''
  obtain ⟨rfl, rfl, rfl⟩ := Option.some.inj (h'.symm.trans h'')
  exact .inr (.inr ⟨e, h, step⟩)

/-- The stage a write comes from: a resolution finishes the emission of the call, a verification is
inserted by its start, bindings become verified when a post brings their nonce, and one is revoked
by a call for it. -/
structure Origin (env : Env) (db : Db) (c : Call) (x : Option Write) : Prop where
  resolution : ∀ row event deliveries inbound,
    x = some (.resolveVerification row event deliveries inbound) →
    ∃ eventType e, c.committing = some (eventType, row, e) ∧ e.write? row eventType inbound = x
  insertion : ∀ row, x = some (.insertVerification row) →
    ∃ input receiver, c = .start input (.commit receiver row)
  ceremony : ∀ ids t, x = some (.verifyBindings ids t) → ∃ input i nonce,
    c = .inbound input (.consumeBind i nonce t) ∧ ids = (db.phoneBindings.filter
      (consumable ⟨input.receiverId, input.fromE164 env, nonce⟩ t)).map (·.id)
  revocation : ∀ appId id t, x = some (.revokeBinding appId id t) → c = .revoke appId id .ready

theorem Origin.none {db : Db} {c : Call} : Origin env db c none where
  resolution _ _ _ _ h := nomatch h
  insertion _ h := nomatch h
  ceremony _ _ h := nomatch h
  revocation _ _ _ h := nomatch h

/-- The writes that any stage may make as far as `Origin` goes. -/
def Write.isOther : Write → Bool
  | .resolveVerification .. | .insertVerification .. | .verifyBindings .. | .revokeBinding .. =>
    false
  | _ => true

theorem Origin.other {db : Db} {c : Call} {x : Write} (h : x.isOther = true) :
    Origin env db c (some x) where
  resolution row event deliveries inbound same := by
    obtain rfl := Option.some.inj same
    contradiction
  insertion row same := by
    obtain rfl := Option.some.inj same
    contradiction
  ceremony ids t same := by
    obtain rfl := Option.some.inj same
    contradiction
  revocation appId id t same := by
    obtain rfl := Option.some.inj same
    contradiction

theorem Origin.of_write {db : Db} {c : Call} {row : Verification}
    {eventType : VerificationEventType} {e : Emission} {inbound : Option Id} {x : Write}
    (h : c.committing = some (eventType, row, e))
    (written : e.write? row eventType inbound = some x) : Origin env db c (some x) := by
  obtain ⟨eventId, t, ds, rfl, rfl⟩ := Emission.write?_eq_some written
  refine ⟨fun row' event deliveries inbound' same => ?_, (fun _ same => nomatch same),
    (fun _ _ same => nomatch same), fun _ _ _ same => nomatch same⟩
  obtain ⟨rfl, rfl, rfl, rfl⟩ := Write.resolveVerification.inj (Option.some.inj same)
  exact ⟨eventType, _, h, written⟩

theorem startVerification_origin {input : StartVerificationInput} {phase phase' : StartPhase}
    {x : Option Write} (h : startVerification env v w input phase = some (phase', x)) :
    x = none ∨ ∃ receiver row, phase = .commit receiver row ∧
      x = some (.insertVerification row) := by
  cases startVerification_step h with
  | committed => exact .inr ⟨_, _, rfl, rfl⟩
  | _ => exact .inl rfl

theorem startBinding_origin {input : StartBindingInput} {phase phase' : StartBindingPhase}
    {x : Option Write} (h : startBinding env v w input phase = some (phase', x)) :
    x = none ∨ ∃ row, x = some (.insertBinding row) := by
  cases startBinding_step h with
  | inserted => exact .inr ⟨_, rfl⟩
  | _ => exact .inl rfl

theorem processInbound_emission {input : MatchInput} {phase phase' : InboundPhase}
    {x : Option Write} (h : processInbound env v w input phase = some (phase', x)) :
    Continues v w (.inbound input phase) (.inbound input phase') ∧
      Origin env v.db (.inbound input phase) x := by
  cases processInbound_step h with
  | stored =>
    refine ⟨.of_none ?_, .other rfl⟩
    unfold afterInsert
    split
    · rfl
    · split <;> rfl
  | @consumed i nonce now b =>
    refine ⟨.of_none rfl, (fun _ _ _ _ h => nomatch h), (fun _ h => nomatch h),
      fun ids t same => ?_, fun _ _ _ h => nomatch h⟩
    obtain ⟨rfl, rfl⟩ := Write.verifyBindings.inj (Option.some.inj same)
    exact ⟨input, i, nonce, rfl, rfl⟩
  | annotated => exact ⟨.of_none rfl, .other rfl⟩
  | locked => exact ⟨.begin rfl, .none⟩
  | returned => exact ⟨fun _ _ _ same => .inr (.inl same), .none⟩
  | emitted taken => exact ⟨.emit rfl rfl taken, .none⟩
  | committed written => exact ⟨.of_none rfl, .of_write rfl written⟩
  | cleared => exact ⟨.of_none rfl, .other rfl⟩
  | _ => exact ⟨.of_none rfl, .none⟩

theorem cancelVerification_emission (env : Env) {appId id : Id} {phase phase' : CancelPhase}
    {x : Option Write} {expiry : Option Id}
    (h : cancelVerification v w appId id phase = some (phase', x, expiry)) :
    Continues v w (.cancel appId id phase) (.cancel appId id phase') ∧
      Origin env v.db (.cancel appId id phase) x := by
  cases cancelVerification_step h with
  | taken => exact ⟨.begin rfl, .none⟩
  | emitted unwritten next => exact ⟨.emit rfl rfl next, .none⟩
  | committed written => exact ⟨.of_none rfl, .of_write rfl written⟩
  | _ => exact ⟨.of_none rfl, .none⟩

theorem lazyExpireAndEmit_emission (env : Env) {id : Id} {phase phase' : ExpirePhase}
    {x : Option Write} (h : lazyExpireAndEmit v w id phase = some (phase', x)) :
    Continues v w (.expire id phase) (.expire id phase') ∧
      Origin env v.db (.expire id phase) x := by
  cases lazyExpireAndEmit_step h with
  | missed => exact ⟨.of_none rfl, .none⟩
  | taken => exact ⟨.begin rfl, .none⟩
  | emitted unwritten next => exact ⟨.emit rfl rfl next, .none⟩
  | committed written => exact ⟨.of_none rfl, .of_write rfl written⟩

end

end Syrotp
