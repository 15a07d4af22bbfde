import Syrotp.Server.Proofs.Lifecycle

/-!
# Who has shown custody of a phone

The gate of `startVerification` asks for a binding of the app and the phone and says nothing of
the receiver; the receiver is picked afterwards by load and operator, and a revocation does not
reach verifications already started. `GateAt` and `Ceremony` find in the log what does hold: the
check that the start of a verification passed, and the BIND message that made a binding verified.
-/

namespace Syrotp

variable {env : Env}

/-- A binding goes from `pending` to `verified`, at the time it keeps as `bound_at`. -/
def MadeVerified (before after : Db) (b : PhoneBinding) : Prop :=
  (∃ x ∈ before.phoneBindings, x.id = b.id ∧ x.status = .pending ∧ x.boundAt = none) ∧
    ∃ x ∈ after.phoneBindings, x.id = b.id ∧ x.status = .verified ∧ x.boundAt = b.boundAt

/-- The log has the step at which a post brought the binding's nonce in time, to the binding's
receiver and from its phone, and with it made the binding verified. -/
def Ceremony (env : Env) (log : List (Server × Act Request Move)) (b : PhoneBinding) : Prop :=
  ∃ s i m u input inboundId now, (s, Act.turn i m) ∈ log ∧
    s.step (server env) (.turn i m) = some u ∧
    s.calls[i]? = some (.inbound input (.consumeBind inboundId b.nonce now)) ∧
    extractBindNonce env.platform input.body = some b.nonce ∧
    input.receiverId = b.receiverId ∧ input.fromE164 env = b.phoneE164 ∧ now < b.expiresAt ∧
    MadeVerified s.store u.store b

/-- The log has the check of the start at position `i`, for this app and phone and with a `verified`
binding there. -/
def GateAt (log : List (Server × Act Request Move)) (i : Nat) (appId : Id) (phoneE164 : Text) :
    Prop :=
  ∃ s w input, (s, Act.turn i (.statement w)) ∈ log ∧
    s.calls[i]? = some (.start input .checkBinding) ∧ input.appId = appId ∧
    input.phoneE164 = phoneE164 ∧ ∃ b ∈ s.store.phoneBindings, b.appId = appId ∧
      b.phoneE164 = phoneE164 ∧ b.status = .verified

theorem GateAt.mono {log log' : List (Server × Act Request Move)} {i : Nat} {appId : Id}
    {phoneE164 : Text} (h : GateAt log i appId phoneE164) (sub : ∀ e ∈ log, e ∈ log') :
    GateAt log' i appId phoneE164 := by
  obtain ⟨s, w, input, logged, h⟩ := h
  exact ⟨s, w, input, sub _ logged, h⟩

theorem Ceremony.mono {log log' : List (Server × Act Request Move)} {b : PhoneBinding}
    (h : Ceremony env log b) (sub : ∀ e ∈ log, e ∈ log') : Ceremony env log' b := by
  obtain ⟨s, i, m, u, input, inboundId, now, logged, h⟩ := h
  exact ⟨s, i, m, u, input, inboundId, now, sub _ logged, h⟩

/-! ## The gate of every verification -/

/-- The app and phone for which a start has passed its check. -/
def StartPhase.passed (input : StartVerificationInput) : StartPhase → Option (Id × Text)
  | .checkBinding | .done _ | .failed => none
  | .commit _ row => some (row.appId, row.phoneE164)
  | _ => some (input.appId, input.phoneE164)

theorem startVerification_passed {v : View} {w : World} {input : StartVerificationInput}
    {phase phase' : StartPhase} {x : Option Write}
    (h : startVerification env v w input phase = some (phase', x)) {k : Id × Text}
    (hk : phase'.passed input = some k) : phase.passed input = some k ∨
      (phase = .checkBinding ∧ k = (input.appId, input.phoneE164) ∧
        isBound v.db input.appId input.phoneE164 = true) := by
  cases startVerification_step h with
  | bound found => exact .inr ⟨rfl, (Option.some.inj hk).symm, found⟩
  | collided =>
    unfold afterCollision at hk
    split at hk
    · exact .inl hk
    · exact nomatch hk
  | unbound | tooMany | noReceiver | committed => exact nomatch hk
  | _ => exact .inl hk

/-- A start that has passed its check did so at a step of the log. -/
def Passed (log : List (Server × Act Request Move)) (i : Nat) (c : Call) : Prop :=
  ∀ input phase, c = .start input phase → ∀ appId phoneE164,
    phase.passed input = some (appId, phoneE164) → GateAt log i appId phoneE164

theorem ServerRun.passed {log : List (Server × Act Request Move)} {p : Server}
    (run : ServerRun env log p) {i : Nat} {c : Call} (hc : p.calls[i]? = some c) :
    Passed log i c := by
  refine run.call_history (K := Passed) ?_ ?_ ?_ i c hc
  · exact fun _ _ _ _ _ _ h input phase hc appId phoneE164 hp =>
      (h input phase hc appId phoneE164 hp).mono fun _ he => List.mem_append_left _ he
  · rintro log i _ new _ input phase rfl appId phoneE164 hp
    cases phase <;> simp [Call.isNew, StartPhase.passed] at new hp
  · intro log q i c m t _ hc turn h input phase after appId phoneE164 hp
    obtain ⟨phase', rfl⟩ : ∃ phase', c = .start input phase' := by
      have same := turn.crashed.symm.trans (congrArg Call.crashed after)
      cases c with
      | start input' phase' =>
        obtain ⟨rfl, _⟩ := Call.start.inj same
        exact ⟨phase', rfl⟩
      | _ => cases same
    cases turn with
    | @statement w t x _ _ _ _ ran =>
      obtain ⟨⟨phase'', x⟩, hr, rfl⟩ := Option.map_eq_some_iff.mp ran
      obtain ⟨_, rfl⟩ := Call.start.inj after
      rcases startVerification_passed hr hp with before | ⟨rfl, key, bound⟩
      · exact (h _ _ rfl _ _ before).mono fun _ he => List.mem_append_left _ he
      · obtain ⟨rfl, rfl⟩ := Prod.mk.inj key
        simp only [isBound, List.any_eq_true, decide_eq_true_eq] at bound
        exact ⟨q, w, input, by simp, hc, rfl, rfl, bound⟩
    | error =>
      obtain ⟨_, rfl⟩ := Call.start.inj after
      cases hp
    | lost =>
      obtain ⟨_, rfl⟩ := Call.start.inj after
      cases hp
    | crash =>
      obtain ⟨_, rfl⟩ := Call.start.inj after
      cases hp

/-- The log has the step at which the call at position `i` added this verification. -/
def CreatedBy (env : Env) (log : List (Server × Act Request Move)) (i : Nat) (id : Id) : Prop :=
  ∃ s m u, (s, Act.turn i m) ∈ log ∧ s.step (server env) (.turn i m) = some u ∧
    (∀ x ∈ s.store.verifications, x.id ≠ id) ∧ ∃ x ∈ u.store.verifications, x.id = id

/-- Every verification of every run was added by a call that had passed the gate for its app and
phone. -/
theorem ServerRun.created {log : List (Server × Act Request Move)} {p : Server}
    (run : ServerRun env log p) : ∀ v ∈ p.store.verifications,
      ∃ i, CreatedBy env log i v.id ∧ GateAt log i v.appId v.phoneE164 := by
  induction run with
  | start => exact fun v hv => nomatch hv
  | @next log p q a run hs ih =>
    have run : ServerRun env log p := run
    have grow : ∀ e ∈ log, e ∈ log ++ [(p, a)] := fun e he => List.mem_append_left _ he
    have before : ∀ v ∈ p.store.verifications, ∃ i, CreatedBy env (log ++ [(p, a)]) i v.id ∧
        GateAt (log ++ [(p, a)]) i v.appId v.phoneE164 := by
      intro v hv
      obtain ⟨i, ⟨s, m, u, logged, h⟩, gate⟩ := ih v hv
      exact ⟨i, ⟨s, m, u, grow _ logged, h⟩, gate.mono grow⟩
    rcases Server.step_write run.good hs with same | ⟨i, m, c, x, rfl, hc, written, J, _, origin⟩
    · intro v hv
      rw [same] at hv
      exact before v hv
    · intro v hv
      rw [written] at hv
      rcases verification_origin hv with ⟨old, _⟩ | rfl | ⟨_, _, _, rfl⟩
      · exact before v old
      · obtain ⟨input, receiver, rfl⟩ := origin.insertion v rfl
        refine ⟨i, ⟨p, m, q, by simp, hs, hasKey_eq_false.mp (Insertable.newId J), v, ?_, rfl⟩,
          (run.passed hc input _ rfl _ _ rfl).mono grow⟩
        rw [written]
        exact hv
      · obtain ⟨y, hy, _, _, _, _, _, resolves, _⟩ := J.resolve
        obtain ⟨id, app, phone, _⟩ := resolves.same
        rw [id, app, phone]
        exact before y hy

/-! ## The ceremony of every completed binding -/

/-- In every run, every binding that has been verified once was verified by its BIND message. -/
theorem ServerRun.ceremony {log : List (Server × Act Request Move)} {p : Server}
    (run : ServerRun env log p) :
    ∀ b ∈ p.store.phoneBindings, b.boundAt.isSome = true → Ceremony env log b := by
  induction run with
  | start => exact fun b hb => nomatch hb
  | @next log p q a run hs ih =>
    have run : ServerRun env log p := run
    have grow : ∀ e ∈ log, e ∈ log ++ [(p, a)] := fun e he => List.mem_append_left _ he
    have good := run.good
    rcases Server.step_write good hs with same | ⟨i, m, c, x, rfl, hc, written, J, _, origin⟩
    · intro b hb bound
      rw [same] at hb
      exact (ih b hb bound).mono grow
    · rw [written]
      cases x with
      | insertBinding row =>
        intro b hb bound
        rcases List.mem_append.mp hb with old | new
        · exact (ih b old bound).mono grow
        · obtain rfl := List.mem_singleton.mp new
          simp [J.2.1] at bound
      | verifyBindings ids t =>
        intro b hb bound
        rcases mem_updateWhere_cases hb with ⟨b, old, hit, rfl⟩ | ⟨old, _⟩
        · obtain ⟨input, inboundId, nonce, rfl, rfl⟩ := origin.ceremony ids t rfl
          obtain ⟨b', hb', same⟩ := List.mem_map.mp (of_decide_eq_true hit)
          obtain ⟨hb', consumed⟩ := List.mem_filter.mp hb'
          obtain rfl := eq_of_key good.inv.bindingIds hb' old same
          simp only [consumable, decide_eq_true_eq] at consumed
          obtain ⟨rfl, pending, receiver, phone, before⟩ := consumed
          refine ⟨p, i, m, q, input, inboundId, t, by simp, hs, hc, (good.ok i _ hc).2,
            receiver.symm, phone.symm, before,
            ⟨_, old, rfl, pending, good.inv.unbound _ old pending⟩, _, ?_, rfl, rfl, rfl⟩
          rw [written]
          exact hb
        · exact (ih b old bound).mono grow
      | revokeBinding appId id t =>
        intro b hb bound
        rcases mem_updateWhere_cases hb with ⟨b, old, _, rfl⟩ | ⟨old, _⟩
        · exact (ih b old bound).mono grow
        · exact (ih b old bound).mono grow
      | _ => exact fun b hb bound => (ih b hb bound).mono grow

/-! ## Custody -/

/-- In every reachable server, a verified phone has a completed ceremony in the same app: a binding
that is verified, or has been revoked since, and that a post on its receiver made verified with
the BIND message from that phone; and the start that added the verification had found a verified
binding when it checked. -/
theorem verified_phone_custody {log : List (Server × Act Request Move)} {p : Server}
    (run : ServerRun env log p) :
    ∀ v ∈ p.store.verifications, v.status = .verified →
      (∃ i, CreatedBy env log i v.id ∧ GateAt log i v.appId v.phoneE164) ∧
      ∃ b ∈ p.store.phoneBindings, b.appId = v.appId ∧ b.phoneE164 = v.phoneE164 ∧
        b.boundAt.isSome = true ∧ (b.status = .verified ∨ b.status = .revoked) ∧
        Ceremony env log b := by
  intro v hv _
  obtain ⟨b, hb, app, phone, completed, bound⟩ := run.good.inv.custody v hv
  refine ⟨run.created v hv, b, hb, app, phone, bound, ?_, run.ceremony b hb bound⟩
  cases status : b.status with
  | pending => exact absurd status completed
  | verified => exact .inl rfl
  | revoked => exact .inr rfl

theorem verified_phone_custody_script : ∃ log p, ServerRun .ascii log p ∧
    ∃ v ∈ p.store.verifications, v.status = .verified ∧
      ∃ b ∈ p.store.phoneBindings, b.phoneE164 = v.phoneE164 ∧ Ceremony .ascii log b := by
  obtain ⟨v, hv, verified⟩ := Script.verified_reached
  have run := Script.run _ Script.verified_runs
  obtain ⟨_, b, hb, _, phone, _, _, ceremony⟩ := verified_phone_custody run v hv verified
  exact ⟨_, _, run, v, hv, verified, b, hb, phone, ceremony⟩

namespace Script

/-- The phone is bound on the first receiver; a start that prefers the operator of the second one
is routed there (call 4), the binding is revoked (call 5), and the message arrives on the second
receiver (call 6), up to the COMMIT of its claim. -/
def rerouted : List (Act Request Move) :=
  bound ++
  [.arrive (.maintain (.putReceiver { receiverRow 2 with operator := some (text "mtn") }))] ++
  turns 3 1 (world 1030) ++
  [.arrive (.startVerification { start with operator := some (text "mtn") })] ++
  turns 4 6 (world 1040) ++
  [.arrive (.revokeBinding app (newId .phoneBinding 1010))] ++ turns 5 1 (world 1050) ++
  [.arrive (.inbound (newId .receiver 2) verifyMessage)] ++ turns 6 6 (world 1060)

theorem rerouted_runs : (result rerouted).isSome = true := by decide +kernel

theorem rerouted_commits : (((result rerouted).get rerouted_runs).2.step (server .ascii)
    (.turn 6 (.statement (world 1060)))).isSome = true := by decide +kernel

end Script

/-- At the step at which a verification becomes verified, its app and phone may have no verified
binding at all, and none, whatever its status, on the verification's receiver. -/
theorem custody_is_not_per_receiver : ∃ log p a q, ServerRun .ascii log p ∧
    p.step (server .ascii) a = some q ∧ ∃ v ∈ q.store.verifications, v.status = .verified ∧
      (∃ v₀ ∈ p.store.verifications, v₀.id = v.id ∧ v₀.status = .pending) ∧
      ∀ b ∈ q.store.phoneBindings, b.appId = v.appId → b.phoneE164 = v.phoneE164 →
        b.receiverId ≠ v.receiverId ∧ b.status = .revoked := by
  refine ⟨_, _, _, _, Script.run _ Script.rerouted_runs,
    (Option.some_get Script.rerouted_commits).symm, ?_⟩
  decide +kernel

end Syrotp
