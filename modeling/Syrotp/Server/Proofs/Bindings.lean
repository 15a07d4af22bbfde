import Syrotp.Server.Proofs.Custody

/-!
# The life of a binding

A binding goes from `pending` to `verified` when its nonce arrives, and from either to `revoked`.
`BindingStep` is what any step leaves of it. The date of a revocation is kept only as long as
nobody revokes the binding again: the UPDATE of `revokeBinding` does not ask for the status.
-/

namespace Syrotp

variable {env : Env}

/-! ## One step of a binding -/

/-- What can become of a binding's status. -/
def BindingMove (before after : PhoneBindingStatus) : Prop :=
  after = before ∨ (before = .pending ∧ (after = .verified ∨ after = .revoked)) ∨
    (before = .verified ∧ after = .revoked)

theorem BindingMove.trans {a b c : PhoneBindingStatus} (h : BindingMove a b)
    (h' : BindingMove b c) : BindingMove a c := by
  rcases h with rfl | ⟨rfl, rfl | rfl⟩ | ⟨rfl, rfl⟩
  · exact h'
  · rcases h' with rfl | ⟨impossible, _⟩ | ⟨_, rfl⟩
    · exact .inr (.inl ⟨rfl, .inl rfl⟩)
    · exact nomatch impossible
    · exact .inr (.inl ⟨rfl, .inr rfl⟩)
  · rcases h' with rfl | ⟨impossible, _⟩ | ⟨impossible, _⟩
    · exact .inr (.inl ⟨rfl, .inr rfl⟩)
    · exact nomatch impossible
    · exact nomatch impossible
  · rcases h' with rfl | ⟨impossible, _⟩ | ⟨impossible, _⟩
    · exact .inr (.inr ⟨rfl, rfl⟩)
    · exact nomatch impossible
    · exact nomatch impossible

/-- What becomes of a binding: its subject and its nonce stay, its status moves, and the date it
was bound at is written once. -/
structure BindingStep (b b' : PhoneBinding) : Prop where
  id : b'.id = b.id
  app : b'.appId = b.appId
  receiver : b'.receiverId = b.receiverId
  phone : b'.phoneE164 = b.phoneE164
  nonce : b'.nonce = b.nonce
  status : BindingMove b.status b'.status
  boundAt : ∀ t, b.boundAt = some t → b'.boundAt = some t

theorem BindingStep.refl (b : PhoneBinding) : BindingStep b b :=
  ⟨rfl, rfl, rfl, rfl, rfl, .inl rfl, fun _ bound => bound⟩

theorem BindingStep.trans {a b c : PhoneBinding} (h : BindingStep a b) (h' : BindingStep b c) :
    BindingStep a c where
  id := h'.id.trans h.id
  app := h'.app.trans h.app
  receiver := h'.receiver.trans h.receiver
  phone := h'.phone.trans h.phone
  nonce := h'.nonce.trans h.nonce
  status := h.status.trans h'.status
  boundAt t bound := h'.boundAt t (h.boundAt t bound)

/-- Every binding of `d` is still in `d'`. -/
def BindingsFollow (d d' : Db) : Prop :=
  ∀ b ∈ d.phoneBindings, ∃ b' ∈ d'.phoneBindings, BindingStep b b'

theorem bindings_follow_commit {db : Db} {w : Write} (I : Db.Inv env db)
    (J : Justified env db w) : BindingsFollow db (db.commit w) := by
  intro b hb
  cases w with
  | insertBinding row => exact ⟨b, List.mem_append_left _ hb, .refl b⟩
  | verifyBindings ids t =>
    by_cases hit : b.id ∈ ids
    · have pending := J.1 b hb hit
      refine ⟨_, mem_updateWhere_of_pos hb (by simpa using hit), rfl, rfl, rfl, rfl, rfl,
        .inr (.inl ⟨pending, .inl rfl⟩), fun t bound => ?_⟩
      rw [I.unbound b hb pending] at bound
      contradiction
    · exact ⟨b, mem_updateWhere_of_neg hb (by simpa using hit), .refl b⟩
  | revokeBinding appId id t =>
    by_cases hit : b.id = id ∧ b.appId = appId
    · refine ⟨_, mem_updateWhere_of_pos hb (by simpa using hit), rfl, rfl, rfl, rfl, rfl, ?_,
        fun _ bound => bound⟩
      cases status : b.status with
      | pending => exact .inr (.inl ⟨rfl, .inr rfl⟩)
      | verified => exact .inr (.inr ⟨rfl, rfl⟩)
      | revoked => exact .inl rfl
    · exact ⟨b, mem_updateWhere_of_neg hb (by simpa using hit), .refl b⟩
  | _ => exact ⟨b, hb, .refl b⟩

theorem Server.bindings_follow_step {p q : Server} {a : Act Request Move} (good : p.Good env)
    (hs : p.step (server env) a = some q) : BindingsFollow p.store q.store := by
  rcases step_write good hs with same | ⟨_, _, _, x, _, _, written, J, _⟩
  · rw [same]
    exact fun b hb => ⟨b, hb, .refl b⟩
  · rw [written]
    exact bindings_follow_commit good.inv J

theorem Server.bindings_follow_run {p q : Server} {log : List (Server × Act Request Move)}
    (good : p.Good env) (run : Run (Pool.step (server env)) p log q) :
    BindingsFollow p.store q.store := by
  induction run with
  | start => exact fun b hb => ⟨b, hb, .refl b⟩
  | next run hs ih =>
    intro b hb
    obtain ⟨b', hb', step⟩ := ih b hb
    obtain ⟨b'', hb'', step'⟩ := bindings_follow_step (good_run good run) hs b' hb'
    exact ⟨b'', hb'', step.trans step'⟩

/-- Bindings of one app and phone that are verified at the same time are one binding. -/
theorem Db.Inv.one_verified {db : Db} (I : Db.Inv env db) {b b' : PhoneBinding}
    (hb : b ∈ db.phoneBindings) (hb' : b' ∈ db.phoneBindings) (verified : b.status = .verified)
    (verified' : b'.status = .verified) (app : b.appId = b'.appId)
    (phone : b.phoneE164 = b'.phoneE164) : b = b' := by
  have unique := I.active
  simp only [activeUnique, decide_eq_true_eq] at unique
  refine eq_of_key unique ?_ ?_ (Prod.ext app phone)
  · exact List.mem_filter.mpr ⟨hb, by simpa using verified⟩
  · exact List.mem_filter.mpr ⟨hb', by simpa using verified'⟩

/-! ## Revoking -/

/-- At a turn of `revokeBinding`: a binding it finds already revoked was revoked at the same
reading of the clock. -/
def revokesOnce (s : Server) : Act Request Move → Bool
  | .turn i (.statement w) | .turn i (.lost w) =>
    match s.calls[i]? with
    | some (.revoke appId id .ready) => s.store.phoneBindings.all fun b =>
        decide (b.id = id → b.appId = appId → b.status = .revoked → b.revokedAt = some w.now)
    | _ => true
  | _ => true

/-- A revoked binding is never written again, or with the values it has. -/
theorem Server.revoked_kept {p q : Server} {a : Act Request Move} (good : p.Good env)
    (once : revokesOnce p a = true) (hs : p.step (server env) a = some q) {b : PhoneBinding}
    (hb : b ∈ p.store.phoneBindings) (revoked : b.status = .revoked) :
    b ∈ q.store.phoneBindings := by
  rcases step_write good hs with same | ⟨i, m, c, x, rfl, hc, written, J, _, origin⟩
  · exact same ▸ hb
  · cases x with
    | insertBinding row => exact written ▸ List.mem_append_left _ hb
    | verifyBindings ids t =>
      have other : b.id ∉ ids := by
        intro hit
        have pending := J.1 b hb hit
        rw [revoked] at pending
        contradiction
      rw [written]
      exact mem_updateWhere_of_neg hb (by simpa using other)
    | revokeBinding appId id t =>
      obtain rfl := origin.revocation appId id t rfl
      obtain ⟨c, turn, hc', ht, rfl⟩ := Pool.step_turn hs
      obtain rfl := Option.some.inj (hc.symm.trans hc')
      -- the statement itself, whether or not its acknowledgement arrives
      have effect : ∀ w, revokesOnce p (.turn i (.statement w)) = true →
          b ∈ (p.store.commitOption (revokeBinding p.store w appId id).2).phoneBindings := by
        intro w once
        simp only [revokesOnce, hc, List.all_eq_true, decide_eq_true_eq] at once
        simp only [revokeBinding]
        split
        · exact hb
        · by_cases hit : b.id = id ∧ b.appId = appId
          · have dated := once b hb hit.1 hit.2 revoked
            have same : { b with status := .revoked, revokedAt := some w.now } = b := by
              rw [← revoked, ← dated]
            refine mem_updateWhere.mpr ⟨b, hb, ?_⟩
            rw [if_pos (by simpa using hit)]
            exact same
          · exact mem_updateWhere_of_neg hb (by simpa using hit)
      cases m with
      | statement w =>
        obtain rfl := Option.some.inj ht
        exact effect w once
      | lost w =>
        obtain rfl := Option.some.inj ht
        exact effect w once
      | error =>
        obtain rfl := Option.some.inj ht
        exact hb
      | crash =>
        obtain rfl := Option.some.inj ht
        exact hb
    | _ => exact written ▸ hb

theorem Server.revoked_kept_run {p q : Server} {log : List (Server × Act Request Move)}
    (good : p.Good env) (run : Run (Pool.step (server env)) p log q)
    (once : ∀ e ∈ log, revokesOnce e.1 e.2 = true) {b : PhoneBinding}
    (hb : b ∈ p.store.phoneBindings) (revoked : b.status = .revoked) :
    b ∈ q.store.phoneBindings := by
  refine (run.invariant_of (fun q => q.Good env ∧ b ∈ q.store.phoneBindings)
    (fun s a => revokesOnce s a = true) ⟨good, hb⟩ ?_ once).2
  rintro s a u ⟨good, hb⟩ once hs
  exact ⟨(server_discipline env).step good hs, Server.revoked_kept good once hs hb revoked⟩

/-! ## The lifecycle -/

/-- In every reachable server, an app and a phone have at most one verified binding. From there on,
as long as no binding is revoked again at another reading of the clock, statuses only move forward,
`revoked` is final, each date is written once and a revoked binding stays exactly as it is. -/
theorem binding_lifecycle {log log' : List (Server × Act Request Move)} {p q : Server}
    (run : ServerRun env log p) (later : Run (Pool.step (server env)) p log' q)
    (once : ∀ e ∈ log', revokesOnce e.1 e.2 = true) :
    (∀ b ∈ p.store.phoneBindings, ∀ b' ∈ p.store.phoneBindings, b.status = .verified →
      b'.status = .verified → b.appId = b'.appId → b.phoneE164 = b'.phoneE164 → b = b') ∧
    ∀ b ∈ p.store.phoneBindings, ∃ b' ∈ q.store.phoneBindings, b'.id = b.id ∧
      BindingMove b.status b'.status ∧ (∀ t, b.boundAt = some t → b'.boundAt = some t) ∧
      (∀ t, b.revokedAt = some t → b'.revokedAt = some t) ∧ (b.status = .revoked → b' = b) := by
  have good := run.good
  refine ⟨fun b hb b' hb' verified verified' app phone =>
    good.inv.one_verified hb hb' verified verified' app phone, fun b hb => ?_⟩
  by_cases revoked : b.status = .revoked
  · exact ⟨b, Server.revoked_kept_run good later once hb revoked, rfl, .inl rfl,
      fun _ bound => bound, fun _ dated => dated, fun _ => rfl⟩
  · obtain ⟨b', hb', step⟩ := Server.bindings_follow_run good later b hb
    refine ⟨b', hb', step.id, step.status, step.boundAt, fun t dated => ?_,
      fun absorbed => absurd absorbed revoked⟩
    rw [good.inv.unrevoked b hb revoked] at dated
    contradiction

namespace Script

/-- The binding of `bound` is revoked (call 3). -/
def revoking : List (Act Request Move) :=
  [.arrive (.revokeBinding app (newId .phoneBinding 1010))] ++ turns 3 1 (world 1030)

/-- And revoked again (call 4). -/
def revokedTwice : List (Act Request Move) :=
  bound ++ revoking ++ [.arrive (.revokeBinding app (newId .phoneBinding 1010))]

theorem bound_runs : (result bound).isSome = true := by decide +kernel

theorem revoking_runs : (exec (Pool.step (server .ascii)) ((result bound).get bound_runs).2
    revoking).isSome = true := by decide +kernel

theorem revokedTwice_runs : (result revokedTwice).isSome = true := by decide +kernel

theorem revokedTwice_again : (((result revokedTwice).get revokedTwice_runs).2.step
    (server .ascii) (.turn 4 (.statement (world 1040)))).isSome = true := by decide +kernel

end Script

/-- A bound phone is revoked once, and keeps the date it was bound at. -/
theorem binding_lifecycle_script : ∃ log log' p q, ServerRun .ascii log p ∧
    Run (Pool.step (server .ascii)) p log' q ∧ ∃ b ∈ p.store.phoneBindings,
      b.status = .verified ∧ ∃ b' ∈ q.store.phoneBindings, b'.id = b.id ∧
        b'.boundAt = b.boundAt := by
  have run := Script.run _ Script.bound_runs
  have later := run_of_exec (Option.some_get Script.revoking_runs).symm
  obtain ⟨b, hb, verified, dated⟩ : ∃ b ∈ ((Script.result Script.bound).get
      Script.bound_runs).2.store.phoneBindings, b.status = .verified ∧
        b.boundAt = some 1020 := by decide +kernel
  obtain ⟨b', hb', id, _, bound, _⟩ :=
    (binding_lifecycle run later (by decide +kernel)).2 b hb
  exact ⟨_, _, _, _, run, later, b, hb, verified, b', hb', id, (bound _ dated).trans dated.symm⟩

/-- A second revocation gives a binding that is already revoked a new date. -/
theorem revoked_again : ∃ log p i m q, ServerRun .ascii log p ∧
    p.step (server .ascii) (.turn i m) = some q ∧
    p.calls[i]? = some (.revoke Script.app (newId .phoneBinding 1010) .ready) ∧
    ∃ b ∈ p.store.phoneBindings, b.id = newId .phoneBinding 1010 ∧ b.status = .revoked ∧
      b.revokedAt = some 1030 ∧ ∃ b' ∈ q.store.phoneBindings, b'.id = b.id ∧
        b'.revokedAt = some 1040 := by
  refine ⟨_, _, 4, _, _, Script.run _ Script.revokedTwice_runs,
    (Option.some_get Script.revokedTwice_again).symm, ?_, ?_⟩ <;> decide +kernel

/-! ## Custody, link by link -/

/-- The log has the step at which the start at position `i` found this binding verified. -/
def VerifiedDuring (log : List (Server × Act Request Move)) (i : Nat) (b : PhoneBinding) : Prop :=
  ∃ s w input, (s, Act.turn i (.statement w)) ∈ log ∧
    s.calls[i]? = some (.start input .checkBinding) ∧
    ∃ b₀ ∈ s.store.phoneBindings, b₀.id = b.id ∧ b₀.status = .verified

/-- A stored message is kept, but for its match. -/
theorem Server.inbound_kept_run {p q : Server} {log : List (Server × Act Request Move)}
    (good : p.Good env) (run : Run (Pool.step (server env)) p log q) {m : InboundSms}
    (hm : m ∈ p.store.inboundSms) :
    ∃ matched, { m with matchedVerificationId := matched } ∈ q.store.inboundSms := by
  induction run with
  | start => exact ⟨m.matchedVerificationId, hm⟩
  | next run hs ih =>
    obtain ⟨matched, kept⟩ := ih
    rcases step_write (good_run good run) hs with same | ⟨_, _, _, x, _, _, written, _⟩
    · exact ⟨matched, same ▸ kept⟩
    · rw [written]
      obtain ⟨matched', kept⟩ := inbound_kept kept x
      exact ⟨matched', kept⟩

/-- The gate of a call finds its binding at the end of the run, with its date. -/
theorem ServerRun.gate_binding {log : List (Server × Act Request Move)} {p : Server}
    (run : ServerRun env log p) {i : Nat} {appId : Id} {phoneE164 : Text}
    (gate : GateAt log i appId phoneE164) : ∃ b ∈ p.store.phoneBindings, b.appId = appId ∧
      b.phoneE164 = phoneE164 ∧ b.boundAt.isSome = true ∧ VerifiedDuring log i b := by
  obtain ⟨s, w, input, logged, hc, rfl, rfl, b, hb, app, phone, verified⟩ := gate
  obtain ⟨_, v, _, _, before, hs, after⟩ := run.split logged
  have good := ServerRun.good before
  obtain ⟨b', hb', step⟩ :=
    Server.bindings_follow_run good ((Run.single hs).trans after) b hb
  obtain ⟨t, dated⟩ := Option.isSome_iff_exists.mp (good.inv.boundDates b hb verified)
  exact ⟨b', hb', step.app.trans app, step.phone.trans phone, by simp [step.boundAt t dated],
    s, w, input, logged, hc, b, hb, step.id.symm, verified⟩

/-- The message of a completed ceremony is stored. -/
theorem ServerRun.ceremony_stored {log : List (Server × Act Request Move)} {p : Server}
    (run : ServerRun env log p) {b : PhoneBinding} (h : Ceremony env log b) :
    ∃ m ∈ p.store.inboundSms, m.receiverId = b.receiverId ∧ m.fromE164 = b.phoneE164 ∧
      extractBindNonce env.platform m.body = some b.nonce := by
  obtain ⟨s, i, m, u, input, inboundId, now, logged, _, hc, nonce, receiver, phone, _⟩ := h
  obtain ⟨_, v, _, _, before, hs, after⟩ := run.split logged
  have good := ServerRun.good before
  obtain ⟨⟨t, stored⟩, _⟩ := (good.ok i _ hc).1
  obtain ⟨matched, kept⟩ :=
    Server.inbound_kept_run good ((Run.single hs).trans after) stored
  refine ⟨_, kept, receiver, phone, ?_⟩
  show extractBindNonce env.platform (input.row env inboundId t).body = some b.nonce
  rw [input.row_body]
  exact nonce

/-- In every reachable server, every verification goes back to a binding of its app and phone that
has been bound, that was verified during the start that added the verification, and whose BIND
message from that phone to its receiver is stored. -/
theorem phone_chain_of_custody {log : List (Server × Act Request Move)} {p : Server}
    (run : ServerRun env log p) : ∀ v ∈ p.store.verifications,
      ∃ b ∈ p.store.phoneBindings, b.appId = v.appId ∧ b.phoneE164 = v.phoneE164 ∧
        b.boundAt.isSome = true ∧
        (∃ i, CreatedBy env log i v.id ∧ VerifiedDuring log i b) ∧
        ∃ m ∈ p.store.inboundSms, m.receiverId = b.receiverId ∧ m.fromE164 = v.phoneE164 ∧
          extractBindNonce env.platform m.body = some b.nonce := by
  intro v hv
  obtain ⟨i, created, gate⟩ := run.created v hv
  obtain ⟨b, hb, app, phone, bound, during⟩ := run.gate_binding gate
  obtain ⟨m, hm, receiver, sender, nonce⟩ := run.ceremony_stored (run.ceremony b hb bound)
  exact ⟨b, hb, app, phone, bound, ⟨i, created, during⟩, m, hm, receiver, sender.trans phone,
    nonce⟩

theorem phone_chain_of_custody_script : ∃ log p, ServerRun .ascii log p ∧
    ∃ v ∈ p.store.verifications, ∃ b ∈ p.store.phoneBindings, b.phoneE164 = v.phoneE164 ∧
      ∃ m ∈ p.store.inboundSms, m.receiverId = b.receiverId ∧
        extractBindNonce Platform.ascii m.body = some b.nonce := by
  obtain ⟨v, hv, _⟩ := Script.verified_reached
  have run := Script.run _ Script.verified_runs
  obtain ⟨b, hb, _, phone, _, _, m, hm, receiver, _, nonce⟩ := phone_chain_of_custody run v hv
  exact ⟨_, _, run, v, hv, b, hb, phone, m, hm, receiver, nonce⟩

end Syrotp
