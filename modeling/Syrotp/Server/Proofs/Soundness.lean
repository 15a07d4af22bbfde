import Syrotp.Server.Proofs.Lifecycle

/-!
# A verified phone sent the code

Every verified row goes back to a post: its sender normalises to the phone of the row, its body
carries the code, and the clock it sampled was before the expiry. `Posted` finds the post in the
log of the run.
-/

namespace Syrotp

variable {env : Env}

/-- The log has the step at which a call stored `inboundId` for `input` and sampled `now`. -/
def Posted (log : List (Server × Act Request Move)) (input : MatchInput) (inboundId : Id)
    (now : Time) : Prop :=
  ∃ s i w, (s, Act.turn i (.statement w)) ∈ log ∧ s.calls[i]? = some (.inbound input .insert) ∧
    inboundId = newId .inbound (w.ulid 0) ∧ now = w.now

theorem Posted.mono {log log' : List (Server × Act Request Move)} {input : MatchInput}
    {inboundId : Id} {now : Time} (h : Posted log input inboundId now)
    (sub : ∀ e ∈ log, e ∈ log') : Posted log' input inboundId now := by
  obtain ⟨s, i, w, logged, h⟩ := h
  exact ⟨s, i, w, sub _ logged, h⟩

/-- The row and the clock a claim works with. -/
def InboundPhase.sampled : InboundPhase → Option (Id × Time)
  | .claimSnapshot inboundId _ now => some (inboundId, now)
  | .claimLock inboundId _ now _ => some (inboundId, now)
  | .emit inboundId row _ => row.verifiedAt.map (inboundId, ·)
  | .commit inboundId row _ => row.verifiedAt.map (inboundId, ·)
  | _ => none

/-- A claim works with what the INSERT of its call drew. -/
theorem processInbound_sampled {v : View} {w : World} {input : MatchInput}
    {phase phase' : InboundPhase} {x : Option Write}
    (h : processInbound env v w input phase = some (phase', x)) {i : Id} {now : Time}
    (hs : phase'.sampled = some (i, now)) :
    phase.sampled = some (i, now) ∨
      (phase = .insert ∧ i = newId .inbound (w.ulid 0) ∧ now = w.now) := by
  cases processInbound_step h with
  | stored =>
    unfold afterInsert at hs
    split at hs
    · exact nomatch hs
    · split at hs
      · exact nomatch hs
      · obtain ⟨rfl, rfl⟩ := Prod.mk.inj (Option.some.inj hs)
        exact .inr ⟨rfl, rfl, rfl⟩
  | snapshot => exact .inl hs
  | locked => exact .inl hs
  | returned => exact .inl hs
  | emitted => exact .inl hs
  | _ => exact nomatch hs

/-- A claim in progress goes back to a post in the log. -/
def Sampled (log : List (Server × Act Request Move)) (_ : Nat) (c : Call) : Prop :=
  ∀ input phase, c = .inbound input phase → ∀ inboundId now,
    phase.sampled = some (inboundId, now) → Posted log input inboundId now

theorem ServerRun.sampled {log : List (Server × Act Request Move)} {p : Server}
    (run : ServerRun env log p) {i : Nat} {c : Call} (hc : p.calls[i]? = some c) :
    Sampled log i c := by
  refine run.call_history (K := Sampled) ?_ ?_ ?_ i c hc
  · exact fun _ _ _ _ _ _ h input phase hc inboundId now hs =>
      (h input phase hc inboundId now hs).mono fun _ he => List.mem_append_left _ he
  · rintro log i _ new _ input phase rfl inboundId now hs
    cases phase <;> simp [Call.isNew, InboundPhase.sampled] at new hs
  · intro log q i c m t _ hc turn h input phase after inboundId now hs
    obtain ⟨phase', rfl⟩ : ∃ phase', c = .inbound input phase' :=
      Call.inbound_of_crashed (turn.crashed.symm.trans (congrArg Call.crashed after))
    cases turn with
    | @statement w t x _ _ _ _ ran =>
      obtain ⟨⟨phase'', x⟩, hr, rfl⟩ := Option.map_eq_some_iff.mp ran
      obtain ⟨_, rfl⟩ := Call.inbound.inj after
      rcases processInbound_sampled hr hs with before | ⟨rfl, rfl, rfl⟩
      · exact (h _ _ rfl _ _ before).mono fun _ he => List.mem_append_left _ he
      · exact ⟨q, i, w, by simp, hc, rfl, rfl⟩
    | error =>
      obtain ⟨_, rfl⟩ := Call.inbound.inj after
      cases phase' <;> cases hs
    | lost =>
      obtain ⟨_, rfl⟩ := Call.inbound.inj after
      cases phase' <;> cases hs
    | crash =>
      obtain ⟨_, rfl⟩ := Call.inbound.inj after
      cases hs

/-- Every verified row goes back to a post, whose inbound is still as it was stored but for its
match. -/
def Evidence (env : Env) (log : List (Server × Act Request Move)) (p : Server) : Prop :=
  ∀ v ∈ p.store.verifications, v.status = .verified →
    ∃ input inboundId now, Posted log input inboundId now ∧
      v.matchedInboundId = some inboundId ∧ v.verifiedAt = some now ∧ now < v.expiresAt ∧
      Stored env p.store input inboundId (some v.id)

/-- A step keeps the evidence: a claim that commits brings its own. -/
theorem Evidence.step {log : List (Server × Act Request Move)} {p q : Server}
    {a : Act Request Move} (h : Evidence env log p) (run : ServerRun env log p)
    (hs : p.step (server env) a = some q) : Evidence env log q := by
  have good := run.good
  rcases Server.step_write good hs with
    same | ⟨i, m, c, x, _, hc, written, justified, within, origin⟩
  · exact fun v hv => by
      rw [same] at hv ⊢
      exact h v hv
  · intro v hv verified
    rw [written] at hv ⊢
    rcases verification_origin hv with ⟨old, _⟩ | rfl | ⟨event, deliveries, inbound, rfl⟩
    · obtain ⟨input, inboundId, now, posted, link, sampled, before, stored⟩ := h v old verified
      have claimed : ¬Unclaimed p.store inboundId := fun none => none v old link
      exact ⟨input, inboundId, now, posted, link, sampled, before,
        stored.commit (justified.claimed_apart claimed)⟩
    · simp [Insertable.pending justified] at verified
    · obtain ⟨eventType, e, committing, _⟩ := origin.resolution _ _ _ _ rfl
      have during := Call.emission_of_committing committing
      obtain ⟨y, hy, _, _, _, _, _, resolves, _⟩ := justified.resolve
      cases resolves with
      | verified inboundId now before =>
        have owned : c.stored = some inboundId :=
          mem_tokens_stored.mp (within _ (by simp [Write.tokens]))
        have sampled := run.sampled hc
        cases c with
        | inbound input phase =>
          have ok := good.ok i _ hc
          cases phase with
          | commit j row em =>
            obtain rfl := Option.some.inj owned
            obtain ⟨_, rfl, _⟩ := Prod.mk.inj (Option.some.inj during)
            exact ⟨input, j, now, sampled _ _ rfl j now rfl, rfl, rfl, before, ok.1.setMatched _⟩
          | emit j row em =>
            obtain rfl := Option.some.inj owned
            obtain ⟨_, rfl, _⟩ := Prod.mk.inj (Option.some.inj during)
            exact ⟨input, j, now, sampled _ _ rfl j now rfl, rfl, rfl, before, ok.1.setMatched _⟩
          | _ => cases during
        | _ => cases owned
      | _ => simp at verified

/-- Every run has the evidence for its verified rows in its log. -/
theorem ServerRun.evidence {log : List (Server × Act Request Move)} {p : Server}
    (run : ServerRun env log p) : Evidence env log p := by
  induction run with
  | start => exact fun v hv => nomatch hv
  | next run hs ih =>
    intro v hv verified
    obtain ⟨input, inboundId, now, posted, h⟩ := ih.step run hs v hv verified
    exact ⟨input, inboundId, now, posted.mono fun _ he => List.mem_append_left _ he, h⟩

/-! ## Soundness -/

/-- The stored sender is a phone that a start normalised only if the sender normalises to it. -/
theorem sender_normalizes (idem : NormalizeIdempotent env) {input : MatchInput} {phone : Text}
    (normalized : Normalized env phone) (same : input.fromE164 env = phone) :
    ∃ n, normalizePhone env.platform input.fromNumber env.config.defaultPhoneRegion = .ok n ∧
      n.e164 = phone := by
  unfold MatchInput.fromE164 at same
  split at same
  · next n ok => exact ⟨n, ok, same⟩
  · next e failed =>
    -- the raw sender was stored whole, and it is an E.164 number after all
    rw [List.take_of_length_le input.fromNumber_range.2] at same
    obtain ⟨n, ok, _⟩ := idem phone normalized
    rw [← same, failed] at ok
    exact nomatch ok

/-- The stored row of a verified verification is that of its post. -/
theorem verified_post (idem : NormalizeIdempotent env)
    {log : List (Server × Act Request Move)} {p : Server} (run : ServerRun env log p)
    {v : Verification} (hv : v ∈ p.store.verifications) (verified : v.status = .verified) :
    ∃ input inboundId now, Posted log input inboundId now ∧ now < v.expiresAt ∧
      input.receiverId = v.receiverId ∧
      (∃ n, normalizePhone env.platform input.fromNumber env.config.defaultPhoneRegion = .ok n ∧
        n.e164 = v.phoneE164) ∧
      extractCode env.platform input.body = some v.code ∧
      v.matchedInboundId = some inboundId ∧ v.verifiedAt = some now ∧
      ∃ m ∈ p.store.inboundSms, m.id = inboundId ∧ m.receiverId = v.receiverId ∧
        m.fromE164 = v.phoneE164 ∧ m.body = input.body ∧
        m.matchedVerificationId = some v.id := by
  have good := run.good
  obtain ⟨input, inboundId, now, posted, link, sampled, before, stored⟩ :=
    run.evidence v hv verified
  obtain ⟨m, hm, link', back, answers, _⟩ := good.inv.linked v hv verified
  obtain ⟨t, ht⟩ := stored
  obtain rfl := good.inv.inbound_ext hm ht (Option.some.inj (link'.symm.trans link))
  have body : (input.row env inboundId t).body = input.body := input.row_body inboundId t
  exact ⟨input, inboundId, now, posted, before, answers.receiver,
    sender_normalizes idem (good.inv.normalized v hv) answers.phone,
    body ▸ answers.code, link, sampled, _, hm, rfl, answers.receiver, answers.phone, body, rfl⟩

/-- An inbound is named by one verification at most, -/
theorem Server.Good.matched_once {p : Server} (good : p.Good env) {v v' : Verification} {i : Id}
    (hv : v ∈ p.store.verifications) (hv' : v' ∈ p.store.verifications)
    (link : v.matchedInboundId = some i) (link' : v'.matchedInboundId = some i) : v = v' := by
  have verified_of_named : ∀ v ∈ p.store.verifications, v.matchedInboundId = some i →
      v.status = .verified := by
    intro v hv link
    by_contra unverified
    simp [good.inv.unlinked v hv unverified] at link
  obtain ⟨m, hm, named, back, _⟩ := good.inv.linked v hv (verified_of_named v hv link)
  obtain ⟨m', hm', named', back', _⟩ := good.inv.linked v' hv' (verified_of_named v' hv' link')
  have same : m.id = m'.id := Option.some.inj
    ((named.symm.trans link).trans (link'.symm.trans named'))
  obtain rfl := good.inv.inbound_ext hm hm' same
  exact good.inv.verification_ext hv hv' (Option.some.inj (back.symm.trans back'))

/-- and names one back. -/
theorem Server.Good.answered_once {p : Server} (good : p.Good env) {v : Verification}
    {m m' : InboundSms} (hv : v ∈ p.store.verifications) (hm : m ∈ p.store.inboundSms)
    (hm' : m' ∈ p.store.inboundSms) (back : m.matchedVerificationId = some v.id)
    (back' : m'.matchedVerificationId = some v.id) : m = m' := by
  have named : ∀ x ∈ p.store.inboundSms, x.matchedVerificationId = some v.id →
      v.matchedInboundId = some x.id := by
    intro x hx back
    rcases good.inv.claims x hx v.id back with binding | ⟨y, hy, same, _, link⟩
    · simp [good.inv.kinds v hv] at binding
    · exact good.inv.verification_ext hy hv same ▸ link
  have same := (named m hm back).symm.trans (named m' hm' back')
  exact good.inv.inbound_ext hm hm' (Option.some.inj same)

/-- A post whose sender does not normalise makes no row verified. -/
theorem Server.Good.unnormalized_verifies_none {p q : Server} (good : p.Good env)
    (idem : NormalizeIdempotent env) {i : Nat} {move : Move} {input : MatchInput}
    {phase : InboundPhase} (hs : p.step (server env) (.turn i move) = some q)
    (hc : p.calls[i]? = some (.inbound input phase))
    (fails : ∀ n,
      normalizePhone env.platform input.fromNumber env.config.defaultPhoneRegion ≠ .ok n)
    {v : Verification} (hv : v ∈ q.store.verifications) (verified : v.status = .verified) :
    v ∈ p.store.verifications := by
  rcases Server.step_write good hs with
    same | ⟨_, _, c, x, turn, hc', written, justified, within, _⟩
  · exact same ▸ hv
  · obtain ⟨rfl, _⟩ := Act.turn.inj turn
    obtain rfl := Option.some.inj (hc'.symm.trans hc)
    rw [written] at hv
    rcases verification_origin hv with ⟨old, _⟩ | rfl | ⟨event, deliveries, inbound, rfl⟩
    · exact old
    · simp [Insertable.pending justified] at verified
    · exfalso
      obtain ⟨y, hy, _, _, _, _, _, resolves, backed, _⟩ := justified.resolve
      cases resolves with
      | verified inboundId now _ =>
        have owned := mem_tokens_stored.mp (within (.stored inboundId) (by simp [Write.tokens]))
        obtain ⟨_, m, hm, rfl, _, answers⟩ := backed
        obtain ⟨_, t, ht⟩ := InboundPhase.Ok.stored (good.ok i _ hc) owned
        have sender : m.fromE164 = input.fromE164 env :=
          congrArg (·.fromE164) (good.inv.inbound_ext hm ht rfl)
        obtain ⟨n, ok, _⟩ := sender_normalizes idem (good.inv.normalized y hy)
          (sender.symm.trans answers.phone)
        exact fails n ok
      | _ => simp at verified

/-- In every reachable server, each verified row goes back to a post in the log: on the same
receiver, from a sender that normalises to the row's phone, with the row's code in its body, at a
server time before the row's expiry; the row and the inbound name each other. An inbound is named
by one verification at most and a verification by one inbound at most. And a post whose sender
does not normalise makes no row verified. -/
theorem match_soundness (idem : NormalizeIdempotent env)
    {log : List (Server × Act Request Move)} {p : Server} (run : ServerRun env log p) :
    (∀ v ∈ p.store.verifications, v.status = .verified →
      ∃ input inboundId now, Posted log input inboundId now ∧ now < v.expiresAt ∧
        input.receiverId = v.receiverId ∧
        (∃ n, normalizePhone env.platform input.fromNumber env.config.defaultPhoneRegion = .ok n ∧
          n.e164 = v.phoneE164) ∧
        extractCode env.platform input.body = some v.code ∧
        v.matchedInboundId = some inboundId ∧ v.verifiedAt = some now ∧
        ∃ m ∈ p.store.inboundSms, m.id = inboundId ∧ m.receiverId = v.receiverId ∧
          m.fromE164 = v.phoneE164 ∧ m.body = input.body ∧
          m.matchedVerificationId = some v.id) ∧
    (∀ v ∈ p.store.verifications, ∀ v' ∈ p.store.verifications, ∀ i,
      v.matchedInboundId = some i → v'.matchedInboundId = some i → v = v') ∧
    (∀ v ∈ p.store.verifications, ∀ m ∈ p.store.inboundSms, ∀ m' ∈ p.store.inboundSms,
      m.matchedVerificationId = some v.id → m'.matchedVerificationId = some v.id → m = m') ∧
    (∀ i move q input phase, p.step (server env) (.turn i move) = some q →
      p.calls[i]? = some (.inbound input phase) →
      (∀ n, normalizePhone env.platform input.fromNumber env.config.defaultPhoneRegion ≠ .ok n) →
      ∀ v ∈ q.store.verifications, v.status = .verified → v ∈ p.store.verifications) := by
  have good := run.good
  refine ⟨fun v hv verified => verified_post idem run hv verified,
    fun v hv v' hv' i link link' => good.matched_once hv hv' link link',
    fun v hv m hm m' hm' back back' => good.answered_once hv hm hm' back back', ?_⟩
  intro i move q input phase hs hc fails v hv verified
  exact good.unnormalized_verifies_none idem hs hc fails hv verified

/-- The row that the script verified goes back to the post of its message. -/
theorem match_soundness_script : ∃ log p, ServerRun .ascii log p ∧
    ∃ v ∈ p.store.verifications, v.status = .verified ∧
      ∃ input inboundId now, Posted log input inboundId now ∧
        extractCode .ascii input.body = some v.code := by
  obtain ⟨v, hv, verified⟩ := Script.verified_reached
  have run := Script.run _ Script.verified_runs
  obtain ⟨input, inboundId, now, posted, _, _, _, code, _⟩ :=
    (match_soundness normalizeIdempotent_ascii run).1 v hv verified
  exact ⟨_, _, run, v, hv, verified, input, inboundId, now, posted, code⟩

end Syrotp
