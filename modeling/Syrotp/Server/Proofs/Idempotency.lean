import Syrotp.Server.Proofs.Lifecycle

/-!
# Posting a message again

The unique index on receiver and idempotency key lets one post store a message and act on it; the
others find its row and answer `duplicate`. That answer carries no match, so it repeats what the
first post answered exactly when that one found nothing to match.
-/

namespace Syrotp

variable {env : Env}

/-- What a post finds at the statement that looks for a match. -/
def Finds (env : Env) (v : View) (input : MatchInput) : InboundPhase → Prop
  | .consumeBind _ nonce now => ∃ b ∈ v.db.phoneBindings,
      consumable ⟨input.receiverId, input.fromE164 env, nonce⟩ now b = true
  | .claimLock _ code now candidates => ∃ x ∈ v.db.verifications, x.id ∈ candidates ∧
      claimable input.receiverId (input.fromE164 env) code now x = true ∧
      v.held (.verification x.id) = false
  | _ => False

/-- The post at position `i` found something when it looked for a match. -/
def Found (env : Env) (log : List (Server × Act Request Move)) (i : Nat) : Prop :=
  ∃ s w input phase, (s, Act.turn i (.statement w)) ∈ log ∧
    s.calls[i]? = some (.inbound input phase) ∧
    Finds env (viewOf s.store (s.others i)) input phase

theorem found_append {log : List (Server × Act Request Move)} {q : Server}
    {a : Act Request Move} {i : Nat} : Found env (log ++ [(q, a)]) i ↔ Found env log i ∨
      ∃ w input phase, a = .turn i (.statement w) ∧ q.calls[i]? = some (.inbound input phase) ∧
        Finds env (viewOf q.store (q.others i)) input phase := by
  constructor
  · rintro ⟨s, w, input, phase, logged, hc, finds⟩
    rcases List.mem_append.mp logged with before | last
    · exact .inl ⟨s, w, input, phase, before, hc, finds⟩
    · obtain ⟨rfl, rfl⟩ := Prod.mk.inj (List.mem_singleton.mp last)
      exact .inr ⟨w, input, phase, rfl, hc, finds⟩
  · rintro (⟨s, w, input, phase, logged, h⟩ | ⟨w, input, phase, rfl, h⟩)
    · exact ⟨s, w, input, phase, List.mem_append_left _ logged, h⟩
    · exact ⟨q, w, input, phase, by simp, h⟩

/-- Whether a stage lies behind a match; a failure tells nothing. -/
def InboundPhase.hasMatched : InboundPhase → Option Bool
  | .annotate .. | .emit .. | .commit .. | .done (.verification ..) | .done (.binding ..) =>
    some true
  | .failed => none
  | _ => some false

/-- A stage lies behind a match when the one before does or its statement finds one. -/
theorem processInbound_finds {v : View} {w : World} {input : MatchInput}
    {phase phase' : InboundPhase} {x : Option Write}
    (h : processInbound env v w input phase = some (phase', x)) {b : Bool}
    (hb : phase'.hasMatched = some b) : ∃ a, phase.hasMatched = some a ∧
      (b = true ↔ a = true ∨ Finds env v input phase) := by
  have quiet : ∀ {a : Bool}, phase'.hasMatched = some a → phase.hasMatched = some a →
      (¬Finds env v input phase) → ∃ a, phase.hasMatched = some a ∧
        (b = true ↔ a = true ∨ Finds env v input phase) := by
    intro a same before nothing
    obtain rfl := Option.some.inj (hb.symm.trans same)
    exact ⟨b, before, by simp [nothing]⟩
  have match_found : phase'.hasMatched = some true → phase.hasMatched = some false →
      Finds env v input phase → ∃ a, phase.hasMatched = some a ∧
        (b = true ↔ a = true ∨ Finds env v input phase) := by
    intro same before finds
    obtain rfl := Option.some.inj (hb.symm.trans same)
    exact ⟨false, before, by simp [finds]⟩
  cases processInbound_step h with
  | stored =>
    refine quiet (a := false) ?_ rfl id
    unfold afterInsert
    split
    · rfl
    · split <;> rfl
  | rethrown => exact nomatch hb
  | violated => exact nomatch hb
  | consumed hy hit => exact match_found rfl rfl ⟨_, hy, hit⟩
  | unconsumed none =>
    refine quiet (a := false) rfl rfl fun ⟨y, hy, hit⟩ => ?_
    exact Bool.eq_false_iff.mp (none y hy) hit
  | locked hy claim free => exact match_found rfl rfl ⟨_, hy, claim.1, claim.2, free⟩
  | passed none =>
    refine quiet (a := false) rfl rfl fun ⟨y, hy, seen, claim, free⟩ => ?_
    exact Bool.eq_false_iff.mp free (none y hy ⟨seen, claim⟩)
  | _ => exact quiet rfl rfl id

/-- A post lies behind a match exactly when it has found one. -/
def Accounted (env : Env) (log : List (Server × Act Request Move)) (i : Nat) (c : Call) : Prop :=
  ∀ input phase, c = .inbound input phase → ∀ b, phase.hasMatched = some b →
    (b = true ↔ Found env log i)

theorem ServerRun.accounted {log : List (Server × Act Request Move)} {p : Server}
    (run : ServerRun env log p) {i : Nat} {c : Call} (hc : p.calls[i]? = some c) :
    Accounted env log i c := by
  refine run.call_history (K := Accounted env) ?_ ?_ ?_ i c hc
  · intro log q a i c other h input phase hc b hb
    rw [h input phase hc b hb, found_append]
    refine ⟨.inl, ?_⟩
    rintro (found | ⟨w, _, _, same, _⟩)
    · exact found
    · exact absurd same (other _)
  · rintro log i _ new idle input phase rfl b hb
    have none : ¬Found env log i := by
      rintro ⟨s, w, _, _, logged, _⟩
      exact idle _ logged _ rfl
    cases phase <;> simp [Call.isNew, InboundPhase.hasMatched] at new hb
    simp [← hb, none]
  · intro log q i c m t _ hc turn h input phase after b hb
    obtain ⟨phase', rfl⟩ : ∃ phase', c = .inbound input phase' :=
      Call.inbound_of_crashed (turn.crashed.symm.trans (congrArg Call.crashed after))
    rw [found_append]
    cases turn with
    | @statement w t x _ _ _ _ ran =>
      obtain ⟨⟨phase'', x⟩, hr, rfl⟩ := Option.map_eq_some_iff.mp ran
      obtain ⟨_, rfl⟩ := Call.inbound.inj after
      obtain ⟨a, ha, step⟩ := processInbound_finds hr hb
      rw [step, h _ _ rfl a ha]
      refine or_congr Iff.rfl ⟨fun finds => ⟨w, input, phase', rfl, hc, finds⟩, ?_⟩
      rintro ⟨w', input', phase'', same, hc', finds⟩
      obtain ⟨rfl, rfl⟩ := Call.inbound.inj (Option.some.inj (hc.symm.trans hc'))
      exact finds
    | error =>
      obtain ⟨_, rfl⟩ := Call.inbound.inj after
      cases phase' <;> simp [InboundPhase.thrown, InboundPhase.hasMatched] at hb
      subst hb
      rw [h _ _ rfl false rfl]
      simp
    | lost =>
      obtain ⟨_, rfl⟩ := Call.inbound.inj after
      cases phase' <;> simp [InboundPhase.thrown, InboundPhase.hasMatched] at hb
      subst hb
      rw [h _ _ rfl false rfl]
      simp
    | crash =>
      obtain ⟨_, rfl⟩ := Call.inbound.inj after
      cases hb

/-! ## One post stores and acts -/

/-- Two calls that have stored messages under one key are one call. -/
theorem Server.Good.one_storer {p : Server} (good : p.Good env) {i j : Nat}
    {input input' : MatchInput} {phase phase' : InboundPhase} {a b : Id}
    (hi : p.calls[i]? = some (.inbound input phase))
    (hj : p.calls[j]? = some (.inbound input' phase'))
    (same : input.idempotency = input'.idempotency) (ha : phase.stored = some a)
    (hb : phase'.stored = some b) : i = j := by
  by_contra ne
  obtain ⟨_, stored⟩ := InboundPhase.Ok.stored (good.ok i _ hi) ha
  obtain ⟨_, stored'⟩ := InboundPhase.Ok.stored (good.ok j _ hj) hb
  obtain ⟨m, hm, rfl, key, _⟩ := Stored.row stored
  obtain ⟨m', hm', rfl, key', _⟩ := Stored.row stored'
  obtain rfl := eq_of_key good.inv.idempotency hm hm' (key.trans (same.trans key'.symm))
  exact good.exclusive i j _ _ hi hj ne _ (mem_tokens_stored.mpr ha) (mem_tokens_stored.mpr hb)

/-- A post that has stored nothing and finds its message stored writes nothing. -/
theorem processInbound_replay {v : View} {w : World} {input : MatchInput}
    {phase phase' : InboundPhase} {x : Option Write}
    (h : processInbound env v w input phase = some (phase', x)) (other : phase.stored = none)
    (present : ∃ m ∈ v.db.inboundSms, m.idempotency = input.idempotency) : x = none := by
  cases processInbound_step h with
  | stored _ absent =>
    rw [hasKey_iff.mpr present] at absent
    contradiction
  | clash => rfl
  | duplicate => rfl
  | rethrown => rfl
  | _ => exact nomatch other

theorem Server.replay_writes_nothing {p q : Server} (good : p.Good env) {i : Nat} {m : Move}
    {input : MatchInput} {phase : InboundPhase} (hs : p.step (server env) (.turn i m) = some q)
    (hc : p.calls[i]? = some (.inbound input phase)) (other : phase.stored = none)
    (present : ∃ m ∈ p.store.inboundSms, m.idempotency = input.idempotency) :
    q.store = p.store := by
  obtain ⟨c, t, hc', ht, rfl⟩ := Pool.step_turn hs
  obtain rfl := Option.some.inj (hc'.symm.trans hc)
  have unchanged : ∀ {w t}, Call.statement env (viewOf p.store (p.others i)) w
      (.inbound input phase) = some t → t.store = p.store := by
    intro w t ran
    obtain ⟨⟨phase', x⟩, hr, rfl⟩ := Option.map_eq_some_iff.mp ran
    obtain rfl := processInbound_replay hr other present
    rfl
  cases turn_cases good.inv (good.ok i _ hc) ht with
  | statement _ _ _ _ ran => exact unchanged ran
  | error => rfl
  | lost _ _ _ ran => exact unchanged ran
  | crash => rfl

/-! ## The answers to a re-post -/

/-- Two answers report the same match: the same flag, verification and binding. -/
def SameMatch (a b : MatchOutcome) : Prop :=
  (inboundResponse a).isMatched = (inboundResponse b).isMatched ∧
    (inboundResponse a).verificationId = (inboundResponse b).verificationId ∧
    (inboundResponse a).phoneBindingId = (inboundResponse b).phoneBindingId

namespace Script

/-- The message that verified the phone is posted once more: call 6. -/
def reposted : List (Act Request Move) :=
  verified ++ [.arrive (.inbound receiver verifyMessage)] ++ turns 6 2 (world 1060)

theorem reposted_runs : (result reposted).isSome = true := by decide +kernel

end Script

end Syrotp
