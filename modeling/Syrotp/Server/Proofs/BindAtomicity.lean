import Syrotp.Server.Proofs.Idempotency

/-!
# A BIND message, all or nothing

The row of a BIND message is stored before its binding is updated, by a statement of its own, and
nothing takes it back. So a post that throws after its INSERT leaves the row in place, and the
message posted again is answered as a duplicate. A failure of the database makes it throw there,
and so does the UPDATE itself when it would give an app and a phone a second verified binding.
-/

namespace Syrotp

variable {env : Env}

/-! ## The UPDATE of the bindings -/

/-- The UPDATE takes a binding whose app and phone have another one that is verified, or that it
takes too. -/
def Conflicts (bindings : List PhoneBinding) (input : ConsumeBindNonceInput) (now : Time) : Prop :=
  ∃ b ∈ bindings, consumable input now b = true ∧ ∃ b' ∈ bindings, b'.id ≠ b.id ∧
    b'.appId = b.appId ∧ b'.phoneE164 = b.phoneE164 ∧
    (b'.status = .verified ∨ consumable input now b' = true)

section

variable {db : Db} {input : ConsumeBindNonceInput} {now : Time}

/-- A binding after the UPDATE. -/
def PhoneBinding.consumed (input : ConsumeBindNonceInput) (now : Time) (b : PhoneBinding) :
    PhoneBinding :=
  if consumable input now b then { b with status := .verified, boundAt := some now } else b

theorem PhoneBinding.consumed_keeps (b : PhoneBinding) : (b.consumed input now).id = b.id ∧
    (b.consumed input now).appId = b.appId ∧ (b.consumed input now).phoneE164 = b.phoneE164 := by
  unfold consumed
  split <;> exact ⟨rfl, rfl, rfl⟩

theorem PhoneBinding.consumed_verified {b : PhoneBinding} :
    (b.consumed input now).status = .verified ↔
      b.status = .verified ∨ consumable input now b = true := by
  unfold consumed
  split
  · next hit => simp [hit]
  · next miss => simp [miss]

/-- The bindings after the UPDATE, row by row. -/
theorem verifyBindings_consumed (ids : (db.phoneBindings.map (·.id)).Nodup) :
    (db.commit (.verifyBindings ((db.phoneBindings.filter (consumable input now)).map (·.id))
      now)).phoneBindings = db.phoneBindings.map (·.consumed input now) := by
  show updateWhere _ _ _ = _
  refine List.map_congr_left fun b hb => ?_
  have taken : b.id ∈ (db.phoneBindings.filter (consumable input now)).map (·.id) ↔
      consumable input now b = true := by
    constructor
    · intro hit
      obtain ⟨b', hb', same⟩ := List.mem_map.mp hit
      obtain ⟨hb', hit⟩ := List.mem_filter.mp hb'
      rwa [← eq_of_key ids hb' hb same]
    · exact fun hit => List.mem_map_of_mem (List.mem_filter.mpr ⟨hb, hit⟩)
  simp only [decide_eq_true_eq, taken, PhoneBinding.consumed]

/-- The index allows the UPDATE exactly when it takes no binding with a rival. -/
theorem activeUnique_consumed_iff (ids : (db.phoneBindings.map (·.id)).Nodup)
    (active : activeUnique db.phoneBindings = true) :
    activeUnique (db.phoneBindings.map (·.consumed input now)) = true ↔
      ¬Conflicts db.phoneBindings input now := by
  have ids' : ((db.phoneBindings.map (·.consumed input now)).map (·.id)).Nodup := by
    have same : (db.phoneBindings.map (·.consumed input now)).map (·.id) =
        db.phoneBindings.map (·.id) := by
      rw [List.map_map]
      exact List.map_congr_left fun b _ => b.consumed_keeps.1
    rwa [same]
  simp only [activeUnique, decide_eq_true_eq] at active ⊢
  rw [nodup_filter_map_iff ids] at active
  rw [nodup_filter_map_iff ids']
  simp only [List.forall_mem_map, decide_eq_true_eq, Prod.mk.injEq,
    PhoneBinding.consumed_verified, PhoneBinding.consumed_keeps] at active ⊢
  constructor
  · rintro unique ⟨b, hb, hit, b', hb', other, app, phone, verified⟩
    exact other (unique b' hb' b hb verified (.inr hit) ⟨app, phone⟩)
  · intro clear b hb b' hb' hit hit' same
    by_contra other
    rcases hit with verified | taken
    · rcases hit' with verified' | taken'
      · exact other (active b hb b' hb' verified verified' same)
      · exact clear ⟨b', hb', taken', b, hb, other, same.1, same.2, .inl verified⟩
    · exact clear ⟨b, hb, taken, b', hb', Ne.symm other, same.1.symm, same.2.symm, hit'⟩

/-- When the UPDATE of `consumeBindNonce` throws. -/
theorem consumeBindNonce_violation_iff {tie : Nat} (ids : (db.phoneBindings.map (·.id)).Nodup)
    (active : activeUnique db.phoneBindings = true) :
    consumeBindNonce db tie input now = .violation ↔ Conflicts db.phoneBindings input now := by
  have allowed : activeUnique (db.phoneBindings.map (·.consumed input now)) = true ↔
      ¬Conflicts db.phoneBindings input now := activeUnique_consumed_iff ids active
  simp only [consumeBindNonce, verifyBindings_consumed ids]
  split
  · next empty =>
    have untaken := List.filter_eq_nil_iff.mp (limitOne_eq_none empty)
    refine ⟨(by rintro ⟨⟩), ?_⟩
    rintro ⟨b, hb, hit, _⟩
    exact absurd hit (untaken b hb)
  · by_cases unique : activeUnique (db.phoneBindings.map (·.consumed input now)) = true
    · simp [unique, allowed.mp unique]
    · simp [unique, not_not.mp (mt allowed.mpr unique)]

end

/-! ## Posts that throw -/

/-- The body is a well-formed BIND message. -/
def MatchInput.isBind (env : Env) (input : MatchInput) : Bool :=
  (extractBindNonce env.platform input.body).isSome

/-- Nothing of the message is stored, and a post under its key, whichever comes next, stores it and
goes on to its nonce. -/
structure Afresh (env : Env) (db : Db) (input : MatchInput) : Prop where
  unstored : ∀ m ∈ db.inboundSms, m.idempotency ≠ input.idempotency
  retried : ∀ (v : View) (w : World) (again : MatchInput) (nonce : Text), v.db = db →
    again.idempotency = input.idempotency →
    extractBindNonce env.platform again.body = some nonce →
    hasKey (·.id) (newId .inbound (w.ulid 0)) db.inboundSms = false →
    processInbound env v w again .insert =
      some (.consumeBind (newId .inbound (w.ulid 0)) nonce w.now,
        some (.insertInbound (again.row env (newId .inbound (w.ulid 0)) w.dbNow)))

theorem Afresh.of_unstored {db : Db} {input : MatchInput}
    (unstored : ∀ m ∈ db.inboundSms, m.idempotency ≠ input.idempotency) :
    Afresh env db input where
  unstored := unstored
  retried := by
    rintro v w again nonce rfl same bind fresh
    have absent : hasKey (·.idempotency) again.idempotency v.db.inboundSms = false :=
      hasKey_eq_false.mpr fun m hm => same ▸ unstored m hm
    have key : (again.row env (newId .inbound (w.ulid 0)) w.dbNow).idempotency =
        again.idempotency := rfl
    have id : (again.row env (newId .inbound (w.ulid 0)) w.dbNow).id =
        newId .inbound (w.ulid 0) := rfl
    simp only [processInbound, key, id, fresh, absent, afterInsert, bind, Bool.or_self,
      Bool.false_eq_true, if_false]

/-- This step ends the BIND post at position `i` with an exception. -/
structure Throws (env : Env) (e : Server × Act Request Move) (q : Server) (i : Nat)
    (input : MatchInput) (phase : InboundPhase) : Prop where
  step : e.1.step (server env) e.2 = some q
  bind : input.isBind env = true
  before : e.1.calls[i]? = some (.inbound input phase)
  live : phase ≠ .failed
  after : q.calls[i]? = some (.inbound input .failed)

/-- A BIND post that this step ends with an exception leaves nothing of its message stored, and a
statement that threw would have thrown whatever the bindings were. -/
def AllOrNothing (env : Env) (e : Server × Act Request Move) : Prop :=
  ∀ q i input phase, Throws env e q i input phase → Afresh env q.store input ∧
    ∀ w, e.2 = .turn i (.statement w) → ∀ bindings,
      processInbound env (viewOf { e.1.store with phoneBindings := bindings } (e.1.others i)) w
        input phase = some (.failed, none)

/-- At this step the UPDATE of a BIND post takes a binding that has a rival. -/
def Conflicted (env : Env) (e : Server × Act Request Move) : Prop :=
  ∃ i w input inboundId nonce now, e.2 = .turn i (.statement w) ∧
    e.1.calls[i]? = some (.inbound input (.consumeBind inboundId nonce now)) ∧
    Conflicts e.1.store.phoneBindings (input.bind env nonce) now

/-- At this step a BIND post whose message is stored is cut off: its process crashes, or a
statement other than the INSERT fails or loses its acknowledgement. -/
def CutOff (env : Env) (e : Server × Act Request Move) : Prop :=
  ∃ i m input phase, e.2 = .turn i m ∧ undisturbed e.2 = false ∧ input.isBind env = true ∧
    e.1.calls[i]? = some (.inbound input phase) ∧
    (phase = .insert → ∀ w, m ≠ .error ∧ m ≠ .lost w) ∧
    ∃ row ∈ e.1.store.inboundSms, row.idempotency = input.idempotency

/-- A statement of a post that throws: the second look for a row of its key finds none, or the
UPDATE of the bindings meets a rival. -/
theorem processInbound_failed {v : View} {w : World} (I : Db.Inv env v.db) {input : MatchInput}
    {phase : InboundPhase} {x : Option Write}
    (h : processInbound env v w input phase = some (.failed, x)) : x = none ∧
      ((phase = .findPrior ∧ ∀ m ∈ v.db.inboundSms, m.idempotency ≠ input.idempotency) ∨
        ∃ i nonce now, phase = .consumeBind i nonce now ∧
          Conflicts v.db.phoneBindings (input.bind env nonce) now) := by
  generalize after : InboundPhase.failed = phase' at h
  cases processInbound_step h with
  | stored =>
    unfold afterInsert at after
    split at after
    · cases after
    · split at after <;> cases after
  | rethrown none => exact ⟨rfl, .inl ⟨rfl, none⟩⟩
  | @violated i nonce now _ _ _ =>
    refine ⟨rfl, .inr ⟨i, nonce, now, rfl, ?_⟩⟩
    simp only [processInbound] at h
    split at h
    · next violation => exact (consumeBindNonce_violation_iff I.bindingIds I.active).mp violation
    · cases h
    · cases h
  | _ => cases after

/-- And the UPDATE does throw when it meets one. -/
theorem processInbound_conflict {v : View} {w : World} (I : Db.Inv env v.db) {input : MatchInput}
    {i : Id} {nonce : Text} {now : Time}
    (h : Conflicts v.db.phoneBindings (input.bind env nonce) now) :
    processInbound env v w input (.consumeBind i nonce now) = some (.failed, none) := by
  have violation : consumeBindNonce v.db w.tie (input.bind env nonce) now = .violation :=
    (consumeBindNonce_violation_iff I.bindingIds I.active).mpr h
  simp only [MatchInput.bind] at violation
  simp only [processInbound, violation]

/-- A row of the key stays, whatever the step. -/
theorem Server.key_kept {p q : Server} {a : Act Request Move} (good : p.Good env)
    (hs : p.step (server env) a = some q) {key : Id × Text}
    (present : ∃ m ∈ p.store.inboundSms, m.idempotency = key) :
    ∃ m ∈ q.store.inboundSms, m.idempotency = key := by
  obtain ⟨m, hm, rfl⟩ := present
  rcases step_write good hs with same | ⟨_, _, _, x, _, _, written, _⟩
  · exact ⟨m, same ▸ hm, rfl⟩
  · obtain ⟨matched, kept⟩ := inbound_kept hm x
    exact ⟨{ m with matchedVerificationId := matched }, written ▸ kept, rfl⟩

/-- A post that owns a row has one of its key in the table. -/
theorem InboundPhase.Ok.unstored {db : Db} {input : MatchInput} {phase : InboundPhase}
    (h : phase.Ok env db input)
    (unstored : ∀ m ∈ db.inboundSms, m.idempotency ≠ input.idempotency) : phase.stored = none := by
  by_contra owned
  obtain ⟨i, owned⟩ := Option.ne_none_iff_exists'.mp owned
  obtain ⟨_, stored⟩ := InboundPhase.Ok.stored h owned
  obtain ⟨m, hm, _, key, _⟩ := Stored.row stored
  exact unstored m hm key

/-- A post that has stored nothing and fails after another statement than the INSERT has written
nothing. -/
theorem processInbound_unstored {v : View} {w : World} {input : MatchInput}
    {phase phase' : InboundPhase} {x : Option Write}
    (h : processInbound env v w input phase = some (phase', x)) (other : phase.stored = none)
    (thrown : phase.thrown = .failed) : x = none := by
  cases processInbound_step h with
  | stored => exact nomatch thrown
  | clash => rfl
  | duplicate => rfl
  | rethrown => rfl
  | _ => exact nomatch other

/-- A BIND post does not throw at an all or nothing step while its message is stored. -/
theorem Server.not_behind {p q : Server} {i : Nat} {m : Move} (good : p.Good env)
    (hs : p.step (server env) (.turn i m) = some q) (whole : AllOrNothing env (p, .turn i m))
    {t : Turn Db Call} {input : MatchInput} {phase : InboundPhase} (bind : input.isBind env = true)
    (hc : p.calls[i]? = some (.inbound input phase))
    (ht : (Call.inbound input phase).turn env p.store (p.others i) m = some t)
    (live : phase ≠ .failed) (after : t.call = .inbound input .failed) :
    ¬∃ row ∈ p.store.inboundSms, row.idempotency = input.idempotency := by
  intro present
  obtain ⟨c, t', hc', ht', rfl⟩ := Pool.step_turn hs
  obtain rfl := Option.some.inj (hc'.symm.trans hc)
  obtain rfl := Option.some.inj (ht'.symm.trans ht)
  obtain ⟨row, kept, key⟩ := Server.key_kept good hs present
  have threw := (Pool.turned_self (t := t') hc).trans (congrArg some after)
  exact (whole _ i input phase ⟨hs, bind, hc, live, threw⟩).1.unstored row kept key

/-- At an all or nothing step no rival stops a stored message, -/
theorem Server.not_conflicted {p q : Server} {a : Act Request Move} (good : p.Good env)
    (hs : p.step (server env) a = some q) (whole : AllOrNothing env (p, a)) :
    ¬Conflicted env (p, a) := by
  rintro ⟨i, w, input, inboundId, nonce, now, rfl, hc, conflict⟩
  obtain ⟨⟨stored, _⟩, bind⟩ := good.ok i _ hc
  obtain ⟨row, hrow, _, key, _⟩ := Stored.row stored
  have threw : (Call.inbound input (.consumeBind inboundId nonce now)).turn env p.store
      (p.others i) (.statement w) = some ⟨p.store, .inbound input .failed, []⟩ := by
    show Option.map _ (processInbound ..) = _
    rw [processInbound_conflict (v := viewOf p.store (p.others i)) good.inv conflict]
    rfl
  exact Server.not_behind good hs whole (by simp [MatchInput.isBind, bind]) hc threw nofun rfl
    ⟨row, hrow, key⟩

/-- and no failure does. -/
theorem Server.not_cutOff {p q : Server} {a : Act Request Move} (good : p.Good env)
    (hs : p.step (server env) a = some q) (whole : AllOrNothing env (p, a)) :
    ¬CutOff env (p, a) := by
  rintro ⟨i, m, input, phase, rfl, failing, bind, hc, outside, present⟩
  have behind := fun t ht live after =>
    Server.not_behind good hs whole (t := t) bind hc ht live after present
  obtain ⟨c, t, hc', ht, rfl⟩ := Pool.step_turn hs
  obtain rfl := Option.some.inj (hc'.symm.trans hc)
  have thrown : phase ≠ .insert → phase.thrown = .failed := by
    cases phase <;> first | exact fun _ => rfl | exact fun h => absurd rfl h
  cases turn_cases good.inv (good.ok i _ hc) ht with
  | statement => exact nomatch failing
  | error flying =>
    have other : phase ≠ .insert := fun first => (outside first ⟨0, 0, id, id, 0⟩).1 rfl
    refine behind _ ht ?_ (congrArg _ (thrown other))
    rintro rfl
    exact nomatch flying
  | lost _ _ _ ran =>
    have other : phase ≠ .insert := fun first => (outside first _).2 rfl
    refine behind _ ht ?_ (congrArg _ (thrown other))
    rintro rfl
    exact nomatch ran
  | crash flying =>
    refine behind _ ht ?_ rfl
    rintro rfl
    exact nomatch flying

/-- A step at which neither does is all or nothing. -/
theorem Server.allOrNothing_of_clear {p q : Server} {a : Act Request Move} (good : p.Good env)
    (hs : p.step (server env) a = some q) (clear : ¬Conflicted env (p, a))
    (uncut : ¬CutOff env (p, a)) : AllOrNothing env (p, a) := by
  rintro q' i input phase ⟨hs', bind, hc, live, after⟩
  obtain rfl := Option.some.inj (hs.symm.trans hs')
  rcases Pool.step_call hs hc with stays | ⟨m, t, rfl, ht, rfl⟩
  · exact absurd (Call.inbound.inj (Option.some.inj (stays.symm.trans after))).2 live
  · have ended : t.call = .inbound input .failed :=
      Option.some.inj ((Pool.turned_self hc).symm.trans after)
    have ok : phase.Ok env p.store input := good.ok i _ hc
    -- a failure is not the fault of a stored message
    have absent : undisturbed (.turn i m) = false →
        (phase = .insert → ∀ w, m ≠ .error ∧ m ≠ .lost w) →
        ∀ row ∈ p.store.inboundSms, row.idempotency ≠ input.idempotency :=
      fun failing outside row hrow key =>
        uncut ⟨i, m, input, phase, rfl, failing, bind, hc, outside, row, hrow, key⟩
    have caught : ∀ {thrown : InboundPhase}, Call.inbound input thrown = .inbound input .failed →
        thrown = phase.thrown → phase ≠ .insert := by
      rintro _ same rfl rfl
      exact nomatch same
    cases turn_cases good.inv (good.ok i _ hc) ht with
    | @statement w t x _ _ _ _ ran =>
      obtain ⟨⟨phase', write⟩, hr, rfl⟩ := Option.map_eq_some_iff.mp ran
      obtain ⟨_, rfl⟩ := Call.inbound.inj ended
      rcases processInbound_failed good.inv hr with ⟨rfl, ⟨rfl, none⟩ | ⟨k, nonce, now, rfl, met⟩⟩
      · refine ⟨.of_unstored none, ?_⟩
        rintro w' same bindings
        obtain rfl := Move.statement.inj (Act.turn.inj same).2
        exact hr
      · exact absurd ⟨i, w, input, k, nonce, now, rfl, hc, met⟩ clear
    | error =>
      have other := caught ended rfl
      exact ⟨.of_unstored (absent rfl fun first => absurd first other), nofun⟩
    | @lost w t x _ _ _ ran =>
      have other := caught ended rfl
      have unstored := absent rfl fun first => absurd first other
      obtain ⟨⟨phase', write⟩, hr, rfl⟩ := Option.map_eq_some_iff.mp ran
      obtain rfl := processInbound_unstored hr (ok.unstored unstored) (Call.inbound.inj ended).2
      exact ⟨.of_unstored unstored, nofun⟩
    | crash => exact ⟨.of_unstored (absent rfl fun _ _ => ⟨nofun, nofun⟩), nofun⟩

/-- One step is all or nothing just when neither a rival nor a failure stops a stored message. -/
theorem Server.allOrNothing_iff {p q : Server} {a : Act Request Move} (good : p.Good env)
    (hs : p.step (server env) a = some q) :
    AllOrNothing env (p, a) ↔ ¬Conflicted env (p, a) ∧ ¬CutOff env (p, a) :=
  ⟨fun whole => ⟨Server.not_conflicted good hs whole, Server.not_cutOff good hs whole⟩,
    fun h => Server.allOrNothing_of_clear good hs h.1 h.2⟩

/-! ## Posts that answer -/

/-- The stages of a BIND post. -/
def InboundPhase.onBind : InboundPhase → Bool
  | .insert | .findPrior | .consumeBind .. | .probeBind .. | .annotate .. | .failed => true
  | .done (.verification ..) => false
  | .done _ => true
  | _ => false

/-- The statements a BIND post still takes, at most. -/
def InboundPhase.remaining : InboundPhase → Nat
  | .insert => 3
  | .consumeBind .. => 2
  | .findPrior | .probeBind .. | .annotate .. => 1
  | _ => 0

theorem afterInsert_bind {input : MatchInput} (bind : input.isBind env = true) (i : Id)
    (now : Time) : ∃ nonce, afterInsert env input i now = .consumeBind i nonce now := by
  obtain ⟨nonce, bind⟩ := Option.isSome_iff_exists.mp bind
  exact ⟨nonce, by simp only [afterInsert, bind]⟩

/-- A statement of a BIND post leads to the stages of one, and nearer to an answer. -/
theorem processInbound_onBind {v : View} {w : World} {input : MatchInput}
    (bind : input.isBind env = true) {phase phase' : InboundPhase} {x : Option Write}
    (h : processInbound env v w input phase = some (phase', x)) (on : phase.onBind = true) :
    phase'.onBind = true ∧ phase'.remaining < phase.remaining := by
  cases processInbound_step h with
  | stored =>
    obtain ⟨nonce, same⟩ := afterInsert_bind bind (newId .inbound (w.ulid 0)) w.now
    rw [same]
    exact ⟨rfl, Nat.lt_succ_self 2⟩
  | clash => decide
  | duplicate => exact ⟨rfl, Nat.one_pos⟩
  | rethrown => decide
  | violated => exact ⟨rfl, Nat.two_pos⟩
  | consumed => exact ⟨rfl, Nat.one_lt_two⟩
  | unconsumed => exact ⟨rfl, Nat.one_lt_two⟩
  | probed => exact ⟨rfl, Nat.one_pos⟩
  | annotated => exact ⟨rfl, Nat.one_pos⟩
  | _ => exact nomatch on

theorem InboundPhase.thrown_onBind (phase : InboundPhase) : phase.thrown.onBind = true := by
  cases phase <;> rfl

/-- In every run a BIND post stays on its branch. -/
theorem ServerRun.onBind {log : List (Server × Act Request Move)} {p : Server}
    (run : ServerRun env log p) {i : Nat} {input : MatchInput} {phase : InboundPhase}
    (hc : p.calls[i]? = some (.inbound input phase)) (bind : input.isBind env = true) :
    phase.onBind = true := by
  refine run.call_history (K := fun _ _ c => ∀ input phase, c = .inbound input phase →
    input.isBind env = true → phase.onBind = true) ?_ ?_ ?_ i _ hc input phase rfl bind
  · exact fun _ _ _ _ _ _ h => h
  · rintro log i _ new _ input phase rfl bind
    cases phase <;> first | rfl | exact nomatch new
  · intro log q i c m t _ hc turn h input phase after bind
    obtain ⟨phase', rfl⟩ : ∃ phase', c = .inbound input phase' :=
      Call.inbound_of_crashed (turn.crashed.symm.trans (congrArg Call.crashed after))
    cases turn with
    | statement _ _ _ _ ran =>
      obtain ⟨⟨phase'', x⟩, hr, rfl⟩ := Option.map_eq_some_iff.mp ran
      obtain ⟨_, rfl⟩ := Call.inbound.inj after
      exact (processInbound_onBind bind hr (h _ _ rfl bind)).1
    | error =>
      obtain ⟨_, rfl⟩ := Call.inbound.inj after
      exact phase'.thrown_onBind
    | lost =>
      obtain ⟨_, rfl⟩ := Call.inbound.inj after
      exact phase'.thrown_onBind
    | crash =>
      obtain ⟨_, rfl⟩ := Call.inbound.inj after
      rfl

/-- Nothing keeps a BIND post waiting. -/
theorem processInbound_enabled {v : View} {w : World} {input : MatchInput}
    {phase : InboundPhase} (on : phase.onBind = true) (unanswered : ∀ o, phase ≠ .done o)
    (live : phase ≠ .failed) : (processInbound env v w input phase).isSome = true := by
  cases phase with
  | insert =>
    simp only [processInbound]
    split <;> rfl
  | findPrior =>
    simp only [processInbound]
    split <;> rfl
  | consumeBind =>
    simp only [processInbound]
    split <;> rfl
  | probeBind =>
    simp only [processInbound]
    split <;> rfl
  | annotate => rfl
  | done o => exact absurd rfl (unanswered o)
  | failed => exact absurd rfl live
  | _ => cases on

/-! ## Atomicity -/

/-- In every run: each step is all or nothing if and only if at no step the UPDATE of a BIND post
takes a binding that has a rival, and at no step a BIND post whose message is stored is cut off.
And a BIND post that has neither answered nor thrown can take its next statement, which brings it
nearer to doing so. -/
theorem bind_all_or_nothing_iff {log : List (Server × Act Request Move)} {p : Server}
    (run : ServerRun env log p) :
    ((∀ e ∈ log, AllOrNothing env e) ↔ ∀ e ∈ log, ¬Conflicted env e ∧ ¬CutOff env e) ∧
    ∀ (i : Nat) input phase, input.isBind env = true →
      p.calls[i]? = some (.inbound input phase) →
      (∃ o, phase = .done o) ∨ phase = .failed ∨
        ∀ w, ∃ q phase', p.step (server env) (.turn i (.statement w)) = some q ∧
          q.calls[i]? = some (.inbound input phase') ∧ phase'.remaining < phase.remaining := by
  refine ⟨forall₂_congr fun e he => ?_, fun i input phase bind hc => ?_⟩
  · obtain ⟨_, q, _, _, before, hs, _⟩ := run.split he
    exact Server.allOrNothing_iff (ServerRun.good before) hs
  · by_cases answered : ∃ o, phase = .done o
    · exact .inl answered
    · by_cases threw : phase = .failed
      · exact .inr (.inl threw)
      · refine .inr (.inr fun w => ?_)
        have on := run.onBind hc bind
        have enabled : (processInbound env (viewOf p.store (p.others i)) w input phase).isSome =
            true := processInbound_enabled on (fun o same => answered ⟨o, same⟩) threw
        obtain ⟨⟨phase', x⟩, hr⟩ := Option.isSome_iff_exists.mp enabled
        have ran : (Call.inbound input phase).turn env p.store (p.others i) (.statement w) =
            some ⟨p.store.commitOption x, .inbound input phase', []⟩ := by
          show Option.map _ (processInbound ..) = _
          rw [hr]
          rfl
        have hs : p.step (server env) (.turn i (.statement w)) =
            some ⟨p.store.commitOption x, p.calls.set i (.inbound input phase') ++ []⟩ := by
          simp only [Pool.step, hc]
          exact congrArg (Option.map fun t => (⟨t.store, p.calls.set i t.call ++ t.spawned⟩ :
            Server)) ran
        have self := Pool.turned_self (t := ⟨p.store.commitOption x, .inbound input phase', []⟩) hc
        exact ⟨_, phase', hs, self, (processInbound_onBind bind hr on).2⟩

namespace Script

/-- The nonce of the second binding is all `B`. -/
def otherWorld (n : Nat) : World := { world n with random := fun _ => 1 }

def otherBindMessage : InboundBody :=
  { bindMessage with
    body := text "BIND BBBBBBBBBBBBBBBBBBBBBBBB"
    idempotencyKey := text "key-bind-2"
    body_range := by decide
    idempotencyKey_range := by decide }

/-- Two bindings of the phone are started, the first is bound, and the message of the second is
posted and stored: calls 1 to 4. -/
def rivals : List (Act Request Move) :=
  [.arrive (.maintain (.putReceiver (receiverRow 1)))] ++ turns 0 1 (world 1000) ++
  [.arrive (.startBinding ⟨app, receiver, phone⟩)] ++ turns 1 3 (world 1010) ++
  [.arrive (.startBinding ⟨app, receiver, phone⟩)] ++ turns 2 3 (otherWorld 1020) ++
  [.arrive (.inbound receiver bindMessage)] ++ turns 3 3 (world 1030) ++
  [.arrive (.inbound receiver otherBindMessage)] ++ turns 4 1 (world 1040)

theorem rivals_runs : (result rivals).isSome = true := by decide +kernel

/-- The server on which the UPDATE of the second message is next. -/
def rival : Server := ((result rivals).get rivals_runs).2

theorem rival_step : (rival.step (server .ascii) (.turn 4 (.statement (world 1050)))).isSome =
    true := by decide +kernel

/-- The server after it. -/
def refused : Server :=
  (rival.step (server .ascii) (.turn 4 (.statement (world 1050)))).get rival_step

/-- The gateway posts the message again: call 5. -/
def retried : List (Act Request Move) :=
  [.arrive (.inbound receiver otherBindMessage)] ++ turns 5 2 (world 1060)

theorem retried_runs : (exec (Pool.step (server .ascii)) refused retried).isSome = true := by
  decide +kernel

def otherInput : MatchInput := ⟨otherBindMessage, receiver, otherBindMessage.toNumber⟩

theorem refused_throws : Throws .ascii (rival, .turn 4 (.statement (world 1050))) refused 4
    otherInput (.consumeBind (newId .inbound 1040) (List.replicate 24 66) 1040) where
  step := (Option.some_get rival_step).symm
  bind := by decide +kernel
  before := by decide +kernel
  live := nofun
  after := by decide +kernel

end Script

/-- Without any failure: the message of the second of two bindings of a phone is answered 500 and
stays stored, so that it is a duplicate when it is posted again, while its binding is pending and
has minutes left. -/
theorem second_binding_refused : ∃ log p, ServerRun .ascii log p ∧
    (∀ e ∈ log, undisturbed e.2 = true) ∧ (¬∀ e ∈ log, AllOrNothing .ascii e) ∧
    p.calls[4]? = some (.inbound Script.otherInput .failed) ∧
    (∃ prior, p.calls[5]? = some (.inbound Script.otherInput (.done (.duplicate prior)))) ∧
    ∃ b ∈ p.store.phoneBindings, b.status = .pending ∧ 1060 < b.expiresAt ∧
      extractBindNonce .ascii Script.otherInput.body = some b.nonce := by
  have run := ((Script.run _ Script.rivals_runs).next
    (Option.some_get Script.rival_step).symm).trans
    (run_of_exec (Option.some_get Script.retried_runs).symm)
  refine ⟨_, _, run, by decide +kernel, fun whole => ?_, by decide +kernel,
    ⟨newId .inbound 1040, by decide +kernel⟩, by decide +kernel⟩
  obtain ⟨afresh, _⟩ := whole (Script.rival, .turn 4 (.statement (Script.world 1050)))
    (List.mem_append_left _ (List.mem_append_right _ (List.mem_singleton_self _)))
    _ _ _ _ Script.refused_throws
  have stored : ∃ m ∈ Script.refused.store.inboundSms,
      m.idempotency = Script.otherInput.idempotency := by decide +kernel
  obtain ⟨m, hm, key⟩ := stored
  exact afresh.unstored m hm key

/-- The run that binds one phone and verifies it is all or nothing. -/
theorem bind_all_or_nothing_script : ∃ log p, ServerRun .ascii log p ∧
    (∀ e ∈ log, AllOrNothing .ascii e) ∧
      ∃ b ∈ p.store.phoneBindings, b.status = .verified := by
  have facts : (∀ e ∈ ((Script.result Script.verified).get Script.verified_runs).1,
      undisturbed e.2 = true ∧
        ∀ b ∈ e.1.store.phoneBindings, ∀ b' ∈ e.1.store.phoneBindings, b'.id = b.id) ∧
      ∃ b ∈ ((Script.result Script.verified).get Script.verified_runs).2.store.phoneBindings,
        b.status = .verified := by decide +kernel
  obtain ⟨steps, bound⟩ := facts
  refine ⟨_, _, Script.run _ Script.verified_runs, ?_, bound⟩
  refine (bind_all_or_nothing_iff (Script.run _ Script.verified_runs)).1.mpr fun e he => ⟨?_, ?_⟩
  · rintro ⟨_, _, _, _, _, _, _, _, b, hb, _, b', hb', other, _⟩
    exact other ((steps e he).2 b hb b' hb')
  · rintro ⟨_, _, _, _, _, failing, _⟩
    rw [(steps e he).1] at failing
    contradiction

end Syrotp
