import Syrotp.Server.Proofs.Lifecycle

/-!
# Whether an acknowledged message can be lost

The INSERT of a post commits on its own, the claim follows in another transaction, and a re-post
that finds the row is answered 409, which takes the item off the gateway's queue. So the message
is safe as long as that answer comes after the COMMIT of the claim, and the claim does not pass the
verification over because someone else has locked it.
-/

namespace Syrotp

variable {env : Env}

/-- The verification waits for this message. -/
structure Awaits (env : Env) (v : Verification) (input : MatchInput) : Prop where
  receiver : v.receiverId = input.receiverId
  phone : v.phoneE164 = input.fromE164 env
  nonce : extractBindNonce env.platform input.body = none
  code : extractCode env.platform input.body = some v.code

/-- `a` posts what `b` posts: the same body through the same receiver. -/
structure MatchInput.Reposts (a b : MatchInput) : Prop where
  body : a.toInboundBody = b.toInboundBody
  receiver : a.receiverId = b.receiverId

theorem MatchInput.Reposts.idempotency {a b : MatchInput} (h : a.Reposts b) :
    a.idempotency = b.idempotency := by
  simp only [MatchInput.idempotency, h.body, h.receiver]

theorem MatchInput.Reposts.awaits {a b : MatchInput} (h : a.Reposts b) {v : Verification}
    (awaits : Awaits env v b) : Awaits env v a where
  receiver := awaits.receiver.trans h.receiver.symm
  phone := by simpa only [MatchInput.fromE164, h.body] using awaits.phone
  nonce := by simpa only [h.body] using awaits.nonce
  code := by simpa only [h.body] using awaits.code

def IsVerified (p : Server) (id : Id) : Prop :=
  ∃ x ∈ p.store.verifications, x.id = id ∧ x.status = .verified

/-- The call at position `i` posts the message and has come this far. -/
def Posts (input : MatchInput) (p : Server) (i : Nat) (phase : InboundPhase) : Prop :=
  ∃ input', p.calls[i]? = some (.inbound input' phase) ∧ input'.Reposts input

/-- At this step a post of the message finds its row and answers `duplicate`. -/
def FindsRow (input : MatchInput) (e : Server × Act Request Move) : Prop :=
  ∃ i w, e.2 = .turn i (.statement w) ∧ Posts input e.1 i .findPrior ∧
    ∃ m ∈ e.1.store.inboundSms, m.idempotency = input.idempotency

/-- At this step the claim of a post of the message commits, acknowledged or not. -/
def CommitsClaim (input : MatchInput) (e : Server × Act Request Move) : Prop :=
  ∃ i w inboundId row emission, (e.2 = .turn i (.statement w) ∨ e.2 = .turn i (.lost w)) ∧
    Posts input e.1 i (.commit inboundId row emission)

/-- At this step the claim of a post of the message looks for its row while another transaction
has the verification locked. -/
def PassesOver (input : MatchInput) (id : Id) (e : Server × Act Request Move) : Prop :=
  ∃ i w inboundId code now candidates, e.2 = .turn i (.statement w) ∧
    Posts input e.1 i (.claimLock inboundId code now candidates) ∧
    ∃ o ∈ e.1.others i, .verification id ∈ o.locks

/-! ## One post -/

/-- A post that has not answered and, if it comes to claim, will claim `v`. -/
def InboundPhase.OnTrack (v : Verification) : InboundPhase → Prop
  | .insert | .findPrior | .failed => True
  | .claimSnapshot _ code now => code = v.code ∧ now < v.expiresAt
  | .claimLock _ code now candidates =>
    code = v.code ∧ now < v.expiresAt ∧ v.id ∈ candidates
  | .emit _ row _ | .commit _ row _ => row.id = v.id
  | _ => False

/-- `x` is the current row of `v`, and still pending. -/
structure StillPending (db : Db) (v x : Verification) : Prop where
  mem : x ∈ db.verifications
  id : x.id = v.id
  pending : x.status = .pending
  receiver : x.receiverId = v.receiverId
  phone : x.phoneE164 = v.phoneE164
  code : x.code = v.code
  expires : x.expiresAt = v.expiresAt

theorem StillPending.claimable {db : Db} {v x : Verification} (h : StillPending db v x)
    {input : MatchInput} (awaits : Awaits env v input) {now : Time} (before : now < v.expiresAt) :
    Syrotp.claimable input.receiverId (input.fromE164 env) v.code now x = true := by
  simp [Syrotp.claimable, h.receiver, h.phone, h.code, h.expires, h.pending, awaits.receiver,
    awaits.phone, before]

/-- A statement of a post keeps it on track, as long as it does not find its row and finds the
verification unlocked. -/
theorem processInbound_onTrack {view : View} {w : World} (I : Db.Inv env view.db)
    {v x : Verification} (current : StillPending view.db v x) {input : MatchInput}
    (awaits : Awaits env v input) {phase phase' : InboundPhase} {write : Option Write}
    (h : processInbound env view w input phase = some (phase', write)) (track : phase.OnTrack v)
    (clock : phase = .insert → w.now < v.expiresAt)
    (absent : phase = .findPrior → ∀ m ∈ view.db.inboundSms, m.idempotency ≠ input.idempotency)
    (free : ∀ i code now candidates, phase = .claimLock i code now candidates →
      view.held (.verification v.id) = false)
    (uncommitted : ∀ i row emission, phase ≠ .commit i row emission) : phase'.OnTrack v := by
  cases processInbound_step h with
  | stored =>
    simp only [afterInsert, awaits.nonce, awaits.code]
    exact ⟨rfl, clock rfl⟩
  | clash => trivial
  | duplicate found key => exact absurd key (absent rfl _ found)
  | rethrown => trivial
  | snapshot =>
    obtain ⟨rfl, before⟩ := track
    refine ⟨rfl, before, List.mem_map.mpr ⟨x, ?_, current.id⟩⟩
    exact List.mem_filter.mpr ⟨current.mem, current.claimable awaits before⟩
  | @locked _ _ _ _ y hy hit _ =>
    obtain ⟨rfl, before, _⟩ := track
    have claim := current.claimable awaits before
    have claim' := hit.2
    simp only [Syrotp.claimable, decide_eq_true_eq] at claim claim'
    -- the partial unique index leaves one such row
    have same : y.id = x.id := by
      refine I.pendingUnique x current.mem y hy current.pending ?_
      simp [pendingWith, claim, claim']
    exact same.trans current.id
  | passed taken =>
    obtain ⟨rfl, before, seen⟩ := track
    -- the row of `v` is there, it is free and it qualifies
    have held := taken x current.mem ⟨current.id ▸ seen, current.claimable awaits before⟩
    rw [current.id, free _ _ _ _ rfl] at held
    contradiction
  | returned => exact track
  | emitted => exact track
  | committed => exact absurd rfl (uncommitted _ _ _)
  | _ => exact track.elim

/-- A post that fails is on track: it answers 500. -/
theorem InboundPhase.thrown_onTrack {v : Verification} (phase : InboundPhase) :
    phase.thrown.OnTrack v := by
  cases phase <;> trivial

/-- The COMMIT of a claim verifies its row. -/
theorem commit_verifies {view : View} {w : World} {input : MatchInput} {i : Id}
    {row : Verification} {emission : Emission} {t : Turn Db Call}
    (ok : (Call.inbound input (.commit i row emission)).Ok env view.db)
    (ran : (Call.inbound input (.commit i row emission)).statement env view w = some t) :
    row ∈ t.store.verifications ∧ row.status = .verified := by
  obtain ⟨⟨phase', x⟩, hr, rfl⟩ := Option.map_eq_some_iff.mp ran
  obtain ⟨write, written, same⟩ := Option.map_eq_some_iff.mp hr
  obtain ⟨rfl, rfl⟩ := same
  obtain ⟨_, y, hy, _, resolves, _⟩ := ok
  obtain ⟨_, _, _, _, rfl⟩ := Emission.write?_eq_some written
  exact ⟨mem_updateWhere_of_pos hy (by simp [resolves.id]), resolves.status⟩

/-! ## All posts of the message -/

/-- As long as the verification waits, every post of the message is on track, and no claim of one
has committed. -/
def Waiting (input : MatchInput) (v : Verification) (log : List (Server × Act Request Move))
    (p : Server) : Prop :=
  (∀ i phase, Posts input p i phase → phase.OnTrack v) ∧ ∀ e ∈ log, ¬CommitsClaim input e

/-- Its row, where it has not been cancelled or expired, is pending or verified. -/
theorem Follows.still_pending {d d' : Db} (follows : Follows d d') {v : Verification}
    (hv : v ∈ d.verifications)
    (stays : ∀ x ∈ d'.verifications, x.id = v.id → x.status = .pending ∨ x.status = .verified) :
    (∃ x ∈ d'.verifications, x.id = v.id ∧ x.status = .verified) ∨
      ∃ x, StillPending d' v x := by
  obtain ⟨x, hx, id, _, _, phone, receiver, code, expires⟩ := follows v hv
  rcases stays x hx id with waits | verified
  · exact .inr ⟨x, hx, id, waits, receiver, phone, code, expires⟩
  · exact .inl ⟨x, hx, id, verified⟩

theorem Follows.verified {d d' : Db} (follows : Follows d d') {id : Id}
    (h : ∃ x ∈ d.verifications, x.id = id ∧ x.status = .verified) :
    ∃ x ∈ d'.verifications, x.id = id ∧ x.status = .verified := by
  obtain ⟨x, hx, rfl, verified⟩ := h
  obtain ⟨y, hy, id, status, _⟩ := follows x hx
  refine ⟨y, hy, id, ?_⟩
  rcases status with same | ⟨pending, _⟩
  · exact same.trans verified
  · rw [verified] at pending
    contradiction

/-- A turn of a post keeps it on track or verifies the row. -/
theorem post_turn {q : Server} (good : q.Good env) {i : Nat} {input input' : MatchInput}
    {phase : InboundPhase} (hc : q.calls[i]? = some (.inbound input' phase))
    (same : input'.Reposts input) {v x : Verification} (current : StillPending q.store v x)
    (awaits : Awaits env v input) (track : phase.OnTrack v) {m : Move} {t : Turn Db Call}
    (turn : TurnCases env q.store (q.others i) (.inbound input' phase) m t)
    (clock : ∀ w, m = .statement w → phase = .insert → w.now < v.expiresAt)
    (unfound : ¬FindsRow input (q, .turn i m))
    (unlocked : ¬PassesOver input v.id (q, .turn i m)) :
    (∃ y ∈ t.store.verifications, y.id = v.id ∧ y.status = .verified) ∨
      ((∀ input' phase', t.call = .inbound input' phase' → phase'.OnTrack v) ∧
        ¬CommitsClaim input (q, .turn i m)) := by
  -- only the COMMIT of a claim counts as one
  have quiet : (∀ i row emission, phase ≠ .commit i row emission) →
      ¬CommitsClaim input (q, .turn i m) := by
    rintro uncommitted ⟨j, w, inboundId, row, emission, taken, _, hj, _⟩
    obtain rfl : j = i := by
      rcases taken with taken | taken <;> exact (Act.turn.inj taken).1.symm
    exact uncommitted _ _ _ (Call.inbound.inj (Option.some.inj (hc.symm.trans hj))).2
  have verifies : ∀ {inboundId row emission w t}, phase = .commit inboundId row emission →
      (Call.inbound input' phase).statement env (viewOf q.store (q.others i)) w = some t →
      ∃ y ∈ t.store.verifications, y.id = v.id ∧ y.status = .verified := by
    rintro inboundId row emission w t rfl ran
    obtain ⟨hy, verified⟩ := commit_verifies (good.ok i _ hc) ran
    exact ⟨row, hy, track, verified⟩
  by_cases committing : ∃ inboundId row emission, phase = .commit inboundId row emission
  · obtain ⟨inboundId, row, emission, rfl⟩ := committing
    cases turn with
    | statement _ _ _ _ ran => exact .inl (verifies rfl ran)
    | lost _ _ _ ran =>
      have found := verifies rfl ran
      exact .inl found
    | error =>
      refine .inr ⟨?_, ?_⟩
      · rintro _ _ ⟨⟩
        trivial
      · rintro ⟨_, _, _, _, _, taken, _⟩
        rcases taken with taken | taken <;> exact nomatch (Act.turn.inj taken).2
    | crash =>
      refine .inr ⟨?_, ?_⟩
      · rintro _ _ ⟨⟩
        trivial
      · rintro ⟨_, _, _, _, _, taken, _⟩
        rcases taken with taken | taken <;> exact nomatch (Act.turn.inj taken).2
  · have uncommitted : ∀ i row emission, phase ≠ .commit i row emission :=
      fun i row emission at_commit => committing ⟨i, row, emission, at_commit⟩
    refine .inr ⟨?_, quiet uncommitted⟩
    cases turn with
    | @statement w _ _ _ _ _ _ ran =>
      obtain ⟨⟨phase', write⟩, hr, rfl⟩ := Option.map_eq_some_iff.mp ran
      rintro _ _ ⟨⟩
      refine processInbound_onTrack good.inv current (same.awaits awaits) hr track
        (clock w rfl) ?_ ?_ uncommitted
      · rintro rfl m hm key
        exact unfound ⟨i, w, rfl, ⟨input', hc, same⟩, m, hm, key.trans same.idempotency⟩
      · rintro inboundId code now candidates rfl
        refine Bool.eq_false_iff.mpr fun held => unlocked ?_
        obtain ⟨o, ho, locked⟩ := List.any_eq_true.mp held
        exact ⟨i, w, inboundId, code, now, candidates, rfl, ⟨input', hc, same⟩, o, ho,
          of_decide_eq_true locked⟩
    | error =>
      rintro _ _ ⟨⟩
      exact phase.thrown_onTrack
    | lost =>
      rintro _ _ ⟨⟩
      exact phase.thrown_onTrack
    | crash =>
      rintro _ _ ⟨⟩
      trivial

/-- One step: the verification is verified by it, or still waits for the message. -/
theorem Waiting.step {q u : Server} (good : q.Good env) {log : List (Server × Act Request Move)}
    {input : MatchInput} {v x : Verification} (current : StillPending q.store v x)
    (awaits : Awaits env v input) (h : Waiting input v log q) {a : Act Request Move}
    (hs : q.step (server env) a = some u)
    (clock : ∀ i w, a = .turn i (.statement w) → Posts input q i .insert → w.now < v.expiresAt)
    (ordered : FindsRow input (q, a) → ∃ e ∈ log, CommitsClaim input e)
    (unlocked : ¬PassesOver input v.id (q, a)) :
    IsVerified u v.id ∨ Waiting input v (log ++ [(q, a)]) u := by
  obtain ⟨track, uncommitted⟩ := h
  have waits : (∀ i phase, Posts input u i phase → phase.OnTrack v) →
      ¬CommitsClaim input (q, a) → Waiting input v (log ++ [(q, a)]) u := by
    intro track' quiet
    refine ⟨track', fun e he => ?_⟩
    rcases List.mem_append.mp he with he | he
    · exact uncommitted e he
    · exact List.mem_singleton.mp he ▸ quiet
  cases a with
  | arrive r =>
    obtain ⟨c, hc, rfl⟩ := Pool.step_arrive hs
    refine .inr (waits ?_ ?_)
    · rintro i phase ⟨input', hi, same⟩
      rcases List.mem_append.mp (List.mem_of_getElem? hi) with old | new
      · obtain ⟨j, hj⟩ := List.mem_iff_getElem?.mp old
        exact track j phase ⟨input', hj, same⟩
      · have fresh := accept_isNew hc
        obtain rfl := List.mem_singleton.mp new
        cases phase <;> simp [Call.isNew] at fresh
        trivial
    · rintro ⟨_, _, _, _, _, taken, _⟩
      rcases taken with taken | taken <;> cases taken
  | turn i m =>
    obtain ⟨c, t, hc, ht, rfl⟩ := Pool.step_turn hs
    have turn := turn_cases good.inv (good.ok i _ hc) ht
    -- the others have not moved, and what is started in the background is no post
    have rest : (∀ input' phase, t.call = .inbound input' phase → input'.Reposts input →
        phase.OnTrack v) → ∀ j phase,
        Posts input ⟨t.store, q.calls.set i t.call ++ t.spawned⟩ j phase → phase.OnTrack v := by
      rintro acting j phase ⟨input', hj, same⟩
      rcases Pool.turned_call hc hj with ⟨_, hj⟩ | ⟨_, self⟩ | ⟨_, new⟩
      · exact track j phase ⟨input', hj, same⟩
      · exact acting input' phase self.symm same
      · cases turn with
        | statement _ _ _ spawned _ =>
          obtain ⟨_, other⟩ := spawned _ new
          cases other
        | _ => cases new
    by_cases post : ∃ phase, Posts input q i phase
    · obtain ⟨phase, input', hc', same⟩ := post
      obtain rfl := Option.some.inj (hc.symm.trans hc')
      have unfound : ¬FindsRow input (q, .turn i m) := fun finds =>
        (ordered finds).elim fun e he => uncommitted e he.1 he.2
      rcases post_turn good hc same current awaits (track i phase ⟨input', hc, same⟩) turn
        (fun w taken at_insert => clock i w (taken ▸ rfl) ⟨input', at_insert ▸ hc, same⟩)
        unfound unlocked with verified | ⟨track', quiet⟩
      · exact .inl verified
      · exact .inr (waits (rest fun input' phase' after _ => track' input' phase' after) quiet)
    · refine .inr (waits (rest fun input' phase after same => ?_) ?_)
      · -- a call that is no post does not become one
        obtain ⟨phase', rfl⟩ : ∃ phase', c = .inbound input' phase' :=
          Call.inbound_of_crashed (turn.crashed.symm.trans (congrArg Call.crashed after))
        exact absurd ⟨phase', input', hc, same⟩ post
      · rintro ⟨j, w, inboundId, row, emission, taken, posts⟩
        obtain rfl : j = i := by
          rcases taken with taken | taken <;> exact (Act.turn.inj taken).1.symm
        exact post ⟨_, posts⟩

/-- A run of such steps. -/
theorem Waiting.run {s q : Server} (good : s.Good env) {log : List (Server × Act Request Move)}
    (run : Run (Pool.step (server env)) s log q) {input : MatchInput} {v : Verification}
    (hv : v ∈ s.store.verifications) (awaits : Awaits env v input)
    (first : ∀ i phase, ¬Posts input s i phase)
    (stays : ∀ x ∈ q.store.verifications, x.id = v.id →
      x.status = .pending ∨ x.status = .verified)
    (clock : ∀ e ∈ log, ∀ i w, e.2 = .turn i (.statement w) → Posts input e.1 i .insert →
      w.now < v.expiresAt)
    (ordered : ∀ log₁ e log₂, log = log₁ ++ e :: log₂ → FindsRow input e →
      ∃ e' ∈ log₁, CommitsClaim input e')
    (unlocked : ∀ e ∈ log, ¬PassesOver input v.id e) :
    IsVerified q v.id ∨ Waiting input v log q := by
  induction run with
  | start => exact .inr ⟨fun i phase posts => absurd posts (first i phase), fun _ he => nomatch he⟩
  | @next log q u a run hs ih =>
    have good' := Server.good_run good run
    have follows := Server.follows_step good' hs
    have stays' : ∀ x ∈ q.store.verifications, x.id = v.id →
        x.status = .pending ∨ x.status = .verified := by
      intro x hx id
      obtain ⟨y, hy, id', status, _⟩ := follows x hx
      have after := stays y hy (id'.trans id)
      rcases status with same | ⟨waits, _⟩
      · exact same ▸ after
      · exact .inl waits
    rcases ih stays' (fun e he => clock e (List.mem_append_left _ he))
      (fun log₁ e log₂ split => ordered log₁ e (log₂ ++ [(q, a)]) (by simp [split]))
      (fun e he => unlocked e (List.mem_append_left _ he)) with verified | waiting
    · exact .inl (follows.verified verified)
    · rcases (Server.follows_run good run).still_pending hv stays' with verified | ⟨x, current⟩
      · exact .inl (follows.verified verified)
      · exact waiting.step good' current awaits hs (clock (q, a) (by simp))
          (ordered log (q, a) [] rfl) (unlocked (q, a) (by simp))

/-! ## Acknowledged messages -/

/-- From any reachable server in which a pending verification awaits a message that has not been
posted: over any run with any failures and any number of posts of the message, as long as the
verification is not cancelled or expired and the posts sample the clock before its expiry, an
answer that takes the message off the gateway's queue finds the verification verified. This needs
that no post finds the stored row before a claim of the message has committed, and that no other
transaction has the verification locked when a claim looks for it. -/
theorem acknowledged_inbound_verifies {log₀ log : List (Server × Act Request Move)}
    {s p : Server} (before : ServerRun env log₀ s) (run : Run (Pool.step (server env)) s log p)
    {input : MatchInput} {v : Verification} (hv : v ∈ s.store.verifications)
    (awaits : Awaits env v input) (first : ∀ i phase, ¬Posts input s i phase)
    (stays : ∀ x ∈ p.store.verifications, x.id = v.id →
      x.status = .pending ∨ x.status = .verified)
    (clock : ∀ e ∈ log, ∀ i w, e.2 = .turn i (.statement w) → Posts input e.1 i .insert →
      w.now < v.expiresAt)
    (ordered : ∀ log₁ e log₂, log = log₁ ++ e :: log₂ → FindsRow input e →
      ∃ e' ∈ log₁, CommitsClaim input e')
    (unlocked : ∀ e ∈ log, ¬PassesOver input v.id e) {i : Nat} {phase : InboundPhase}
    {response : InboundResponse} (posted : Posts input p i phase)
    (answered : phase.response = some response)
    (dropped : gatewayDrops response.statusCode = true) : IsVerified p v.id := by
  rcases Waiting.run before.good run hv awaits first stays clock ordered unlocked with
    verified | ⟨track, _⟩
  · exact verified
  · -- a post on track answers nothing or 500
    have on := track i phase posted
    cases phase with
    | failed =>
      obtain rfl := Option.some.inj answered
      exact nomatch dropped
    | done outcome => exact on.elim
    | _ => exact nomatch answered

namespace Script

theorem started_runs : (result started).isSome = true := by decide +kernel

/-- A server on which a verification waits for its message. -/
def waiting : Server := ((result started).get started_runs).2

def input : MatchInput := ⟨verifyMessage, receiver, verifyMessage.toNumber⟩

def later (acts : List (Act Request Move)) : Option (List (Server × Act Request Move) × Server) :=
  exec (Pool.step (server .ascii)) waiting acts

theorem run_later (acts : List (Act Request Move)) (h : (later acts).isSome = true) :
    Run (Pool.step (server .ascii)) waiting ((later acts).get h).1 ((later acts).get h).2 :=
  run_of_exec (Option.some_get h).symm

/-- The message is posted, stored and claimed: call 4. -/
def delivered : List (Act Request Move) :=
  [.arrive (.inbound receiver verifyMessage)] ++ turns 4 7 (world 1050)

/-- The server crashes once it has stored the message, and the gateway posts it again: call 5. -/
def cutOff : List (Act Request Move) :=
  [.arrive (.inbound receiver verifyMessage)] ++ turns 4 1 (world 1050) ++ [.turn 4 .crash] ++
  [.arrive (.inbound receiver verifyMessage)] ++ turns 5 2 (world 1060)

theorem delivered_runs : (later delivered).isSome = true := by decide +kernel

/-- The verification that waits. -/
def awaiting : Verification := waiting.store.verifications.head (by decide +kernel)

theorem awaiting_awaits : Awaits .ascii awaiting input where
  receiver := by decide +kernel
  phone := by decide +kernel
  nonce := by decide +kernel
  code := by decide +kernel

/-- The message a call posts and how far it is. -/
def post : Call → Option (InboundBody × InboundPhase)
  | .inbound input phase => some (input.toInboundBody, phase)
  | _ => none

/-- It is about to lock the verification its message asks for. -/
def locking (c : Call) : Bool :=
  match post c with
  | some (_, .claimLock ..) => true
  | _ => false

theorem post_of_posts {p : Server} {i : Nat} {phase : InboundPhase} (h : Posts input p i phase) :
    ∃ c ∈ p.calls, post c = some (verifyMessage, phase) := by
  obtain ⟨input', hc, same⟩ := h
  exact ⟨_, List.mem_of_getElem? hc, by rw [post, same.body]; rfl⟩

theorem not_posted : ∀ i phase, ¬Posts input waiting i phase := by
  intro i phase posts
  obtain ⟨c, hc, same⟩ := post_of_posts posts
  have none : ∀ c ∈ waiting.calls, (post c).map (·.1) ≠ some verifyMessage := by decide +kernel
  exact none c hc (by rw [same]; rfl)

/-- The verification is there and has time left, and the second call is answered as a duplicate. -/
theorem cutOff_run : ∃ log p, Run (Pool.step (server .ascii)) waiting log p ∧
    (∀ e ∈ log, ∀ now, clock e.2 = some now → now < awaiting.expiresAt) ∧
    awaiting ∈ p.store.verifications ∧ (∀ x ∈ p.store.verifications, x.status = .pending) ∧
    p.calls[5]? = some (.inbound input (.done (.duplicate (newId .inbound 1050)))) := by
  have executed : (later cutOff).any (fun r => decide (
      (∀ e ∈ r.1, ∀ now, clock e.2 = some now → now < awaiting.expiresAt) ∧
      awaiting ∈ r.2.store.verifications ∧ (∀ x ∈ r.2.store.verifications, x.status = .pending) ∧
      r.2.calls[5]? = some (.inbound input (.done (.duplicate (newId .inbound 1050)))))) =
      true := by decide +kernel
  exact run_of_exec_any executed

end Script

/-- Without a failure the message verifies the phone. -/
theorem acknowledged_inbound_verifies_script : IsVerified
    ((Script.later Script.delivered).get Script.delivered_runs).2 Script.awaiting.id := by
  have clocks : ∀ e ∈ ((Script.later Script.delivered).get Script.delivered_runs).1,
      ∀ now, Script.clock e.2 = some now → now < Script.awaiting.expiresAt := by decide +kernel
  have prior : ∀ e ∈ ((Script.later Script.delivered).get Script.delivered_runs).1,
      ∀ c ∈ e.1.calls, Script.post c ≠ some (Script.verifyMessage, .findPrior) := by
    decide +kernel
  have idle : ∀ e ∈ ((Script.later Script.delivered).get Script.delivered_runs).1,
      e.1.calls.any Script.locking = true → ∀ c ∈ e.1.calls, c.locks = [] := by decide +kernel
  have posted : Posts Script.input ((Script.later Script.delivered).get Script.delivered_runs).2 4
      (.done (.verification (newId .verification 1030) (newId .inbound 1050))) :=
    ⟨Script.input, by decide +kernel, rfl, rfl⟩
  refine acknowledged_inbound_verifies (Script.run _ Script.started_runs)
    (Script.run_later _ Script.delivered_runs) (List.head_mem _)
    Script.awaiting_awaits Script.not_posted (by decide +kernel) ?_ ?_ ?_ posted rfl rfl
  · exact fun e he i w taken _ => clocks e he w.now (by rw [taken]; rfl)
  · rintro log₁ e log₂ split ⟨i, w, _, posts, _⟩
    obtain ⟨c, hc, same⟩ := Script.post_of_posts posts
    exact absurd same (prior e (by rw [split]; simp) c hc)
  · rintro e he ⟨i, w, _, _, _, _, _, posts, o, ho, locked⟩
    obtain ⟨c, hc, same⟩ := Script.post_of_posts posts
    obtain ⟨j, _, hj⟩ := Pool.mem_others.mp ho
    have free := idle e he (List.any_eq_true.mpr ⟨c, hc, by rw [Script.locking, same]⟩) o
      (List.mem_of_getElem? hj)
    rw [free] at locked
    cases locked

/-- A crash between the INSERT and the claim: the message posted again is answered 409 while the
verification it should have verified is pending and has minutes left. -/
theorem crash_loses_message : ∃ log₀ s log p, ServerRun .ascii log₀ s ∧
    Run (Pool.step (server .ascii)) s log p ∧ ∃ input v, v ∈ s.store.verifications ∧
      v ∈ p.store.verifications ∧ v.status = .pending ∧ Awaits .ascii v input ∧
      (∀ i phase, ¬Posts input s i phase) ∧
      (∀ e ∈ log, ∀ now, Script.clock e.2 = some now → now < v.expiresAt) ∧
      ∃ i phase response, Posts input p i phase ∧ phase.response = some response ∧
        gatewayDrops response.statusCode = true ∧ ¬IsVerified p v.id := by
  obtain ⟨log, p, run, clocks, there, pending, answered⟩ := Script.cutOff_run
  refine ⟨_, Script.waiting, log, p, Script.run _ Script.started_runs, run, Script.input,
    Script.awaiting, List.head_mem _, there, pending _ there, Script.awaiting_awaits,
    Script.not_posted, clocks, 5, .done (.duplicate (newId .inbound 1050)), _,
    ⟨Script.input, answered, rfl, rfl⟩, rfl, rfl, ?_⟩
  rintro ⟨x, hx, _, verified⟩
  rw [pending x hx] at verified
  contradiction

end Syrotp
