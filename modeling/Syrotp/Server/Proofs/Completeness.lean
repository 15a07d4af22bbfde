import Syrotp.Server.Proofs.Soundness

/-!
# No eligible verification is passed over

The claim skips locked rows, so a post may answer `no_match` although a verification was waiting
for it. Whoever held the lock was resolving that very verification: without failures it does not
let go of the lock before its commit, and then the verification is terminal.
-/

namespace Syrotp

variable {env : Env}

/-! ## Lock holders -/

def IsTerminal (db : Db) (id : Id) : Prop :=
  ∃ x ∈ db.verifications, x.id = id ∧ x.status ≠ .pending

theorem Follows.terminal {d d' : Db} (follows : Follows d d') {id : Id} (h : IsTerminal d id) :
    IsTerminal d' id := by
  obtain ⟨x, hx, rfl, terminal⟩ := h
  obtain ⟨y, hy, same, status, _⟩ := follows x hx
  refine ⟨y, hy, same, ?_⟩
  rcases status with kept | ⟨pending, _⟩
  · exact kept ▸ terminal
  · exact absurd pending terminal

/-- Who holds the lock of a verification is emitting the event of its resolution. -/
theorem Call.emission_of_lock {c : Call} {id : Id} (h : .verification id ∈ c.locks) :
    ∃ eventType row e, c.emission = some (eventType, row, e) ∧ row.id = id := by
  have named : ∀ {row : Verification} {e : Emission}, .verification id ∈ emitLocks row e →
      row.id = id := by
    intro row e h
    rcases List.mem_cons.mp h with same | keys
    · exact (Lock.verification.inj same).symm
    · cases e <;> simp [Emission.locks] at keys
  cases c with
  | start input phase => cases phase <;> simp [Call.locks, StartPhase.locks] at h
  | inbound input phase =>
    cases phase with
    | emit i row e => exact ⟨_, row, e, rfl, named h⟩
    | commit i row e => exact ⟨_, row, e, rfl, named h⟩
    | _ => cases h
  | cancel appId verificationId phase =>
    cases phase with
    | emit row e => exact ⟨_, row, e, rfl, named h⟩
    | _ => cases h
  | expire verificationId phase =>
    cases phase with
    | emit row e => exact ⟨_, row, e, rfl, named h⟩
    | _ => cases h
  | _ => cases h

theorem Call.lock_of_emission {c : Call} {eventType : VerificationEventType} {row : Verification}
    {e : Emission} (h : c.emission = some (eventType, row, e)) :
    .verification row.id ∈ c.locks := by
  cases c with
  | inbound input phase =>
    cases phase <;> simp [Call.emission] at h
    all_goals
      obtain ⟨-, rfl, rfl⟩ := h
      exact List.mem_cons_self
  | cancel appId verificationId phase =>
    cases phase <;> simp [Call.emission] at h
    obtain ⟨-, rfl, rfl⟩ := h
    exact List.mem_cons_self
  | expire verificationId phase =>
    cases phase <;> simp [Call.emission] at h
    obtain ⟨-, rfl, rfl⟩ := h
    exact List.mem_cons_self
  | _ => cases h

/-- A statement in the middle of an emission stays in it or commits the resolution. -/
theorem statement_emission {v : View} {w : World} {c : Call} {t : Turn Db Call}
    (h : c.statement env v w = some t) {eventType : VerificationEventType} {row : Verification}
    {e : Emission} (during : c.emission = some (eventType, row, e)) :
    (∃ e', t.call.emission = some (eventType, row, e')) ∨
      ∃ inbound write, e.write? row eventType inbound = some write ∧
        t.store = v.db.commit write := by
  cases c with
  | inbound input phase =>
    obtain ⟨⟨phase', x⟩, hr, rfl⟩ := Option.map_eq_some_iff.mp h
    cases processInbound_step hr with
    | returned => exact .inl ⟨e, during⟩
    | @emitted _ _ _ e' _ =>
      obtain ⟨rfl, rfl, rfl⟩ := Option.some.inj during
      exact .inl ⟨e', rfl⟩
    | committed written =>
      obtain ⟨rfl, rfl, rfl⟩ := Option.some.inj during
      exact .inr ⟨_, _, written, rfl⟩
    | _ => cases during
  | cancel appId id phase =>
    obtain ⟨⟨phase', x, expiry⟩, hr, rfl⟩ := Option.map_eq_some_iff.mp h
    cases cancelVerification_step hr with
    | @emitted _ _ e' _ _ =>
      obtain ⟨rfl, rfl, rfl⟩ := Option.some.inj during
      exact .inl ⟨e', rfl⟩
    | committed written =>
      obtain ⟨rfl, rfl, rfl⟩ := Option.some.inj during
      exact .inr ⟨_, _, written, rfl⟩
    | _ => cases during
  | expire id phase =>
    obtain ⟨⟨phase', x⟩, hr, rfl⟩ := Option.map_eq_some_iff.mp h
    cases lazyExpireAndEmit_step hr with
    | @emitted _ _ e' _ _ =>
      obtain ⟨rfl, rfl, rfl⟩ := Option.some.inj during
      exact .inl ⟨e', rfl⟩
    | committed written =>
      obtain ⟨rfl, rfl, rfl⟩ := Option.some.inj during
      exact .inr ⟨_, _, written, rfl⟩
    | _ => cases during
  | _ => cases during

theorem Call.Ok.emitting {db : Db} {c : Call} (ok : c.Ok env db)
    {eventType : VerificationEventType} {row : Verification} {e : Emission}
    (during : c.emission = some (eventType, row, e)) :
    ∃ inbound, Emitting env db row eventType inbound e := by
  cases c with
  | inbound input phase =>
    cases phase <;> simp [Call.emission] at during
    all_goals
      obtain ⟨rfl, rfl, rfl⟩ := during
      exact ⟨_, ok.2⟩
  | cancel appId id phase =>
    cases phase <;> simp [Call.emission] at during
    obtain ⟨rfl, rfl, rfl⟩ := during
    exact ⟨none, ok⟩
  | expire id phase =>
    cases phase <;> simp [Call.emission] at during
    obtain ⟨rfl, rfl, rfl⟩ := during
    exact ⟨none, ok⟩
  | _ => cases during

/-- The call at position `j` has the verification locked. -/
def Holds (p : Server) (j : Nat) (id : Id) : Prop :=
  ∃ c, p.calls[j]? = some c ∧ .verification id ∈ c.locks

/-- Without a failure, the lock of a verification is let go only once it is terminal. -/
theorem Holds.step {p q : Server} (good : p.Good env) {j : Nat} {id : Id} (h : Holds p j id)
    {a : Act Request Move} (smooth : undisturbed a = true)
    (hs : p.step (server env) a = some q) : IsTerminal q.store id ∨ Holds q j id := by
  obtain ⟨c, hc, locked⟩ := h
  cases a with
  | arrive r =>
    obtain ⟨_, _, rfl⟩ := Pool.step_arrive hs
    have bound : j < p.calls.length := (List.getElem?_eq_some_iff.mp hc).1
    exact .inr ⟨c, by simpa [List.getElem?_append_left bound] using hc, locked⟩
  | turn i m =>
    obtain ⟨x, t, hx, ht, rfl⟩ := Pool.step_turn hs
    by_cases same : j = i
    · subst same
      obtain rfl := Option.some.inj (hx.symm.trans hc)
      obtain ⟨eventType, row, e, during, rfl⟩ := Call.emission_of_lock locked
      cases m with
      | statement w =>
        rcases statement_emission ht during with ⟨e', after⟩ | ⟨inbound, write, written, stored⟩
        · exact .inr ⟨t.call, Pool.turned_self hx, Call.lock_of_emission after⟩
        · obtain ⟨_, emitting⟩ := Call.Ok.emitting (good.ok j _ hc) during
          obtain ⟨resolved, terminal⟩ := emitting.resolved written
          refine .inl ⟨row, stored ▸ resolved, rfl, ?_⟩
          rw [terminal]
          cases eventType <;> exact nofun
      | _ => exact nomatch smooth
    · exact .inr ⟨c, Pool.turned_other hc same, locked⟩

/-- Along a run without failures. -/
theorem Holds.run {p q : Server} (good : p.Good env) {log : List (Server × Act Request Move)}
    (run : Run (Pool.step (server env)) p log q) (smooth : ∀ e ∈ log, undisturbed e.2 = true)
    {j : Nat} {id : Id} (h : Holds p j id) : IsTerminal q.store id ∨ Holds q j id := by
  refine (run.invariant_of (fun q => q.Good env ∧ (IsTerminal q.store id ∨ Holds q j id))
    (fun _ a => undisturbed a = true) ⟨good, .inr h⟩ ?_ smooth).2
  rintro s a u ⟨good, held⟩ smooth hs
  refine ⟨(server_discipline env).step good hs, ?_⟩
  rcases held with terminal | holds
  · exact .inl ((Server.follows_step good hs).terminal terminal)
  · exact holds.step good smooth hs

/-! ## What a post that found nothing has seen -/

/-- The log has the step at which the post at position `i` took the snapshot of its claim. -/
def Snapshot (env : Env) (log : List (Server × Act Request Move)) (i : Nat) (input : MatchInput)
    (inboundId : Id) (code : Text) (now : Time) (candidates : List Id) : Prop :=
  ∃ s w, (s, Act.turn i (.statement w)) ∈ log ∧
    s.calls[i]? = some (.inbound input (.claimSnapshot inboundId code now)) ∧
    candidates = (s.store.verifications.filter
      (claimable input.receiverId (input.fromE164 env) code now)).map (·.id)

/-- The log has the step at which it found every row it could have claimed locked. -/
def Skipped (env : Env) (log : List (Server × Act Request Move)) (i : Nat) (input : MatchInput)
    (inboundId : Id) : Prop :=
  ∃ s w code now candidates, (s, Act.turn i (.statement w)) ∈ log ∧
    s.calls[i]? = some (.inbound input (.claimLock inboundId code now candidates)) ∧
    ∀ x ∈ s.store.verifications, candidate env input code now candidates x →
      ∃ j, j ≠ i ∧ Holds s j x.id

/-- What the stage of a post tells about the log. -/
def Seen (env : Env) (log : List (Server × Act Request Move)) (i : Nat) (input : MatchInput) :
    InboundPhase → Prop
  | .claimLock inboundId code now candidates =>
    Snapshot env log i input inboundId code now candidates
  | .clear inboundId => Skipped env log i input inboundId
  | .done (.unmatched .noMatch inboundId) =>
    extractCode env.platform input.body = none ∨ Skipped env log i input inboundId
  | _ => True

theorem Seen.mono {log log' : List (Server × Act Request Move)} {i : Nat} {input : MatchInput}
    {phase : InboundPhase} (h : Seen env log i input phase) (sub : ∀ e ∈ log, e ∈ log') :
    Seen env log' i input phase := by
  have skipped : ∀ {inboundId}, Skipped env log i input inboundId →
      Skipped env log' i input inboundId := by
    rintro inboundId ⟨s, w, code, now, candidates, logged, h⟩
    exact ⟨s, w, code, now, candidates, sub _ logged, h⟩
  cases phase with
  | claimLock inboundId code now candidates =>
    obtain ⟨s, w, logged, h⟩ := h
    exact ⟨s, w, sub _ logged, h⟩
  | clear inboundId => exact skipped h
  | done outcome =>
    cases outcome with
    | unmatched reason inboundId =>
      cases reason with
      | noMatch => exact Or.imp_right skipped h
      | _ => trivial
    | _ => trivial
  | _ => trivial

/-- A statement of a post adds what it has seen. -/
theorem InboundStep.seen {log : List (Server × Act Request Move)} {q : Server} {i : Nat}
    {w : World} {input : MatchInput} {phase phase' : InboundPhase} {x : Option Write}
    (hc : q.calls[i]? = some (.inbound input phase))
    (h : InboundStep env (viewOf q.store (q.others i)) w input phase phase' x)
    (before : Seen env log i input phase) :
    Seen env (log ++ [(q, .turn i (.statement w))]) i input phase' := by
  have here : (q, Act.turn i (.statement w)) ∈ log ++ [(q, .turn i (.statement w))] := by simp
  cases h with
  | stored =>
    unfold afterInsert
    split
    · trivial
    · split
      · next none => exact .inl none
      · trivial
  | snapshot => exact ⟨q, w, here, hc, rfl⟩
  | @passed _ code now candidates taken =>
    refine ⟨q, w, code, now, candidates, here, hc, fun y hy hit => ?_⟩
    obtain ⟨o, ho, locked⟩ := List.any_eq_true.mp (taken y hy hit)
    obtain ⟨j, ne, hj⟩ := Pool.mem_others.mp ho
    exact ⟨j, ne, o, hj, of_decide_eq_true locked⟩
  | cleared =>
    refine .inr ?_
    have earlier : Seen env log i input (.clear _) := before
    exact earlier.mono fun _ he => List.mem_append_left _ he
  | _ => trivial

/-- In every run, every post has seen what its stage tells. -/
theorem ServerRun.seen {log : List (Server × Act Request Move)} {p : Server}
    (run : ServerRun env log p) {i : Nat} {input : MatchInput} {phase : InboundPhase}
    (hc : p.calls[i]? = some (.inbound input phase)) : Seen env log i input phase := by
  refine run.call_history
    (K := fun log i c => ∀ input phase, c = .inbound input phase → Seen env log i input phase)
    ?_ ?_ ?_ i _ hc input phase rfl
  · exact fun _ _ _ _ _ _ h input phase hc =>
      (h input phase hc).mono fun _ he => List.mem_append_left _ he
  · rintro log i _ new _ input phase rfl
    cases phase <;> simp [Call.isNew] at new
    trivial
  · intro log q i c m t _ hc turn h input phase after
    obtain ⟨phase', rfl⟩ : ∃ phase', c = .inbound input phase' :=
      Call.inbound_of_crashed (turn.crashed.symm.trans (congrArg Call.crashed after))
    cases turn with
    | statement _ _ _ _ ran =>
      obtain ⟨⟨phase'', x⟩, hr, rfl⟩ := Option.map_eq_some_iff.mp ran
      obtain ⟨_, rfl⟩ := Call.inbound.inj after
      exact (processInbound_step hr).seen hc (h _ _ rfl)
    | error =>
      obtain ⟨_, rfl⟩ := Call.inbound.inj after
      cases phase' <;> trivial
    | lost =>
      obtain ⟨_, rfl⟩ := Call.inbound.inj after
      cases phase' <;> trivial
    | crash =>
      obtain ⟨_, rfl⟩ := Call.inbound.inj after
      trivial

/-! ## Completeness -/

/-- A row that was pending on a receiver, phone and code is so still or has become terminal. -/
theorem Follows.waits_or_terminal {d d' : Db} (follows : Follows d d') {v : Verification}
    (hv : v ∈ d.verifications) : IsTerminal d' v.id ∨
      ∃ x ∈ d'.verifications, x.id = v.id ∧ x.status = .pending ∧ x.receiverId = v.receiverId ∧
        x.phoneE164 = v.phoneE164 ∧ x.code = v.code ∧ x.expiresAt = v.expiresAt := by
  obtain ⟨x, hx, same, _, _, phone, receiver, code, expires⟩ := follows v hv
  by_cases pending : x.status = .pending
  · exact .inr ⟨x, hx, same, pending, receiver, phone, code, expires⟩
  · exact .inl ⟨x, hx, same, pending⟩

theorem ServerRun.logged {log : List (Server × Act Request Move)} {p : Server}
    (run : ServerRun env log p) {e : Server × Act Request Move} (he : e ∈ log) :
    e.1.Good env ∧ Follows e.1.store p.store := by
  obtain ⟨_, _, _, _, before, hs, after⟩ := run.split he
  have good := ServerRun.good before
  exact ⟨good, Server.follows_run good ((Run.single hs).trans after)⟩

/-- In every run without failures: when a post that carries a code has answered `no_match`, there
is a step at which it looked for a row to claim, with the clock it had sampled, such that every
verification on its receiver, sender and code that was pending before the post arrived and had not
expired by that clock is terminal, unless a transaction that held its lock at that step has not
committed yet. -/
theorem no_missed_match {log : List (Server × Act Request Move)} {p : Server}
    (run : ServerRun env log p) (smooth : ∀ e ∈ log, undisturbed e.2 = true) {i : Nat}
    {input : MatchInput} {inboundId : Id} {code : Text}
    (answered : p.calls[i]? = some (.inbound input (.done (.unmatched .noMatch inboundId))))
    (carries : extractCode env.platform input.body = some code) :
    ∃ s w now candidates, (s, Act.turn i (.statement w)) ∈ log ∧
      s.calls[i]? = some (.inbound input (.claimLock inboundId code now candidates)) ∧
      Posted log input inboundId now ∧
      ∀ e ∈ log, e.1.calls.length ≤ i → ∀ v ∈ e.1.store.verifications, v.status = .pending →
        v.receiverId = input.receiverId → v.phoneE164 = input.fromE164 env → v.code = code →
        now < v.expiresAt →
        IsTerminal p.store v.id ∨ ∃ j, j ≠ i ∧ Holds s j v.id ∧ Holds p j v.id := by
  rcases run.seen answered with none | ⟨s, w, code', now, candidates, logged, hc, taken⟩
  · rw [none] at carries
    contradiction
  obtain ⟨log₁, s', log₂, rfl, before, hs, after⟩ := run.split logged
  have good := ServerRun.good before
  obtain rfl : code' = code := Option.some.inj ((good.ok i _ hc).2.symm.trans carries)
  obtain ⟨s₂, w₂, logged₂, hc₂, rfl⟩ := ServerRun.seen before hc
  have posted := ServerRun.sampled before hc input _ rfl inboundId now rfl
  refine ⟨s, w, now, _, logged, hc, posted.mono fun _ he => List.mem_append_left _ he, ?_⟩
  intro e he early v hv _ receiver phone same unexpired
  obtain ⟨goodE, followsE⟩ := run.logged he
  obtain ⟨good₂, follows₂⟩ := ServerRun.logged before logged₂
  have follows := Server.follows_run good ((Run.single hs).trans after)
  -- the snapshot was taken after the post had arrived
  have bound : i < s₂.calls.length := (List.getElem?_eq_some_iff.mp hc₂).1
  rcases run.ordered he (List.mem_append_left _ logged₂) with ⟨_, to₂⟩ | ⟨_, back⟩
  · rcases (Server.follows_run goodE to₂).waits_or_terminal hv with
      terminal | ⟨v₂, hv₂, id₂, pending₂, receiver₂, phone₂, code₂, expires₂⟩
    · exact .inl (follows.terminal (follows₂.terminal terminal))
    have claim₂ : claimable input.receiverId (input.fromE164 env) code' now v₂ = true := by
      simp [claimable, pending₂, receiver₂, phone₂, code₂, expires₂, receiver, phone, same,
        unexpired]
    rcases follows₂.waits_or_terminal hv₂ with
      terminal | ⟨v₃, hv₃, id₃, pending₃, receiver₃, phone₃, code₃, expires₃⟩
    · exact .inl (follows.terminal (id₂ ▸ terminal))
    have claim₃ : claimable input.receiverId (input.fromE164 env) code' now v₃ = true := by
      simp only [claimable, decide_eq_true_eq] at claim₂ ⊢
      simp [pending₃, receiver₃, phone₃, code₃, expires₃, claim₂]
    have seen := List.mem_map_of_mem (f := (·.id)) (List.mem_filter.mpr ⟨hv₂, claim₂⟩)
    obtain ⟨j, ne, holds⟩ := taken v₃ hv₃ ⟨id₃ ▸ seen, claim₃⟩
    rw [id₃, id₂] at holds
    rcases Holds.run good ((Run.single hs).trans after)
      (fun e he => smooth e (List.mem_append_right _ he)) holds with terminal | still
    · exact .inl terminal
    · exact .inr ⟨j, ne, holds, still⟩
  · have grown : s₂.calls.length ≤ e.1.calls.length := Pool.calls_grow back
    omega

namespace Script

/-- Another message with the same code. -/
def rivalMessage : InboundBody :=
  { verifyMessage with idempotencyKey := text "key-rival", idempotencyKey_range := by decide }

/-- Call 4 has locked the verification when call 5 looks for it; then call 4 commits. -/
def contended : List (Act Request Move) :=
  started ++ [.arrive (.inbound receiver verifyMessage)] ++ turns 4 3 (world 1050) ++
  [.arrive (.inbound receiver rivalMessage)] ++ turns 5 4 (world 1060) ++ turns 4 4 (world 1070)

theorem contended_runs : (result contended).isSome = true := by decide +kernel

end Script

/-- The post that answered `no_match` had been passed over; what it missed is terminal. -/
theorem no_missed_match_script : ∃ log p, ServerRun .ascii log p ∧
    (∃ input inboundId, p.calls[5]? = some (.inbound input (.done (.unmatched .noMatch inboundId))))
    ∧ IsTerminal p.store (newId .verification 1030) := by
  have run := Script.run _ Script.contended_runs
  have answered : ((Script.result Script.contended).get Script.contended_runs).2.calls[5]? =
      some (.inbound ⟨Script.rivalMessage, Script.receiver, Script.rivalMessage.toNumber⟩
        (.done (.unmatched .noMatch (newId .inbound 1060)))) := by decide +kernel
  have read : extractCode Env.ascii.platform Script.rivalMessage.body = some (text "AAAAAA") := by
    decide +kernel
  refine ⟨_, _, run, ⟨_, _, answered⟩, ?_⟩
  obtain ⟨s, _, now, _, _, _, ⟨s', i, w, logged, _, _, rfl⟩, missed⟩ :=
    no_missed_match run (by decide +kernel) answered read
  have clocks : ∀ e ∈ ((Script.result Script.contended).get Script.contended_runs).1,
      ∀ now, Script.clock e.2 = some now → now < 601030 := by decide +kernel
  have waiting : ∃ e ∈ ((Script.result Script.contended).get Script.contended_runs).1,
      e.1.calls.length ≤ 5 ∧ ∃ v ∈ e.1.store.verifications, v.id = newId .verification 1030 ∧
        v.status = .pending ∧ v.receiverId = Script.receiver ∧ v.phoneE164 = Script.phone ∧
        v.code = text "AAAAAA" ∧ v.expiresAt = 601030 := by decide +kernel
  obtain ⟨e, he, early, v, hv, id, pending, receiver, phone, code, expires⟩ := waiting
  have before := clocks _ logged w.now rfl
  rcases missed e he early v hv pending receiver (phone.trans (by decide +kernel)) code
    (expires ▸ before) with terminal | ⟨j, _, _, c, hc, locked⟩
  · exact id ▸ terminal
  · have free : ∀ c ∈ ((Script.result Script.contended).get Script.contended_runs).2.calls,
        c.locks = [] := by decide +kernel
    rw [free c (List.mem_of_getElem? hc)] at locked
    exact nomatch locked

end Syrotp
